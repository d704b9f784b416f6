/-!
# Literal search in texts

Everything the scan decides, it decides by looking for one text inside another: an
occurrence anywhere, at the start, or at the end. The tests run on the characters of
the two texts and are tied to the list relations `<:+:`, `<+:` and `<:+`, through
which every statement about a search is made.
-/

namespace Unreferenced.Text

/-- Whether `pattern` occurs among the given characters as one contiguous piece. -/
def occursIn (pattern : List Char) : List Char → Bool
  | [] => pattern.isEmpty
  | c :: rest => pattern.isPrefixOf (c :: rest) || occursIn pattern rest

theorem occursIn_iff {pattern cs : List Char} :
    occursIn pattern cs = true ↔ pattern <:+: cs := by
  induction cs with
  | nil => simp [occursIn]
  | cons c rest ih => simp [occursIn, ih, List.infix_cons_iff]

/-- The rest of some characters behind the given ones, when they begin with those. -/
def behind? : List Char → List Char → Option (List Char)
  | [], cs => some cs
  | _ :: _, [] => none
  | e :: expected, c :: cs => if e = c then behind? expected cs else none

theorem behind?_eq_some_iff {expected cs rest : List Char} :
    behind? expected cs = some rest ↔ cs = expected ++ rest := by
  induction expected generalizing cs with
  | nil => simp [behind?]
  | cons e expected ih =>
    cases cs with
    | nil => simp [behind?]
    | cons c cs => by_cases h : e = c <;> simp [behind?, h, ih, eq_comm]

/-- Whether `pattern` occurs in `text`; the empty pattern occurs everywhere. -/
def contains (text pattern : String) : Bool :=
  occursIn pattern.toList text.toList

theorem contains_iff {text pattern : String} :
    contains text pattern = true ↔ pattern.toList <:+: text.toList :=
  occursIn_iff

/-- Whether `text` begins with `pattern`. -/
def startsWith (text pattern : String) : Bool :=
  pattern.toList.isPrefixOf text.toList

theorem startsWith_iff {text pattern : String} :
    startsWith text pattern = true ↔ pattern.toList <+: text.toList := by
  simp [startsWith]

/-- Whether `text` ends with `pattern`. -/
def endsWith (text pattern : String) : Bool :=
  pattern.toList.isSuffixOf text.toList

theorem endsWith_iff {text pattern : String} :
    endsWith text pattern = true ↔ pattern.toList <:+ text.toList := by
  simp [endsWith]

end Unreferenced.Text
