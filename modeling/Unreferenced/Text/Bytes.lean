/-!
# Cutting texts by bytes

The length of a text in the bytes of its UTF-8 form, and the two parts of a text before
and behind so many bytes. A cut that would fall inside a character does not exist; where
it exists, the two parts make up the text and the first has the length that was asked for.
-/

namespace Unreferenced.Text

/-- The number of bytes that the characters have in UTF-8. -/
def byteCount : List Char → Nat
  | [] => 0
  | c :: cs => c.utf8Size + byteCount cs

/-- What follows the first `n` bytes of the characters, when those are whole characters. -/
def dropBytes? : Nat → List Char → Option (List Char)
  | 0, cs => some cs
  | _ + 1, [] => none
  | n + 1, c :: cs => if c.utf8Size ≤ n + 1 then dropBytes? (n + 1 - c.utf8Size) cs else none

/-- The first `n` bytes of the characters, when those are whole characters. -/
def takeBytes? : Nat → List Char → Option (List Char)
  | 0, _ => some []
  | _ + 1, [] => none
  | n + 1, c :: cs =>
    if c.utf8Size ≤ n + 1 then (takeBytes? (n + 1 - c.utf8Size) cs).map (c :: ·) else none

@[simp]
theorem byteCount_append (cs ds : List Char) :
    byteCount (cs ++ ds) = byteCount cs + byteCount ds := by
  induction cs with
  | nil => simp [byteCount]
  | cons c cs ih => simp [byteCount, ih, Nat.add_assoc]

@[simp]
theorem byteCount_eq_zero {cs : List Char} : byteCount cs = 0 ↔ cs = [] := by
  cases cs with
  | nil => simp [byteCount]
  | cons c cs => simp [byteCount, Nat.ne_of_gt c.utf8Size_pos]

theorem utf8ByteSize_ofList (cs : List Char) : (String.ofList cs).utf8ByteSize = byteCount cs := by
  induction cs with
  | nil => rfl
  | cons c cs ih =>
    rw [String.ofList_cons, String.utf8ByteSize_append, String.utf8ByteSize_singleton, ih,
      byteCount]

theorem byteCount_toList (text : String) : byteCount text.toList = text.utf8ByteSize := by
  rw [← utf8ByteSize_ofList, String.ofList_toList]

theorem takeBytes?_eq_some_iff {n : Nat} {cs front : List Char} :
    takeBytes? n cs = some front ↔ byteCount front = n ∧ front <+: cs := by
  fun_induction takeBytes? n cs generalizing front with
  | case1 cs =>
    simp only [Option.some.injEq, byteCount_eq_zero, eq_comm (a := [])]
    exact ⟨fun h => ⟨h, h ▸ List.nil_prefix⟩, fun h => h.1⟩
  | case2 n =>
    simp only [List.prefix_nil, reduceCtorEq, false_iff, not_and]
    rintro h rfl
    cases h
  | case3 n c cs h ih =>
    have := c.utf8Size_pos
    cases front with
    | nil => simp [byteCount]
    | cons d front =>
      simp only [Option.map_eq_some_iff, List.cons.injEq, ih, List.cons_prefix_cons, byteCount]
      grind
  | case4 n c cs h =>
    cases front with
    | nil => simp [byteCount]
    | cons d front => simp only [byteCount, List.cons_prefix_cons]; grind

theorem dropBytes?_eq_some_iff {n : Nat} {cs rest : List Char} :
    dropBytes? n cs = some rest ↔ ∃ front, byteCount front = n ∧ cs = front ++ rest := by
  fun_induction dropBytes? n cs with
  | case1 cs => simp
  | case2 n =>
    simp only [reduceCtorEq, false_iff, not_exists, not_and]
    rintro front hn hcs
    obtain ⟨rfl, rfl⟩ := List.append_eq_nil_iff.1 hcs.symm
    cases hn
  | case3 n c cs h ih =>
    rw [ih]
    clear ih
    constructor
    · rintro ⟨front, hn, rfl⟩
      refine ⟨c :: front, ?_, rfl⟩
      simp only [byteCount]
      omega
    · rintro ⟨front, hn, hcs⟩
      cases front with
      | nil => simp [byteCount] at hn
      | cons d front =>
        obtain ⟨rfl, rfl⟩ := List.cons.inj hcs
        simp only [byteCount] at hn
        exact ⟨front, by omega, rfl⟩
  | case4 n c cs h =>
    simp only [reduceCtorEq, false_iff, not_exists, not_and]
    rintro (_ | ⟨d, front⟩) hn hcs
    · simp [byteCount] at hn
    · obtain ⟨rfl, rfl⟩ := List.cons.inj hcs
      simp only [byteCount] at hn
      omega

/-- Two beginnings of a text with as many bytes are one and the same. -/
theorem eq_of_prefix_of_byteCount {cs ds es : List Char} (h : cs <+: es) (h' : ds <+: es)
    (hcount : byteCount cs = byteCount ds) : cs = ds := by
  have hcs := takeBytes?_eq_some_iff.2 ⟨hcount, h⟩
  have hds := takeBytes?_eq_some_iff.2 ⟨rfl, h'⟩
  exact Option.some.inj (hcs.symm.trans hds)

/-- Two ends of a text with as many bytes are one and the same. -/
theorem eq_of_suffix_of_byteCount {cs ds es : List Char} (h : cs <:+ es) (h' : ds <:+ es)
    (hcount : byteCount cs = byteCount ds) : cs = ds := by
  obtain ⟨front, rfl⟩ := h
  obtain ⟨front', hsplit⟩ := h'
  have hfronts : front = front' := by
    refine eq_of_prefix_of_byteCount (List.prefix_append front cs) ⟨ds, hsplit⟩ ?_
    have hbytes := congrArg byteCount hsplit
    rw [byteCount_append, byteCount_append] at hbytes
    omega
  rw [hfronts] at hsplit
  exact (List.append_cancel_left hsplit).symm

/-- A part of a text with as many bytes as the text is all of it. -/
theorem eq_of_infix_of_byteCount {cs es : List Char} (h : cs <:+: es)
    (hcount : byteCount cs = byteCount es) : cs = es := by
  obtain ⟨front, rest, rfl⟩ := h
  rw [byteCount_append, byteCount_append] at hcount
  have hfront : front = [] := byteCount_eq_zero.1 (by omega)
  have hrest : rest = [] := byteCount_eq_zero.1 (by omega)
  rw [hfront, hrest, List.nil_append, List.append_nil]

end Unreferenced.Text
