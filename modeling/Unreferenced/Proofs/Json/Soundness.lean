import Unreferenced.Proofs.Json.Reading

/-!
# Readers read nothing else

The converse of what the readers of `Json.parse?` take: a text that is read is a text of
the grammar, and writes the value it is read as. Each reader splits its text into the part
that it has read and the rest, and each is told apart from the others by the first
characters of its part; the proofs follow the readers case by case. With the other
direction, `Json.parse?` takes exactly the texts of the grammar
(`Unreferenced.Json.parse?_eq_some_iff`), and a text writes one value at most
(`Unreferenced.Json.WritesPadded.unique`).
-/

namespace Unreferenced.Json

/-! ### Strings -/

theorem exists_of_readUnit? {cs rest : List Char} {n : Nat} (h : readUnit? cs = some (n, rest)) :
    ∃ digits, cs = digits ++ rest ∧ digits.length = 4 ∧ Text.hexNumber? digits = some n := by
  unfold readUnit? at h
  split at h
  · next a b c d after =>
    simp only [Option.map_eq_some_iff, Prod.mk.injEq] at h
    obtain ⟨m, hvalue, rfl, rfl⟩ := h
    exact ⟨[a, b, c, d], rfl, rfl, hvalue⟩
  · cases h

theorem exists_of_readSecondHalf? {high cs rest : List Char} {first : Nat} {c : Char}
    (hhigh : high.length = 4) (hvalue : Text.hexNumber? high = some first)
    (hfirst : 0xd800 ≤ first ∧ first < 0xdc00) (h : readSecondHalf? first cs = some (c, rest)) :
    ∃ low, cs = low ++ rest ∧ WritesChar ('\\' :: 'u' :: high ++ low) c := by
  simp only [readSecondHalf?, Option.bind_eq_bind, Option.bind_eq_some_iff, Prod.exists] at h
  obtain ⟨behind, hbehind, second, after, hunit, h⟩ := h
  obtain rfl := Text.behind?_eq_some_iff.1 hbehind
  obtain ⟨digits, rfl, hlow, hvalue'⟩ := exists_of_readUnit? hunit
  split at h
  · next hsecond =>
    rw [Bool.and_eq_true, decide_eq_true_eq, decide_eq_true_eq] at hsecond
    simp only [Option.bind_eq_some_iff, Option.some.injEq, Prod.mk.injEq] at h
    obtain ⟨d, hcode, rfl, rfl⟩ := h
    -- the two halves are what the number of the character leaves by division
    have hnumber := Text.toNat_of_charOfCode? hcode
    refine ⟨'\\' :: 'u' :: digits, rfl, .pair hhigh hlow (by omega) ?_ ?_⟩
    · rw [hvalue]
      exact congrArg some (by omega)
    · rw [hvalue']
      exact congrArg some (by omega)
  · cases h

/-- What is read behind a backslash and `u` is the number of a character, or a pair. -/
theorem exists_of_readNumberedEscape? {cs rest : List Char} {c : Char}
    (h : readNumberedEscape? cs = some (c, rest)) :
    ∃ escape, cs = escape ++ rest ∧ WritesChar ('\\' :: 'u' :: escape) c := by
  simp only [readNumberedEscape?, Option.bind_eq_bind, Option.bind_eq_some_iff, Prod.exists] at h
  obtain ⟨unit, after, hunit, h⟩ := h
  obtain ⟨digits, rfl, hlength, hvalue⟩ := exists_of_readUnit? hunit
  split at h
  · next hfirst =>
    rw [Bool.and_eq_true, decide_eq_true_eq, decide_eq_true_eq] at hfirst
    obtain ⟨low, rfl, hwrites⟩ := exists_of_readSecondHalf? hlength hvalue hfirst h
    exact ⟨digits ++ low, (List.append_assoc ..).symm, hwrites⟩
  · simp only [Option.map_eq_some_iff, Prod.mk.injEq] at h
    obtain ⟨d, hcode, rfl, rfl⟩ := h
    refine ⟨digits, rfl, .unit hlength ?_⟩
    rw [hvalue, Text.toNat_of_charOfCode? hcode]

theorem exists_of_readEscape? {cs rest : List Char} {c : Char}
    (h : readEscape? cs = some (c, rest)) :
    ∃ escape, cs = escape ++ rest ∧ WritesChar ('\\' :: escape) c := by
  have hletter : ∀ {letter d after}, (letter, d) ∈ letters →
      some (d, after) = some (c, rest) →
        ∃ escape, letter :: after = escape ++ rest ∧ WritesChar ('\\' :: escape) c := by
    intro letter d after hmem heq
    rw [Option.some.injEq, Prod.mk.injEq] at heq
    obtain ⟨rfl, rfl⟩ := heq
    exact ⟨[letter], rfl, .letter hmem⟩
  unfold readEscape? at h
  split at h
  · exact hletter (by decide) h
  · exact hletter (by decide) h
  · exact hletter (by decide) h
  · exact hletter (by decide) h
  · exact hletter (by decide) h
  · exact hletter (by decide) h
  · exact hletter (by decide) h
  · exact hletter (by decide) h
  · obtain ⟨escape, rfl, hwrites⟩ := exists_of_readNumberedEscape? h
    exact ⟨'u' :: escape, rfl, hwrites⟩
  · cases h

/-- **The characters that are read are the ones that the text writes.** -/
theorem exists_of_readChars? {steps : Nat} {cs chars rest : List Char}
    (h : readChars? steps cs = some (chars, rest)) :
    ∃ text, cs = text ++ '\x22' :: rest ∧ WritesChars text chars := by
  induction steps generalizing cs chars rest with
  | zero => cases h
  | succ steps ih =>
    cases cs with
    | nil => cases h
    | cons c after =>
      rw [readChars?] at h
      split at h
      · next hquote =>
        rw [Option.some.injEq, Prod.mk.injEq] at h
        obtain ⟨rfl, rfl⟩ := h
        exact ⟨[], by rw [hquote]; rfl, .nil⟩
      split at h
      · next hbackslash =>
        simp only [Option.bind_eq_bind, Option.bind_eq_some_iff, Prod.exists, Option.some.injEq,
          Prod.mk.injEq] at h
        obtain ⟨d, behind, hescape, ds, _, hmore, rfl, rfl⟩ := h
        obtain ⟨escape, rfl, hwrites⟩ := exists_of_readEscape? hescape
        obtain ⟨text, rfl, hchars⟩ := ih hmore
        refine ⟨('\\' :: escape) ++ text, ?_, .cons hwrites hchars⟩
        rw [hbackslash, List.cons_append, List.cons_append, List.append_assoc]
      split at h
      · cases h
      · next hquote hbackslash hcontrol =>
        simp only [Option.bind_eq_bind, Option.bind_eq_some_iff, Prod.exists, Option.some.injEq,
          Prod.mk.injEq] at h
        obtain ⟨ds, _, hmore, rfl, rfl⟩ := h
        obtain ⟨text, rfl, hchars⟩ := ih hmore
        exact ⟨[c] ++ text, rfl,
          .cons (.plain hquote hbackslash (Nat.le_of_not_lt hcontrol)) hchars⟩

/-- **The string that is read is the one that the text writes.** -/
theorem exists_of_readString? {cs rest : List Char} {value : String}
    (h : readString? cs = some (value, rest)) :
    ∃ text, cs = '\x22' :: (text ++ '\x22' :: rest) ∧ WritesChars text value.toList := by
  simp only [readString?, Option.bind_eq_bind, Option.bind_eq_some_iff, Prod.exists,
    Option.some.injEq, Prod.mk.injEq] at h
  obtain ⟨behind, hbehind, chars, _, hchars, rfl, rfl⟩ := h
  obtain rfl := Text.behind?_eq_some_iff.1 hbehind
  obtain ⟨text, rfl, hwrites⟩ := exists_of_readChars? hchars
  refine ⟨text, rfl, ?_⟩
  rwa [String.toList_ofList]

/-! ### Numbers -/

theorem exists_of_readDigits? {cs digits rest : List Char}
    (h : readDigits? cs = some (digits, rest)) : cs = digits ++ rest ∧ AreDigits digits := by
  unfold readDigits? at h
  dsimp only at h
  split at h
  · cases h
  · next hempty =>
    rw [Option.some.injEq, Prod.mk.injEq] at h
    obtain ⟨rfl, rfl⟩ := h
    refine ⟨(List.takeWhile_append_dropWhile ..).symm, fun hnil => ?_, fun c hc => ?_⟩
    · rw [hnil] at hempty
      exact hempty rfl
    · exact List.all_eq_true.1 List.all_takeWhile c hc

theorem exists_of_readWhole? {cs digits rest : List Char}
    (h : readWhole? cs = some (digits, rest)) : cs = digits ++ rest ∧ AreWhole digits := by
  simp only [readWhole?, Option.bind_eq_bind, Option.bind_eq_some_iff, Prod.exists] at h
  obtain ⟨ds, after, hdigits, h⟩ := h
  split at h
  · cases h
  · next hzero =>
    rw [Option.some.injEq, Prod.mk.injEq] at h
    obtain ⟨rfl, rfl⟩ := h
    obtain ⟨rfl, hds⟩ := exists_of_readDigits? hdigits
    refine ⟨rfl, hds, ?_⟩
    simpa using hzero

theorem exists_of_readFraction? {cs digits rest : List Char}
    (h : readFraction? cs = some (digits, rest)) :
    ∃ text, cs = text ++ rest ∧ WritesFraction text digits := by
  unfold readFraction? at h
  split at h
  · obtain ⟨rfl, hdigits⟩ := exists_of_readDigits? h
    exact ⟨'.' :: digits, rfl, .point hdigits⟩
  · rw [Option.some.injEq, Prod.mk.injEq] at h
    obtain ⟨rfl, rfl⟩ := h
    exact ⟨[], rfl, .none⟩

theorem exists_of_behindSign (cs : List Char) :
    ∃ sign, cs = sign ++ (behindSign cs).2 ∧ WritesSign sign (behindSign cs).1 := by
  unfold behindSign
  split
  · exact ⟨['-'], rfl, .minus⟩
  · exact ⟨[], rfl, .none⟩

theorem exists_of_behindExponentSign (cs : List Char) :
    ∃ sign, cs = sign ++ (behindExponentSign cs).2 ∧
      WritesExponentSign sign (behindExponentSign cs).1 := by
  unfold behindExponentSign
  split
  · exact ⟨['-'], rfl, .sign .minus⟩
  · exact ⟨['+'], rfl, .plus⟩
  · exact ⟨[], rfl, .sign .none⟩

theorem exists_of_readExponent? {cs rest : List Char} {power : Int}
    (h : readExponent? cs = some (power, rest)) :
    ∃ text, cs = text ++ rest ∧ WritesExponent text power := by
  cases cs with
  | nil =>
    cases h
    exact ⟨[], rfl, .none⟩
  | cons c after =>
    rw [readExponent?_cons] at h
    split at h
    · next hletter =>
      simp only [Option.map_eq_some_iff, Prod.exists, Prod.mk.injEq] at h
      obtain ⟨digits, _, hdigits, rfl, rfl⟩ := h
      obtain ⟨sign, hsign, hwrites⟩ := exists_of_behindExponentSign after
      obtain ⟨hbehind, hds⟩ := exists_of_readDigits? hdigits
      refine ⟨c :: sign ++ digits, ?_, .letter hletter hwrites hds⟩
      rw [hsign, hbehind, List.cons_append, List.cons_append, List.append_assoc]
    · cases h
      exact ⟨[], rfl, .none⟩

/-- **The number that is read is the one that the text writes.** -/
theorem exists_of_readNumber? {cs rest : List Char} {value : Json}
    (h : readNumber? cs = some (value, rest)) : ∃ text, cs = text ++ rest ∧ Writes text value := by
  simp only [readNumber?_eq, Option.bind_eq_some_iff, Prod.exists, Option.some.injEq,
    Prod.mk.injEq] at h
  obtain ⟨whole, afterWhole, hwhole, digits, afterFraction, hfraction, power, _, hexponent, rfl,
    rfl⟩ := h
  obtain ⟨sign, hsign, hwritesSign⟩ := exists_of_behindSign cs
  obtain ⟨hcs, hwritesWhole⟩ := exists_of_readWhole? hwhole
  obtain ⟨fraction, rfl, hwritesFraction⟩ := exists_of_readFraction? hfraction
  obtain ⟨exponent, rfl, hwritesExponent⟩ := exists_of_readExponent? hexponent
  refine ⟨_, ?_, .number (.mk hwritesSign hwritesWhole hwritesFraction hwritesExponent)⟩
  rw [List.append_assoc, List.append_assoc, List.append_assoc, ← hcs, ← hsign]

/-! ### Values -/

theorem exists_of_skipSpace (cs : List Char) :
    ∃ before, cs = before ++ skipSpace cs ∧ AreSpaces before :=
  ⟨cs.takeWhile isSpace, List.takeWhile_append_dropWhile.symm,
    List.all_eq_true.1 List.all_takeWhile⟩

/-- A literal that is read is there. -/
theorem exists_of_literal {c : Char} {expected cs rest : List Char} {value literal : Json}
    (h : (Text.behind? expected cs).map (literal, ·) = some (value, rest))
    (hwrites : Writes (c :: expected) literal) :
    ∃ text, c :: cs = text ++ rest ∧ Writes text value := by
  simp only [Option.map_eq_some_iff, Prod.mk.injEq] at h
  obtain ⟨_, hbehind, rfl, rfl⟩ := h
  obtain rfl := Text.behind?_eq_some_iff.1 hbehind
  exact ⟨c :: expected, rfl, hwrites⟩

mutual

/-- **The value that is read is the one that the text writes.** -/
theorem exists_of_readValue? : ∀ {steps : Nat} {cs rest : List Char} {value : Json},
    readValue? steps cs = some (value, rest) →
      ∃ before text, cs = before ++ (text ++ rest) ∧ AreSpaces before ∧ Writes text value
  | 0, _, _, _, h => by cases h
  | steps + 1, cs, rest, value, h => by
    obtain ⟨before, hcs, hbefore⟩ := exists_of_skipSpace cs
    have htext : ∃ text, skipSpace cs = text ++ rest ∧ Writes text value := by
      rw [readValue?] at h
      -- a quote, a bracket, a brace, the letters of the three literals, and numbers
      split at h
      · next after hskip =>
        simp only [Option.map_eq_some_iff, Prod.exists, Prod.mk.injEq] at h
        obtain ⟨text, _, hread, rfl, rfl⟩ := h
        obtain ⟨written, hafter, hwrites⟩ := exists_of_readString? hread
        refine ⟨_, ?_, .string hwrites⟩
        rw [hskip, hafter]
        simp
      · next after hskip =>
        obtain ⟨spaces, hafter, hspaces⟩ := exists_of_skipSpace after
        split at h
        · next behind hclose =>
          cases h
          refine ⟨_, ?_, .emptyArray hspaces⟩
          rw [hskip, hafter, hclose]
          simp
        · simp only [Option.map_eq_some_iff, Prod.exists, Prod.mk.injEq] at h
          obtain ⟨items, _, hread, rfl, rfl⟩ := h
          obtain ⟨text, rfl, hwrites⟩ := exists_of_readItems? hread
          refine ⟨_, ?_, .array hwrites⟩
          rw [hskip]
          simp
      · next after hskip =>
        obtain ⟨spaces, hafter, hspaces⟩ := exists_of_skipSpace after
        split at h
        · next behind hclose =>
          cases h
          refine ⟨_, ?_, .emptyObject hspaces⟩
          rw [hskip, hafter, hclose]
          simp
        · simp only [Option.map_eq_some_iff, Prod.exists, Prod.mk.injEq] at h
          obtain ⟨members, _, hread, rfl, rfl⟩ := h
          obtain ⟨text, rfl, hwrites⟩ := exists_of_readMembers? hread
          refine ⟨_, ?_, .object hwrites⟩
          rw [hskip]
          simp
      · next after hskip => exact hskip ▸ exists_of_literal h .null
      · next after hskip => exact hskip ▸ exists_of_literal h .truth
      · next after hskip => exact hskip ▸ exists_of_literal h .falsehood
      · exact exists_of_readNumber? h
    obtain ⟨text, hskip, hwrites⟩ := htext
    exact ⟨before, text, hskip ▸ hcs, hbefore, hwrites⟩

/-- The items that are read are the ones that the text writes. -/
theorem exists_of_readItems? : ∀ {steps : Nat} {cs rest : List Char} {items : List Json},
    readItems? steps cs = some (items, rest) →
      ∃ text, cs = text ++ ']' :: rest ∧ WritesItems text items
  | 0, _, _, _, h => by cases h
  | steps + 1, cs, rest, items, h => by
    simp only [readItems?, Option.bind_eq_bind, Option.bind_eq_some_iff, Prod.exists] at h
    obtain ⟨item, behind, hread, h⟩ := h
    obtain ⟨before, text, rfl, hbefore, hwrites⟩ := exists_of_readValue? hread
    obtain ⟨after, hbehind, hafter⟩ := exists_of_skipSpace behind
    have hpadded := WritesPadded.mk hbefore hwrites hafter
    split at h
    · next more hcomma =>
      simp only [Option.bind_eq_some_iff, Prod.exists, Option.some.injEq, Prod.mk.injEq] at h
      obtain ⟨others, _, hmore, rfl, rfl⟩ := h
      obtain ⟨rest', rfl, hothers⟩ := exists_of_readItems? hmore
      refine ⟨_, ?_, .more hpadded hothers⟩
      rw [hbehind, hcomma]
      simp
    · next more hclose =>
      cases h
      refine ⟨_, ?_, .last hpadded⟩
      rw [hbehind, hclose]
      simp
    · cases h

/-- The members that are read are the ones that the text writes. -/
theorem exists_of_readMembers? : ∀ {steps : Nat} {cs rest : List Char}
    {members : List (String × Json)}, readMembers? steps cs = some (members, rest) →
      ∃ text, cs = text ++ '}' :: rest ∧ WritesMembers text members
  | 0, _, _, _, h => by cases h
  | steps + 1, cs, rest, members, h => by
    simp only [readMembers?, Option.bind_eq_bind, Option.bind_eq_some_iff, Prod.exists] at h
    obtain ⟨key, afterKey, hkey, afterColon, hcolon, value, behind, hread, h⟩ := h
    obtain ⟨before, hcs, hbefore⟩ := exists_of_skipSpace cs
    obtain ⟨keyText, hquote, hwritesKey⟩ := exists_of_readString? hkey
    obtain ⟨between, hafterKey, hbetween⟩ := exists_of_skipSpace afterKey
    obtain ⟨before', text, rfl, hbefore', hwrites⟩ := exists_of_readValue? hread
    obtain ⟨after, hbehind, hafter⟩ := exists_of_skipSpace behind
    have hmember := WritesMember.mk hbefore hwritesKey hbetween (.mk hbefore' hwrites hafter)
    rw [Text.behind?_eq_some_iff.1 hcolon] at hafterKey
    rw [hquote, hafterKey] at hcs
    split at h
    · next more hcomma =>
      simp only [Option.bind_eq_some_iff, Prod.exists, Option.some.injEq, Prod.mk.injEq] at h
      obtain ⟨others, _, hmore, rfl, rfl⟩ := h
      obtain ⟨rest', rfl, hothers⟩ := exists_of_readMembers? hmore
      refine ⟨_, ?_, .more hmember hothers⟩
      rw [hcs, hbehind, hcomma]
      simp
    · next more hclose =>
      cases h
      refine ⟨_, ?_, .last hmember⟩
      rw [hcs, hbehind, hclose]
      simp
    · cases h

end

/-! ### Texts -/

/-- **A text is read exactly when the grammar admits it**, and as the value that it
writes. -/
theorem parse?_eq_some_iff {text : String} {value : Json} :
    parse? text = some value ↔ WritesPadded text.toList value := by
  refine ⟨fun h => ?_, parse?_of_writesPadded⟩
  simp only [parse?, Option.bind_eq_bind, Option.bind_eq_some_iff, Prod.exists] at h
  obtain ⟨read, rest, hread, h⟩ := h
  split at h
  · next hempty =>
    cases h
    obtain ⟨before, written, htext, hbefore, hwrites⟩ := exists_of_readValue? hread
    obtain ⟨after, hrest, hafter⟩ := exists_of_skipSpace rest
    rw [List.isEmpty_iff.1 hempty, List.append_nil] at hrest
    rw [htext, hrest]
    exact .mk hbefore hwrites hafter
  · cases h

/-- **No text writes two values.** -/
theorem WritesPadded.unique {text : List Char} {value value' : Json}
    (h : WritesPadded text value) (h' : WritesPadded text value') : value = value' := by
  rw [← String.toList_ofList (l := text), ← parse?_eq_some_iff] at h h'
  exact Option.some.inj (h.symm.trans h')

end Unreferenced.Json
