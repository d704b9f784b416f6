import Unreferenced.Proofs.Json.Reading

/-!
# Written values are read back

The texts that this library writes are texts of the grammar: every character of a string is
escaped in a way that the grammar knows, the decimal digits of a number do not begin with a
zero unless they are one, and line breaks and indentation are white space. So a reader that
follows the grammar gives back every value as it was, whatever is in its strings and however
deep it is: from several lines (`Unreferenced.Json.parse?_pretty`) and from one
(`Unreferenced.Json.parse?_compact`). The one line really is one
(`Unreferenced.Json.not_mem_compact`), since a line break in a string is written as an
escape.
-/

namespace Unreferenced.Json

/-! ### Strings and numbers -/

/-- The last two digits of an escape by number are those of a control character. -/
theorem hexNumber?_control {n : Nat} (h : n < 0x20) :
    Text.hexNumber? ['0', '0', Nat.digitChar (n / 16), Nat.digitChar (n % 16)] = some n := by
  have hzero : Text.hexValue? '0' = some 0 := by decide
  have hhigh := Text.hexValue?_digitChar (show n / 16 < 16 by omega)
  have hlow := Text.hexValue?_digitChar (show n % 16 < 16 by omega)
  simp only [Text.hexNumber?, List.foldlM_cons, List.foldlM_nil, hzero, hhigh, hlow,
    Option.map_some, Option.bind_eq_bind, Option.bind_some]
  exact congrArg some (by omega)

/-- **Every character is written as the grammar admits.** -/
theorem writesChar_escapeChar (c : Char) : WritesChar (escapeChar c) c := by
  unfold escapeChar
  split
  · next h =>
    rw [Bool.or_eq_true, decide_eq_true_eq, decide_eq_true_eq] at h
    rcases h with rfl | rfl <;> exact .letter (by decide)
  split
  · next h => exact h ▸ .letter (by decide)
  split
  · next h => exact h ▸ .letter (by decide)
  split
  · next h => exact h ▸ .letter (by decide)
  split
  · next h => exact h ▸ .letter (by decide)
  split
  · next h => exact h ▸ .letter (by decide)
  split
  · next h => exact .unit rfl (hexNumber?_control h)
  · next hquote _ _ _ _ _ hcontrol =>
    rw [Bool.or_eq_true, decide_eq_true_eq, decide_eq_true_eq, not_or] at hquote
    exact .plain hquote.1 hquote.2 (Nat.le_of_not_lt hcontrol)

theorem writesChars_flatMap_escapeChar (cs : List Char) :
    WritesChars (cs.flatMap escapeChar) cs := by
  induction cs with
  | nil => exact .nil
  | cons c cs ih => exact .cons (writesChar_escapeChar c) ih

theorem writes_writeString (value : String) : Writes (writeString value) (.string value) := by
  rw [writeString, List.cons_append]
  exact .string (writesChars_flatMap_escapeChar _)

theorem areDigits_toDigits (n : Nat) : AreDigits (Nat.toDigits 10 n) where
  ne_nil := Nat.toDigits_ne_nil
  isDigit _ hc := Nat.isDigit_of_mem_toDigits (by decide) (by decide) hc

/-- The decimal digits of a number begin with a zero only when the number is zero. -/
theorem head?_toDigits {n : Nat} (h : n ≠ 0) : (Nat.toDigits 10 n).head? ≠ some '0' := by
  induction n using Nat.strongRecOn with
  | ind n ih =>
    by_cases hlt : n < 10
    · have hdigit : ∀ m : Fin 10, m.val ≠ 0 → Nat.digitChar m.val ≠ '0' := by decide
      rw [Nat.toDigits_of_lt_base hlt, List.head?_cons, Ne, Option.some.injEq]
      exact hdigit ⟨n, hlt⟩ h
    · obtain ⟨d, more, hdigits⟩ := List.exists_cons_of_ne_nil (Nat.toDigits_ne_nil (n := n / 10))
      have hhead := ih (n / 10) (by omega) (by omega)
      rw [hdigits] at hhead
      rw [Nat.toDigits_eq_if (by decide), if_neg hlt, hdigits]
      exact hhead

theorem areWhole_toDigits (n : Nat) : AreWhole (Nat.toDigits 10 n) where
  toAreDigits := areDigits_toDigits n
  zero hhead := by
    have hn : n = 0 := Decidable.byContradiction fun hn => head?_toDigits hn hhead
    rw [hn]
    rfl

/-- The sign of a written integer. -/
theorem writesSign_int (value : Int) :
    WritesSign (if value < 0 then ['-'] else []) (decide (value < 0)) := by
  by_cases h : value < 0
  · rw [if_pos h, decide_eq_true h]
    exact .minus
  · rw [if_neg h, decide_eq_false h]
    exact .none

/-- The digits of an integer, with its sign, are the integer. -/
theorem signed_toDigits (value : Int) :
    signed (decide (value < 0)) (Nat.toDigits 10 value.natAbs) = value := by
  rw [signed, Nat.ofDigitChars_toDigits (by decide) (by decide)]
  by_cases h : value < 0
  · rw [if_pos (decide_eq_true h)]
    omega
  · rw [if_neg (by simpa using h)]
    omega

theorem writesNumber_writeNumber (mantissa exponent : Int) :
    WritesNumber (writeNumber mantissa exponent) mantissa exponent := by
  have hexponent : WritesExponent (if exponent = 0 then [] else 'e' :: writeInt exponent)
      exponent := by
    split
    · next h => exact h ▸ .none
    · have h := WritesExponent.letter (.inl rfl) (.sign (writesSign_int exponent))
        (areDigits_toDigits exponent.natAbs)
      rwa [signed_toDigits] at h
  have h := WritesNumber.mk (writesSign_int mantissa) (areWhole_toDigits mantissa.natAbs) .none
    hexponent
  rw [List.append_nil, signed_toDigits, List.nil_append] at h
  rw [writeNumber, writeInt, List.append_assoc]
  simpa using h

/-! ### Over several lines -/

/-- A value is its own text with white space of no length around it. -/
theorem writesPadded_of_writes {text : List Char} {value : Json} (h : Writes text value) :
    WritesPadded text value := by
  have hpadded := WritesPadded.mk areSpaces_nil h areSpaces_nil
  rwa [List.nil_append, List.append_nil] at hpadded

theorem areSpaces_newline (level : Nat) : AreSpaces (newline level) := by
  intro c hc
  rcases List.mem_cons.1 hc with rfl | hc
  · rfl
  · rw [List.eq_of_mem_replicate hc]
    rfl

/-- The line of a member: its key, a colon with a space, and its value. -/
theorem writesMember_line (level : Nat) (key : String) {text after : List Char} {value : Json}
    (h : Writes text value) (hafter : AreSpaces after) :
    WritesMember ((newline level ++ writeString key ++ ':' :: ' ' :: text) ++ after)
      (key, value) := by
  have hspace : AreSpaces [' '] := by simp [AreSpaces, isSpace]
  have hmember := WritesMember.mk (areSpaces_newline level)
    (writesChars_flatMap_escapeChar key.toList) areSpaces_nil (.mk hspace h hafter)
  simpa [writeString] using hmember

mutual

/-- **A value over several lines is a text of that value**, at every level. -/
theorem writes_pretty : ∀ (level : Nat) (value : Json), Writes (pretty level value) value
  | level, .null => by
    rw [pretty]
    exact .null
  | level, .bool true => by
    rw [pretty]
    exact .truth
  | level, .bool false => by
    rw [pretty]
    exact .falsehood
  | level, .number mantissa exponent => by
    rw [pretty]
    exact .number (writesNumber_writeNumber mantissa exponent)
  | level, .string value => by
    rw [pretty]
    exact writes_writeString value
  | level, .array [] => by
    rw [pretty]
    exact .emptyArray areSpaces_nil
  | level, .array (item :: more) => by
    rw [pretty, List.cons_append, List.cons_append]
    exact .array (writesItems_prettyItems (level + 1) (item :: more) (List.cons_ne_nil _ _)
      (areSpaces_newline level))
  | level, .object [] => by
    rw [pretty]
    exact .emptyObject areSpaces_nil
  | level, .object (member :: more) => by
    rw [pretty, List.cons_append, List.cons_append]
    exact .object (writesMembers_prettyMembers (level + 1) (member :: more)
      (List.cons_ne_nil _ _) (areSpaces_newline level))

/-- The lines of the items of an array, with white space behind the last one. -/
theorem writesItems_prettyItems : ∀ (level : Nat) (items : List Json), items ≠ [] →
    ∀ {after : List Char}, AreSpaces after →
      WritesItems (prettyItems level items ++ after) items
  | level, [item], _, after, hafter => by
    rw [prettyItems, List.append_assoc]
    exact .last (.mk (areSpaces_newline level) (writes_pretty level item) hafter)
  | level, item :: next :: more, _, after, hafter => by
    have hitem := WritesPadded.mk (areSpaces_newline level) (writes_pretty level item)
      areSpaces_nil
    rw [List.append_nil] at hitem
    rw [prettyItems, List.append_assoc, List.cons_append]
    · exact .more hitem
        (writesItems_prettyItems level (next :: more) (List.cons_ne_nil _ _) hafter)
    · exact List.cons_ne_nil next more

/-- The lines of the members of an object, with white space behind the last one. -/
theorem writesMembers_prettyMembers : ∀ (level : Nat) (members : List (String × Json)),
    members ≠ [] → ∀ {after : List Char}, AreSpaces after →
      WritesMembers (prettyMembers level members ++ after) members
  | level, [(key, value)], _, after, hafter => by
    have hmember := writesMember_line level key (writes_pretty level value) hafter
    rw [prettyMembers]
    exact .last hmember
  | level, (key, value) :: next :: more, _, after, hafter => by
    have hmember := writesMember_line level key (writes_pretty level value) areSpaces_nil
    rw [List.append_nil] at hmember
    rw [prettyMembers, List.append_assoc, List.cons_append]
    · exact .more hmember
        (writesMembers_prettyMembers level (next :: more) (List.cons_ne_nil _ _) hafter)
    · exact List.cons_ne_nil next more

end

/-- **What is written over several lines is read back.** -/
theorem parse?_pretty (value : Json) : parse? (String.ofList (value.pretty 0)) = some value := by
  refine parse?_of_writesPadded ?_
  rw [String.toList_ofList]
  exact writesPadded_of_writes (writes_pretty 0 value)

/-! ### On one line -/

/-- A member on one line: its key, a colon and its value. -/
theorem writesMember_compact (key : String) {text : List Char} {value : Json}
    (h : Writes text value) : WritesMember (writeString key ++ ':' :: text) (key, value) := by
  have hmember := WritesMember.mk areSpaces_nil (writesChars_flatMap_escapeChar key.toList)
    areSpaces_nil (.mk areSpaces_nil h areSpaces_nil)
  simpa [writeString] using hmember

mutual

/-- **A value on one line is a text of that value.** -/
theorem writes_compact : ∀ value : Json, Writes (compact value) value
  | .null => by
    rw [compact]
    exact .null
  | .bool true => by
    rw [compact]
    exact .truth
  | .bool false => by
    rw [compact]
    exact .falsehood
  | .number mantissa exponent => by
    rw [compact]
    exact .number (writesNumber_writeNumber mantissa exponent)
  | .string value => by
    rw [compact]
    exact writes_writeString value
  | .array [] => by
    rw [compact, compactItems]
    exact .emptyArray areSpaces_nil
  | .array (item :: more) => by
    rw [compact]
    exact .array (writesItems_compactItems (item :: more) (List.cons_ne_nil _ _))
  | .object [] => by
    rw [compact, compactMembers]
    exact .emptyObject areSpaces_nil
  | .object (member :: more) => by
    rw [compact]
    exact .object (writesMembers_compactMembers (member :: more) (List.cons_ne_nil _ _))

/-- The items of an array on one line. -/
theorem writesItems_compactItems : ∀ items : List Json, items ≠ [] →
    WritesItems (compactItems items) items
  | [item], _ => by
    rw [compactItems]
    exact .last (writesPadded_of_writes (writes_compact item))
  | item :: next :: more, _ => by
    rw [compactItems]
    · exact .more (writesPadded_of_writes (writes_compact item))
        (writesItems_compactItems (next :: more) (List.cons_ne_nil _ _))
    · exact List.cons_ne_nil next more

/-- The members of an object on one line. -/
theorem writesMembers_compactMembers : ∀ members : List (String × Json), members ≠ [] →
    WritesMembers (compactMembers members) members
  | [(key, value)], _ => by
    rw [compactMembers]
    exact .last (writesMember_compact key (writes_compact value))
  | (key, value) :: next :: more, _ => by
    rw [compactMembers]
    · exact .more (writesMember_compact key (writes_compact value))
        (writesMembers_compactMembers (next :: more) (List.cons_ne_nil _ _))
    · exact List.cons_ne_nil next more

end

/-- **What is written on one line is read back.** -/
theorem parse?_compact (value : Json) : parse? (String.ofList value.compact) = some value := by
  refine parse?_of_writesPadded ?_
  rw [String.toList_ofList]
  exact writesPadded_of_writes (writes_compact value)

/-! ### No line break on one line -/

theorem not_mem_escapeChar (c : Char) : '\n' ∉ escapeChar c := by
  have hdigit : ∀ n : Fin 16, Nat.digitChar n ≠ '\n' := by decide
  unfold escapeChar
  split
  · next h =>
    rw [Bool.or_eq_true, decide_eq_true_eq, decide_eq_true_eq] at h
    rcases h with rfl | rfl <;> decide
  split
  · decide
  split
  · decide
  split
  · decide
  split
  · decide
  split
  · decide
  split
  · next h =>
    have hhigh := hdigit ⟨c.toNat / 16, by omega⟩
    have hlow := hdigit ⟨c.toNat % 16, by omega⟩
    simp [hhigh.symm, hlow.symm]
  · next hfeed _ _ _ => simpa using Ne.symm hfeed

theorem not_mem_writeString (value : String) : '\n' ∉ writeString value := by
  simp only [writeString, List.cons_append, List.mem_cons, List.mem_append, List.mem_flatMap,
    List.not_mem_nil, or_false, not_or, not_exists, not_and]
  exact ⟨by decide, fun c _ => not_mem_escapeChar c, by decide⟩

theorem not_mem_writeInt (value : Int) : '\n' ∉ writeInt value := by
  rw [writeInt, List.mem_append, not_or]
  refine ⟨by split <;> decide, fun h => ?_⟩
  exact absurd ((areDigits_toDigits _).isDigit _ h) (by decide)

theorem not_mem_writeNumber (mantissa exponent : Int) :
    '\n' ∉ writeNumber mantissa exponent := by
  rw [writeNumber, List.mem_append, not_or]
  refine ⟨not_mem_writeInt mantissa, ?_⟩
  split
  · exact List.not_mem_nil
  · rw [List.mem_cons, not_or]
    exact ⟨by decide, not_mem_writeInt exponent⟩

mutual

/-- **A value on one line has no line break in it**, whatever its strings are. -/
theorem not_mem_compact : ∀ value : Json, '\n' ∉ compact value
  | .null => by
    rw [compact]
    decide
  | .bool true => by
    rw [compact]
    decide
  | .bool false => by
    rw [compact]
    decide
  | .number mantissa exponent => by
    rw [compact]
    exact not_mem_writeNumber mantissa exponent
  | .string value => by
    rw [compact]
    exact not_mem_writeString value
  | .array items => by
    rw [compact]
    simpa using not_mem_compactItems items
  | .object members => by
    rw [compact]
    simpa using not_mem_compactMembers members

theorem not_mem_compactItems : ∀ items : List Json, '\n' ∉ compactItems items
  | [] => by
    rw [compactItems]
    exact List.not_mem_nil
  | [item] => by
    rw [compactItems]
    exact not_mem_compact item
  | item :: next :: more => by
    rw [compactItems]
    · simpa using ⟨not_mem_compact item, not_mem_compactItems (next :: more)⟩
    · exact List.cons_ne_nil next more

theorem not_mem_compactMembers : ∀ members : List (String × Json), '\n' ∉ compactMembers members
  | [] => by
    rw [compactMembers]
    exact List.not_mem_nil
  | [(key, value)] => by
    rw [compactMembers]
    simpa using ⟨not_mem_writeString key, not_mem_compact value⟩
  | (key, value) :: next :: more => by
    rw [compactMembers]
    · simpa using ⟨not_mem_writeString key, not_mem_compact value,
        not_mem_compactMembers (next :: more)⟩
    · exact List.cons_ne_nil next more

end

end Unreferenced.Json
