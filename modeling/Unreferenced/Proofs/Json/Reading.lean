import Unreferenced.Proofs.Json.Grammar

/-!
# Readers read what the grammar admits

That the readers of `Json.parse?` take every text of the grammar needs one lemma for each
production: what it writes is read back, whatever stands behind it. For numbers the last
part takes care, since a number has no closing mark and its reader takes all that could
belong to it; what stands behind must not look like the rest of a number (`Json.Ends`).
The steps that a reader may take are bounded by the length of the text, two for each
character. The main result is `Unreferenced.Json.parse?_of_writesPadded`.
-/

namespace Unreferenced.Json

/-! ### White space -/

theorem skipSpace_append {spaces : List Char} (h : AreSpaces spaces) (rest : List Char) :
    skipSpace (spaces ++ rest) = skipSpace rest :=
  List.dropWhile_append_of_pos h

theorem skipSpace_cons {c : Char} (h : isSpace c = false) (rest : List Char) :
    skipSpace (c :: rest) = c :: rest :=
  List.dropWhile_cons_of_neg (by rw [h]; exact Bool.false_ne_true)

/-! ### Strings -/

/-- Four digits are read as one number. -/
theorem readUnit?_append {digits : List Char} (h : digits.length = 4) (rest : List Char) :
    readUnit? (digits ++ rest) = (Text.hexNumber? digits).map (·, rest) := by
  match digits, h with
  | [a, b, c, d], _ => rfl

/-- A letter behind a backslash is read as its character. -/
theorem readEscape?_letter {letter c : Char} (h : (letter, c) ∈ letters) (rest : List Char) :
    readEscape? (letter :: rest) = some (c, rest) := by
  simp only [letters, List.mem_cons, Prod.mk.injEq, List.not_mem_nil, or_false] at h
  rcases h with ⟨rfl, rfl⟩ | ⟨rfl, rfl⟩ | ⟨rfl, rfl⟩ | ⟨rfl, rfl⟩ | ⟨rfl, rfl⟩ | ⟨rfl, rfl⟩ |
    ⟨rfl, rfl⟩ | ⟨rfl, rfl⟩ <;> rfl

/-- No character has the number of half a pair. -/
theorem toNat_lt_or_lt (c : Char) :
    c.toNat < 0xd800 ∨ 0xdfff < c.toNat ∧ c.toNat < 0x110000 :=
  c.valid

/-- A number behind a backslash and `u` is read as its character. -/
theorem readEscape?_unit {digits : List Char} {c : Char} (hlength : digits.length = 4)
    (hvalue : Text.hexNumber? digits = some c.toNat) (rest : List Char) :
    readEscape? ('u' :: (digits ++ rest)) = some (c, rest) := by
  have hvalid := toNat_lt_or_lt c
  have hhalf : ¬(0xd800 ≤ c.toNat ∧ c.toNat < 0xdc00) := by omega
  rw [readEscape?, readNumberedEscape?, readUnit?_append hlength, hvalue]
  simp only [Option.map_some, Option.bind_eq_bind, Option.bind_some, Bool.and_eq_true,
    decide_eq_true_eq, hhalf, if_false, Text.charOfCode?_toNat]

/-- The numbers of a pair are read as one character. -/
theorem readEscape?_pair {high low : List Char} {c : Char} (hhigh : high.length = 4)
    (hlow : low.length = 4) (hplane : 0x10000 ≤ c.toNat)
    (hvalue : Text.hexNumber? high = some (0xd800 + (c.toNat - 0x10000) / 0x400))
    (hvalue' : Text.hexNumber? low = some (0xdc00 + (c.toNat - 0x10000) % 0x400))
    (rest : List Char) :
    readEscape? ('u' :: (high ++ '\\' :: 'u' :: (low ++ rest))) = some (c, rest) := by
  have hvalid := toNat_lt_or_lt c
  obtain ⟨first, hfirst⟩ : ∃ n, n = 0xd800 + (c.toNat - 0x10000) / 0x400 := ⟨_, rfl⟩
  obtain ⟨second, hsecond⟩ : ∃ n, n = 0xdc00 + (c.toNat - 0x10000) % 0x400 := ⟨_, rfl⟩
  rw [← hfirst] at hvalue
  rw [← hsecond] at hvalue'
  have hfirst' : 0xd800 ≤ first ∧ first < 0xdc00 := by omega
  have hsecond' : 0xdc00 ≤ second ∧ second < 0xe000 := by omega
  have hcode : 0x10000 + 0x400 * (first - 0xd800) + (second - 0xdc00) = c.toNat := by omega
  have hbehind : Text.behind? ['\\', 'u'] ('\\' :: 'u' :: (low ++ rest)) = some (low ++ rest) :=
    Text.behind?_eq_some_iff.2 rfl
  rw [readEscape?, readNumberedEscape?, readUnit?_append hhigh, hvalue]
  simp only [Option.map_some, Option.bind_eq_bind, Option.bind_some, Bool.and_eq_true,
    decide_eq_true_eq, hfirst', and_self, if_true, readSecondHalf?, hbehind,
    readUnit?_append hlow, hvalue', hsecond', hcode, Text.charOfCode?_toNat]

/-- One more character of a string is read. -/
theorem readChars?_writesChar {text : List Char} {c : Char} (h : WritesChar text c)
    (steps : Nat) (rest : List Char) :
    readChars? (steps + 1) (text ++ rest) =
      (readChars? steps rest).map fun (cs, rest) => (c :: cs, rest) := by
  have hbackslash : '\\' ≠ '\x22' := by decide
  -- behind a backslash all depends on what the escape is read as
  have hescape : ∀ {escape}, readEscape? (escape ++ rest) = some (c, rest) →
      readChars? (steps + 1) ('\\' :: (escape ++ rest)) =
        (readChars? steps rest).map fun (cs, rest) => (c :: cs, rest) := by
    intro escape hread
    rw [readChars?, if_neg hbackslash, if_pos rfl, hread, Option.bind_eq_bind, Option.bind_some]
    dsimp only
    cases readChars? steps rest <;> rfl
  cases h with
  | plain hquote hbackslash hcontrol =>
    rw [List.singleton_append, readChars?, if_neg hquote, if_neg hbackslash,
      if_neg (Nat.not_lt.2 hcontrol)]
    cases readChars? steps rest <;> rfl
  | @letter letter _ hmem => exact @hescape [letter] (readEscape?_letter hmem rest)
  | @unit digits _ hlength hvalue =>
    exact @hescape ('u' :: digits) (readEscape?_unit hlength hvalue rest)
  | @pair high low _ hhigh hlow hplane hvalue hvalue' =>
    have hread := readEscape?_pair hhigh hlow hplane hvalue hvalue' rest
    have happend : 'u' :: high ++ '\\' :: 'u' :: low ++ rest =
        'u' :: (high ++ '\\' :: 'u' :: (low ++ rest)) := by simp
    rw [← happend] at hread
    exact hescape hread

theorem WritesChar.length_pos {text : List Char} {c : Char} (h : WritesChar text c) :
    0 < text.length := by
  cases h <;> simp

/-- **The characters of a string are read back.** -/
theorem readChars?_writesChars {text cs : List Char} (h : WritesChars text cs) {steps : Nat}
    (hsteps : text.length < steps) (rest : List Char) :
    readChars? steps (text ++ '\x22' :: rest) = some (cs, rest) := by
  induction h generalizing steps with
  | nil =>
    obtain ⟨steps, rfl⟩ := Nat.exists_eq_add_one.2 hsteps
    rfl
  | @cons text more c cs hc hmore ih =>
    obtain ⟨steps, rfl⟩ := Nat.exists_eq_add_one.2 (Nat.zero_lt_of_lt hsteps)
    have hpos := hc.length_pos
    rw [List.length_append] at hsteps
    rw [List.append_assoc, readChars?_writesChar hc, ih (by omega)]
    rfl

/-- **A string is read back.** -/
theorem readString?_writesChars {text : List Char} {value : String}
    (h : WritesChars text value.toList) (rest : List Char) :
    readString? ('\x22' :: (text ++ '\x22' :: rest)) = some (value, rest) := by
  have hbehind : Text.behind? ['\x22'] ('\x22' :: (text ++ '\x22' :: rest)) =
      some (text ++ '\x22' :: rest) := Text.behind?_eq_some_iff.2 rfl
  have hlength : text.length < ('\x22' :: (text ++ '\x22' :: rest)).length := by
    rw [List.length_cons, List.length_append]
    omega
  have hread := readChars?_writesChars h hlength rest
  rw [readString?, hbehind]
  simp only [Option.bind_eq_bind, Option.bind_some, hread, String.ofList_toList]

/-! ### Numbers -/

/-- What does not look like the rest of a number. -/
def Ends (rest : List Char) : Prop :=
  ∀ c ∈ rest.head?, c.isDigit = false ∧ c ≠ '.' ∧ c ≠ 'e' ∧ c ≠ 'E'

theorem ends_nil : Ends [] := by
  simp [Ends]

/-- Digits are read up to what is not a digit. -/
theorem readDigits?_append {digits rest : List Char} (h : AreDigits digits)
    (hrest : ∀ c ∈ rest.head?, c.isDigit = false) :
    readDigits? (digits ++ rest) = some (digits, rest) := by
  have hstop : rest.takeWhile Char.isDigit = [] ∧ rest.dropWhile Char.isDigit = rest := by
    cases rest with
    | nil => exact ⟨rfl, rfl⟩
    | cons c rest =>
      have hc : ¬c.isDigit = true := by simp [hrest c (by simp)]
      exact ⟨List.takeWhile_cons_of_neg hc, List.dropWhile_cons_of_neg hc⟩
  rw [readDigits?, List.takeWhile_append_of_pos h.isDigit, List.dropWhile_append_of_pos h.isDigit,
    hstop.1, hstop.2, List.append_nil, if_neg (by simpa using h.ne_nil)]

theorem readWhole?_append {digits rest : List Char} (h : AreWhole digits)
    (hrest : ∀ c ∈ rest.head?, c.isDigit = false) :
    readWhole? (digits ++ rest) = some (digits, rest) := by
  rw [readWhole?, readDigits?_append h.toAreDigits hrest, Option.bind_eq_bind, Option.bind_some]
  dsimp only
  rw [if_neg]
  simpa using h.zero

/-- A fraction is read up to what is neither a point nor a digit. -/
theorem readFraction?_append {text digits rest : List Char} (h : WritesFraction text digits)
    (hrest : ∀ c ∈ rest.head?, c.isDigit = false ∧ c ≠ '.') :
    readFraction? (text ++ rest) = some (digits, rest) := by
  cases h with
  | none =>
    rw [List.nil_append]
    unfold readFraction?
    split
    · exact absurd rfl (hrest '.' (by simp)).2
    · rfl
  | point h => exact readDigits?_append h fun c hc => (hrest c hc).1

/-- Whether a number begins with a minus sign, and what stands behind the sign. -/
def behindSign : List Char → Bool × List Char
  | '-' :: rest => (true, rest)
  | rest => (false, rest)

/-- Whether an exponent begins with a minus sign, and what stands behind the sign. -/
def behindExponentSign : List Char → Bool × List Char
  | '-' :: rest => (true, rest)
  | '+' :: rest => (false, rest)
  | rest => (false, rest)

/-- A digit is no sign, so that digits are not taken for one. -/
theorem AreDigits.exists_cons {digits : List Char} (h : AreDigits digits) :
    ∃ d more, digits = d :: more ∧ d ≠ '-' ∧ d ≠ '+' := by
  obtain ⟨d, more, rfl⟩ := List.exists_cons_of_ne_nil h.ne_nil
  have hd := h.isDigit d (by simp)
  refine ⟨d, more, rfl, ?_, ?_⟩
  · rintro rfl
    exact absurd hd (by decide)
  · rintro rfl
    exact absurd hd (by decide)

theorem behindSign_append {sign digits : List Char} {negative : Bool}
    (hsign : WritesSign sign negative) (h : AreDigits digits) (rest : List Char) :
    behindSign (sign ++ (digits ++ rest)) = (negative, digits ++ rest) := by
  cases hsign with
  | minus => rfl
  | none =>
    obtain ⟨d, more, rfl, hminus, -⟩ := h.exists_cons
    rw [List.nil_append, List.cons_append, behindSign]
    simpa using hminus

theorem behindExponentSign_append {sign digits : List Char} {negative : Bool}
    (hsign : WritesExponentSign sign negative) (h : AreDigits digits) (rest : List Char) :
    behindExponentSign (sign ++ (digits ++ rest)) = (negative, digits ++ rest) := by
  cases hsign with
  | plus => rfl
  | sign hsign =>
    cases hsign with
    | minus => rfl
    | none =>
      obtain ⟨d, more, rfl, hminus, hplus⟩ := h.exists_cons
      rw [List.nil_append, List.cons_append, behindExponentSign]
      · simpa using hminus
      · simpa using hplus

theorem readExponent?_cons (c : Char) (rest : List Char) :
    readExponent? (c :: rest) =
      if c = 'e' ∨ c = 'E' then
        (readDigits? (behindExponentSign rest).2).map fun (digits, after) =>
          (signed (behindExponentSign rest).1 digits, after)
      else some (0, c :: rest) := by
  have hsplit : readExponent? (c :: rest) =
      if c = 'e' || c = 'E' then
        (readDigits? (behindExponentSign rest).2).bind fun (digits, after) =>
          some (signed (behindExponentSign rest).1 digits, after)
      else some (0, c :: rest) := rfl
  rw [hsplit]
  simp only [Bool.or_eq_true, decide_eq_true_eq, Option.map_eq_bind]
  rfl

/-- An exponent is read up to what is no part of a number. -/
theorem readExponent?_append {text rest : List Char} {power : Int}
    (h : WritesExponent text power) (hrest : Ends rest) :
    readExponent? (text ++ rest) = some (power, rest) := by
  cases h with
  | none =>
    cases rest with
    | nil => rfl
    | cons c rest =>
      obtain ⟨-, -, he, hE⟩ := hrest c (by simp)
      rw [List.nil_append, readExponent?_cons, if_neg (by simp [he, hE])]
  | @letter letter sign digits negative hletter hsign h =>
    have hdigits := readDigits?_append h fun c hc => (hrest c hc).1
    rw [List.cons_append, List.cons_append, List.append_assoc, readExponent?_cons,
      if_pos hletter, behindExponentSign_append hsign h, hdigits]
    rfl

theorem readNumber?_eq (cs : List Char) :
    readNumber? cs =
      (readWhole? (behindSign cs).2).bind fun (whole, rest) =>
        (readFraction? rest).bind fun (fraction, rest) =>
          (readExponent? rest).bind fun (exponent, rest) =>
            some (.number (signed (behindSign cs).1 (whole ++ fraction))
              (exponent - fraction.length), rest) :=
  rfl

/-- **A number is read back**, up to what does not look like the rest of one. -/
theorem readNumber?_append {text rest : List Char} {mantissa exponent : Int}
    (h : WritesNumber text mantissa exponent) (hrest : Ends rest) :
    readNumber? (text ++ rest) = some (.number mantissa exponent, rest) := by
  cases h with
  | @mk sign whole fraction exponent digits negative power hsign hwhole hfraction hexponent =>
    -- each part stops at the first character of the next one
    have hends : ∀ c ∈ (exponent ++ rest).head?, c.isDigit = false ∧ c ≠ '.' := by
      cases hexponent with
      | none => exact fun c hc => ⟨(hrest c hc).1, (hrest c hc).2.1⟩
      | letter hletter =>
        rcases hletter with rfl | rfl
        · simp
        · simp
    have hends' : ∀ c ∈ (fraction ++ (exponent ++ rest)).head?, c.isDigit = false := by
      cases hfraction with
      | none => exact fun c hc => (hends c hc).1
      | point => simp
    rw [readNumber?_eq, List.append_assoc, List.append_assoc, List.append_assoc,
      behindSign_append hsign hwhole.toAreDigits, readWhole?_append hwhole hends',
      Option.bind_some]
    dsimp only
    rw [readFraction?_append hfraction hends, Option.bind_some]
    dsimp only
    rw [readExponent?_append hexponent hrest, Option.bind_some]

/-! ### Values -/

/-- A character that a number can begin with. -/
def BeginsNumber (c : Char) : Prop :=
  c = '-' ∨ c.isDigit = true

/-- A number begins with no character that is neither a digit nor a minus sign. -/
theorem BeginsNumber.ne {c : Char} (h : BeginsNumber c) {d : Char} (hminus : d ≠ '-')
    (hdigit : d.isDigit = false) : c ≠ d := by
  rintro rfl
  rcases h with rfl | h
  · exact hminus rfl
  · rw [hdigit] at h
    cases h

theorem BeginsNumber.isSpace {c : Char} (h : BeginsNumber c) : isSpace c = false := by
  simp [Json.isSpace, @BeginsNumber.ne c h ' ' (by decide) (by decide),
    @BeginsNumber.ne c h '\n' (by decide) (by decide),
    @BeginsNumber.ne c h '\r' (by decide) (by decide),
    @BeginsNumber.ne c h '\t' (by decide) (by decide)]

theorem WritesNumber.exists_cons {text : List Char} {mantissa exponent : Int}
    (h : WritesNumber text mantissa exponent) :
    ∃ c rest, text = c :: rest ∧ BeginsNumber c := by
  cases h with
  | @mk sign whole _ _ _ _ _ hsign hwhole =>
    cases hsign with
    | minus => exact ⟨_, _, rfl, .inl rfl⟩
    | none =>
      obtain ⟨c, rest, rfl⟩ := List.exists_cons_of_ne_nil hwhole.ne_nil
      exact ⟨c, _, rfl, .inr (hwhole.isDigit c (by simp))⟩

/-- The text of a value begins neither with white space nor with a closing bracket. -/
theorem Writes.exists_cons {text : List Char} {value : Json} (h : Writes text value) :
    ∃ c rest, text = c :: rest ∧ isSpace c = false ∧ c ≠ ']' ∧ c ≠ '}' := by
  cases h with
  | null => exact ⟨_, _, rfl, by decide⟩
  | truth => exact ⟨_, _, rfl, by decide⟩
  | falsehood => exact ⟨_, _, rfl, by decide⟩
  | number h =>
    obtain ⟨c, rest, rfl, hc⟩ := h.exists_cons
    exact ⟨c, rest, rfl, hc.isSpace, hc.ne (by decide) (by decide), hc.ne (by decide) (by decide)⟩
  | string => exact ⟨_, _, rfl, by decide⟩
  | emptyArray => exact ⟨_, _, rfl, by decide⟩
  | array => exact ⟨_, _, rfl, by decide⟩
  | emptyObject => exact ⟨_, _, rfl, by decide⟩
  | object => exact ⟨_, _, rfl, by decide⟩

/-- A reader that comes to a number reads it. -/
theorem readValue?_of_beginsNumber {steps : Nat} {cs rest : List Char} {c : Char}
    (hskip : skipSpace cs = c :: rest) (hc : BeginsNumber c) :
    readValue? (steps + 1) cs = readNumber? (c :: rest) := by
  rw [readValue?, hskip]
  split
  · next heq => exact absurd (List.cons.inj heq).1 (hc.ne (by decide) (by decide))
  · next heq => exact absurd (List.cons.inj heq).1 (hc.ne (by decide) (by decide))
  · next heq => exact absurd (List.cons.inj heq).1 (hc.ne (by decide) (by decide))
  · next heq => exact absurd (List.cons.inj heq).1 (hc.ne (by decide) (by decide))
  · next heq => exact absurd (List.cons.inj heq).1 (hc.ne (by decide) (by decide))
  · next heq => exact absurd (List.cons.inj heq).1 (hc.ne (by decide) (by decide))
  · rfl

/-- A reader that comes to a quote reads a string. -/
theorem readValue?_of_quote {steps : Nat} {cs rest : List Char}
    (hskip : skipSpace cs = '\x22' :: rest) :
    readValue? (steps + 1) cs =
      (readString? ('\x22' :: rest)).map fun (text, rest) => (.string text, rest) := by
  rw [readValue?, hskip]
  rfl

/-- A reader that comes to an opening bracket reads the items behind it, if there are any. -/
theorem readValue?_of_bracket {steps : Nat} {cs rest : List Char}
    (hskip : skipSpace cs = '[' :: rest) :
    readValue? (steps + 1) cs =
      match skipSpace rest with
      | ']' :: rest => some (.array [], rest)
      | _ => (readItems? steps rest).map fun (items, rest) => (.array items, rest) := by
  rw [readValue?, hskip]
  rfl

/-- A reader that comes to an opening brace reads the members behind it, if there are any. -/
theorem readValue?_of_brace {steps : Nat} {cs rest : List Char}
    (hskip : skipSpace cs = '{' :: rest) :
    readValue? (steps + 1) cs =
      match skipSpace rest with
      | '}' :: rest => some (.object [], rest)
      | _ => (readMembers? steps rest).map fun (members, rest) => (.object members, rest) := by
  rw [readValue?, hskip]
  rfl

theorem WritesPadded.exists_cons {text : List Char} {value : Json} (h : WritesPadded text value)
    (rest : List Char) :
    ∃ c more, skipSpace (text ++ rest) = c :: more ∧ c ≠ ']' ∧ c ≠ '}' := by
  cases h with
  | mk hbefore h =>
    obtain ⟨c, more, rfl, hspace, hbracket, hbrace⟩ := h.exists_cons
    rw [List.append_assoc, skipSpace_append hbefore]
    exact ⟨c, _, skipSpace_cons hspace _, hbracket, hbrace⟩

theorem WritesItems.head?_skipSpace {text : List Char} {items : List Json}
    (h : WritesItems text items) (rest : List Char) :
    (skipSpace (text ++ rest)).head? ≠ some ']' := by
  cases h with
  | last h =>
    obtain ⟨c, more, hskip, hc, -⟩ := h.exists_cons rest
    rw [hskip]
    simpa using hc
  | @more text after _ _ h =>
    obtain ⟨c, more, hskip, hc, -⟩ := h.exists_cons (',' :: (after ++ rest))
    rw [List.append_assoc, List.cons_append, hskip]
    simpa using hc

theorem WritesMember.skipSpace_eq {text : List Char} {member : String × Json}
    (h : WritesMember text member) (rest : List Char) :
    ∃ more, skipSpace (text ++ rest) = '\x22' :: more := by
  cases h with
  | mk hbefore =>
    rw [List.append_assoc, skipSpace_append hbefore]
    exact ⟨_, skipSpace_cons (by decide) _⟩

theorem WritesMembers.head?_skipSpace {text : List Char} {members : List (String × Json)}
    (h : WritesMembers text members) (rest : List Char) :
    (skipSpace (text ++ rest)).head? ≠ some '}' := by
  cases h with
  | last h =>
    obtain ⟨more, hskip⟩ := h.skipSpace_eq rest
    rw [hskip]
    simp
  | @more text after _ _ h =>
    obtain ⟨more, hskip⟩ := h.skipSpace_eq (',' :: (after ++ rest))
    rw [List.append_assoc, List.cons_append, hskip]
    simp

theorem ends_append {spaces rest : List Char} (h : AreSpaces spaces) (hrest : Ends rest) :
    Ends (spaces ++ rest) := by
  cases spaces with
  | nil => exact hrest
  | cons c spaces =>
    have hc := h c (by simp)
    simp only [isSpace, Bool.or_eq_true, beq_iff_eq] at hc
    intro d hd
    obtain rfl : c = d := by simpa using hd
    rcases hc with ((rfl | rfl) | rfl) | rfl <;> decide

theorem ends_cons {c : Char} (h : c.isDigit = false ∧ c ≠ '.' ∧ c ≠ 'e' ∧ c ≠ 'E')
    (rest : List Char) : Ends (c :: rest) := by
  intro d hd
  obtain rfl : c = d := by simpa using hd
  exact h

/-- A reader that has read an item goes on by what stands behind it. -/
theorem readItems?_of_readValue? {steps : Nat} {cs after rest : List Char} {item : Json}
    (hafter : AreSpaces after) (hread : readValue? steps cs = some (item, after ++ rest)) :
    readItems? (steps + 1) cs =
      match skipSpace rest with
      | ',' :: rest => (readItems? steps rest).bind fun (items, rest) => some (item :: items, rest)
      | ']' :: rest => some ([item], rest)
      | _ => none := by
  rw [readItems?, hread, Option.bind_eq_bind, Option.bind_some]
  dsimp only
  rw [skipSpace_append hafter]
  rfl

/-- A reader that has read a key and a value goes on by what stands behind them. -/
theorem readMembers?_of_readValue? {steps : Nat} {before keyText between text after rest : List Char}
    {key : String} {value : Json} (hbefore : AreSpaces before)
    (hkey : WritesChars keyText key.toList) (hbetween : AreSpaces between)
    (hafter : AreSpaces after)
    (hread : readValue? steps text = some (value, after ++ rest)) :
    readMembers? (steps + 1)
        (before ++ '\x22' :: (keyText ++ '\x22' :: (between ++ ':' :: text))) =
      match skipSpace rest with
      | ',' :: rest =>
        (readMembers? steps rest).bind fun (members, rest) => some ((key, value) :: members, rest)
      | '}' :: rest => some ([(key, value)], rest)
      | _ => none := by
  have hcolon : Text.behind? [':'] (':' :: text) = some text := Text.behind?_eq_some_iff.2 rfl
  rw [readMembers?, skipSpace_append hbefore, skipSpace_cons (by decide),
    readString?_writesChars hkey, Option.bind_eq_bind, Option.bind_some]
  dsimp only
  rw [skipSpace_append hbetween, skipSpace_cons (by decide), hcolon, Option.bind_eq_bind,
    Option.bind_some]
  rw [hread, Option.bind_eq_bind, Option.bind_some]
  dsimp only
  rw [skipSpace_append hafter]
  rfl

mutual

/-- What writes a value is read as that value. -/
theorem readValue?_of_writes : ∀ {text : List Char} {value : Json}, Writes text value →
    ∀ {before rest : List Char} {steps : Nat}, AreSpaces before → Ends rest →
      2 * text.length ≤ steps → readValue? steps (before ++ (text ++ rest)) = some (value, rest)
  | text, value, h, before, rest, steps, hbefore, hrest, hsteps => by
    have hskip : skipSpace (before ++ (text ++ rest)) = text ++ rest := by
      obtain ⟨c, more, rfl, hc, -⟩ := h.exists_cons
      rw [skipSpace_append hbefore, List.cons_append, skipSpace_cons hc]
    have hpos : 0 < text.length := by
      obtain ⟨c, more, rfl, -⟩ := h.exists_cons
      simp
    obtain ⟨steps, rfl⟩ : ∃ n, steps = n + 1 := Nat.exists_eq_add_one.2 (by omega)
    -- what is behind the white space begins with the first character of the text, and that
    -- decides which reader goes on
    cases h with
    | null =>
      rw [readValue?, hskip]
      rfl
    | truth =>
      rw [readValue?, hskip]
      rfl
    | falsehood =>
      rw [readValue?, hskip]
      rfl
    | number h =>
      obtain ⟨c, more, rfl, hc⟩ := h.exists_cons
      rw [readValue?_of_beginsNumber hskip hc]
      exact readNumber?_append h hrest
    | string h =>
      rw [List.cons_append, List.append_assoc, List.singleton_append] at hskip ⊢
      rw [readValue?_of_quote hskip, readString?_writesChars h, Option.map_some]
    | emptyArray h =>
      rw [List.cons_append, List.append_assoc, List.singleton_append] at hskip ⊢
      rw [readValue?_of_bracket hskip, skipSpace_append h, skipSpace_cons (by decide)]
      rfl
    | array h =>
      -- the two brackets pay for the step to the items
      have hhead := h.head?_skipSpace (']' :: rest)
      simp only [List.length_cons, List.length_append, List.length_nil] at hsteps
      rw [List.cons_append, List.append_assoc, List.singleton_append] at hskip ⊢
      rw [readValue?_of_bracket hskip]
      split
      · next hclose => exact absurd (by rw [hclose]; rfl) hhead
      · rw [readItems?_of_writesItems h (by omega), Option.map_some]
    | emptyObject h =>
      rw [List.cons_append, List.append_assoc, List.singleton_append] at hskip ⊢
      rw [readValue?_of_brace hskip, skipSpace_append h, skipSpace_cons (by decide)]
      rfl
    | object h =>
      have hhead := h.head?_skipSpace ('}' :: rest)
      simp only [List.length_cons, List.length_append, List.length_nil] at hsteps
      rw [List.cons_append, List.append_assoc, List.singleton_append] at hskip ⊢
      rw [readValue?_of_brace hskip]
      split
      · next hclose => exact absurd (by rw [hclose]; rfl) hhead
      · rw [readMembers?_of_writesMembers h (by omega), Option.map_some]

/-- What writes a value with white space around it is read up to the white space behind. -/
theorem readValue?_of_writesPadded : ∀ {text : List Char} {value : Json},
    WritesPadded text value → ∀ {rest : List Char} {steps : Nat}, Ends rest →
      2 * text.length ≤ steps →
        ∃ after, AreSpaces after ∧ readValue? steps (text ++ rest) = some (value, after ++ rest)
  | _, _, @WritesPadded.mk before text after _ hbefore h hafter, rest, steps, hrest, hsteps => by
    refine ⟨after, hafter, ?_⟩
    simp only [List.length_append] at hsteps
    rw [List.append_assoc, List.append_assoc]
    exact readValue?_of_writes h hbefore (ends_append hafter hrest) (by omega)

/-- What writes the items of an array is read as these items. -/
theorem readItems?_of_writesItems : ∀ {text : List Char} {items : List Json},
    WritesItems text items → ∀ {rest : List Char} {steps : Nat}, 2 * text.length < steps →
      readItems? steps (text ++ ']' :: rest) = some (items, rest)
  | _, _, .last h, rest, steps, hsteps => by
    obtain ⟨steps, rfl⟩ : ∃ n, steps = n + 1 := Nat.exists_eq_add_one.2 (by omega)
    have hends : Ends (']' :: rest) := ends_cons (by decide) rest
    obtain ⟨after, hafter, hread⟩ :=
      readValue?_of_writesPadded h hends (Nat.le_of_lt_succ hsteps)
    rw [readItems?_of_readValue? hafter hread, skipSpace_cons (by decide)]
    rfl
  | _, _, @WritesItems.more text more _ _ h hmore, rest, steps, hsteps => by
    obtain ⟨steps, rfl⟩ : ∃ n, steps = n + 1 := Nat.exists_eq_add_one.2 (by omega)
    simp only [List.length_append, List.length_cons] at hsteps
    have hlength : 2 * text.length ≤ steps := by omega
    have hends : Ends (',' :: (more ++ ']' :: rest)) := ends_cons (by decide) _
    obtain ⟨after, hafter, hread⟩ := readValue?_of_writesPadded h hends hlength
    rw [List.append_assoc, List.cons_append, readItems?_of_readValue? hafter hread,
      skipSpace_cons (by decide)]
    show (readItems? steps (more ++ ']' :: rest)).bind _ = _
    rw [readItems?_of_writesItems hmore (by omega)]
    rfl

/-- What writes a member is read as that member, and the reader goes on behind it. -/
theorem readMembers?_of_writesMember : ∀ {text : List Char} {member : String × Json},
    WritesMember text member → ∀ {rest : List Char} {steps : Nat}, Ends rest →
      2 * text.length ≤ steps →
        readMembers? (steps + 1) (text ++ rest) =
          match skipSpace rest with
          | ',' :: rest =>
            (readMembers? steps rest).bind fun (members, rest) => some (member :: members, rest)
          | '}' :: rest => some ([member], rest)
          | _ => none
  | _, _, @WritesMember.mk before keyText between text key value hbefore hkey hbetween h, rest,
      steps, hrest, hsteps => by
    simp only [List.length_append, List.length_cons] at hsteps
    have hlength : 2 * text.length ≤ steps := by omega
    obtain ⟨after, hafter, hread⟩ := readValue?_of_writesPadded h hrest hlength
    rw [← readMembers?_of_readValue? hbefore hkey hbetween hafter hread]
    simp only [List.append_assoc, List.cons_append]

/-- What writes the members of an object is read as these members. -/
theorem readMembers?_of_writesMembers : ∀ {text : List Char} {members : List (String × Json)},
    WritesMembers text members → ∀ {rest : List Char} {steps : Nat}, 2 * text.length < steps →
      readMembers? steps (text ++ '}' :: rest) = some (members, rest)
  | _, _, .last h, rest, steps, hsteps => by
    obtain ⟨steps, rfl⟩ : ∃ n, steps = n + 1 := Nat.exists_eq_add_one.2 (by omega)
    have hends : Ends ('}' :: rest) := ends_cons (by decide) rest
    rw [readMembers?_of_writesMember h hends (Nat.le_of_lt_succ hsteps),
      skipSpace_cons (by decide)]
    rfl
  | _, _, @WritesMembers.more text more _ _ h hmore, rest, steps, hsteps => by
    obtain ⟨steps, rfl⟩ : ∃ n, steps = n + 1 := Nat.exists_eq_add_one.2 (by omega)
    simp only [List.length_append, List.length_cons] at hsteps
    have hlength : 2 * text.length ≤ steps := by omega
    have hends : Ends (',' :: (more ++ '}' :: rest)) := ends_cons (by decide) _
    rw [List.append_assoc, List.cons_append, readMembers?_of_writesMember h hends hlength,
      skipSpace_cons (by decide)]
    show (readMembers? steps (more ++ '}' :: rest)).bind _ = _
    rw [readMembers?_of_writesMembers hmore (by omega)]
    rfl

end

/-- **A text that writes a value is read as that value**, with white space around it. -/
theorem parse?_of_writesPadded {text : String} {value : Json}
    (h : WritesPadded text.toList value) : parse? text = some value := by
  obtain ⟨after, hafter, hread⟩ := readValue?_of_writesPadded h ends_nil (Nat.le_succ _)
  rw [List.append_nil, List.append_nil] at hread
  have hrest : skipSpace after = [] := by
    rw [← List.append_nil after, skipSpace_append hafter]
    rfl
  rw [parse?]
  dsimp only
  rw [hread, Option.bind_eq_bind, Option.bind_some]
  dsimp only
  rw [hrest]
  rfl

end Unreferenced.Json
