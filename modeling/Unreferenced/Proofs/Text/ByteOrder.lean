import Mathlib.Data.List.Lex
import Mathlib.Data.String.Basic
import Mathlib.Tactic.SplitIfs

/-!
# The order of texts by their bytes

Texts are compared character by character, and a file system compares names byte by byte.
In UTF-8 the two are the same (`Unreferenced.Text.bytes_lt_iff`), which is what that
encoding was made for: a character is a leading byte followed by continuation bytes of six
bits each (`Unreferenced.Text.codeUnits`), a number with its most significant digit first,
and the leading bytes of the longer forms are greater than those of the shorter. So the
codes of two characters differ at a byte at which the code of the smaller one is smaller,
whatever comes behind them.
-/

namespace Unreferenced.Text

/-- The bytes of a text in UTF-8. -/
def bytes (text : String) : List UInt8 :=
  text.toByteArray.data.toList

theorem bytes_eq_flatMap (text : String) : bytes text = text.toList.flatMap String.utf8EncodeChar := by
  rw [bytes]
  conv_lhs => rw [← String.ofList_toList (s := text)]
  rw [String.toByteArray_ofList, List.utf8Encode, List.data_toByteArray]

/-! ### The code of one character -/

/-- A number as a leading byte, which is raised by `base`, and continuation bytes of six
bits each. -/
def codeUnits (base : Nat) : Nat → Nat → List UInt8
  | 0, n => [.ofNat (n + base)]
  | more + 1, n => codeUnits base more (n / 64) ++ [.ofNat (n % 64 + 128)]

/-- By how much the leading byte of a character is raised, and how many bytes follow it. -/
def codeForm (n : Nat) : Nat × Nat :=
  if n ≤ 0x7f then (0, 0)
  else if n ≤ 0x7ff then (0xc0, 1)
  else if n ≤ 0xffff then (0xe0, 2)
  else (0xf0, 3)

theorem toNat_lt_max (c : Char) : c.val.toNat < 0x110000 := by
  have hvalid := c.valid
  simp only [UInt32.isValidChar, Nat.isValidChar] at hvalid
  omega

theorem utf8EncodeChar_eq (c : Char) :
    String.utf8EncodeChar c =
      codeUnits (codeForm c.val.toNat).1 (codeForm c.val.toNat).2 c.val.toNat := by
  have hmax := toNat_lt_max c
  simp only [String.utf8EncodeChar, codeForm]
  generalize c.val.toNat = n at hmax ⊢
  -- The digit in the leading byte is cut to a width that it does not exceed.
  split_ifs
  · rfl
  · rw [Nat.mod_eq_of_lt (by omega)]
    rfl
  · rw [Nat.mod_eq_of_lt (by omega)]
    simp only [codeUnits, Nat.div_div_eq_div_mul, List.cons_append, List.nil_append]
  · rw [Nat.mod_eq_of_lt (by omega)]
    simp only [codeUnits, Nat.div_div_eq_div_mul, List.cons_append, List.nil_append]

/-- The leading byte decides between codes where it differs. -/
theorem codeUnits_lt_of_lead_lt {base base' more more' m n : Nat}
    (h : m / 64 ^ more + base < n / 64 ^ more' + base') (hn : n / 64 ^ more' + base' < 256)
    (cs ds : List UInt8) :
    codeUnits base more m ++ cs < codeUnits base' more' n ++ ds := by
  have hlead : ∀ base more n, ∃ rest,
      codeUnits base more n = .ofNat (n / 64 ^ more + base) :: rest := by
    intro base more
    induction more with
    | zero => exact fun n => ⟨[], by simp [codeUnits]⟩
    | succ more ih =>
      intro n
      obtain ⟨rest, hrest⟩ := ih (n / 64)
      refine ⟨rest ++ [.ofNat (n % 64 + 128)], ?_⟩
      rw [codeUnits, hrest, Nat.div_div_eq_div_mul, Nat.pow_succ', List.cons_append]
  obtain ⟨rest, hrest⟩ := hlead base more m
  obtain ⟨rest', hrest'⟩ := hlead base' more' n
  rw [hrest, hrest', List.cons_append, List.cons_append, List.cons_lt_cons_iff]
  exact .inl ((UInt8.ofNat_lt_iff_lt (h.trans hn) hn).2 h)

/-- Codes of one form are in the order of their numbers. -/
theorem codeUnits_lt_codeUnits {base more m n : Nat} (h : m < n) (hn : n / 64 ^ more + base < 256)
    (cs ds : List UInt8) : codeUnits base more m ++ cs < codeUnits base more n ++ ds := by
  induction more generalizing m n cs ds with
  | zero => exact codeUnits_lt_of_lead_lt (by simpa using h) hn cs ds
  | succ more ih =>
    simp only [codeUnits, List.append_assoc, List.singleton_append]
    rcases Nat.lt_or_ge (m / 64) (n / 64) with hdigits | hdigits
    · refine ih hdigits ?_ _ _
      rwa [Nat.div_div_eq_div_mul, ← Nat.pow_succ']
    · -- All digits but the last agree.
      have hsame : m / 64 = n / 64 := by omega
      rw [hsame]
      refine List.append_left_lt (List.cons_lt_cons_iff.2 (.inl ?_))
      rw [UInt8.ofNat_lt_iff_lt (by rw [UInt8.size]; omega) (by rw [UInt8.size]; omega)]
      omega

/-- **The code of the smaller character is smaller**, whatever follows the two. -/
theorem utf8EncodeChar_lt {c d : Char} (h : c < d) (cs ds : List UInt8) :
    String.utf8EncodeChar c ++ cs < String.utf8EncodeChar d ++ ds := by
  have hlt : c.val.toNat < d.val.toNat := h
  have hmax := toNat_lt_max d
  rw [utf8EncodeChar_eq, utf8EncodeChar_eq]
  generalize c.val.toNat = m at hlt ⊢
  generalize d.val.toNat = n at hlt hmax ⊢
  have hlead : n / 64 ^ (codeForm n).2 + (codeForm n).1 < 256 := by
    rw [codeForm]
    split_ifs <;> dsimp only <;> omega
  by_cases hform : codeForm m = codeForm n
  · rw [hform]
    exact codeUnits_lt_codeUnits hlt hlead cs ds
  · refine codeUnits_lt_of_lead_lt ?_ hlead cs ds
    rw [codeForm, codeForm] at hform ⊢
    split_ifs at hform ⊢ <;> first | exact absurd rfl hform | (dsimp only; omega)

/-! ### Texts -/

theorem flatMap_utf8EncodeChar_lt {cs ds : List Char} (h : cs < ds) :
    cs.flatMap String.utf8EncodeChar < ds.flatMap String.utf8EncodeChar := by
  induction cs generalizing ds with
  | nil =>
    cases ds with
    | nil => exact absurd h (List.lt_irrefl _)
    | cons d ds =>
      obtain ⟨first, rest, hcode⟩ := List.exists_cons_of_ne_nil (@String.utf8EncodeChar_ne_nil d)
      rw [List.flatMap_cons, hcode]
      exact List.nil_lt_cons ..
  | cons c cs ih =>
    cases ds with
    | nil => exact absurd h (List.not_lt_nil _)
    | cons d ds =>
      rw [List.flatMap_cons, List.flatMap_cons]
      rcases List.cons_lt_cons_iff.1 h with hchar | ⟨rfl, hrest⟩
      · exact utf8EncodeChar_lt hchar _ _
      · exact List.append_left_lt (ih hrest)

/-- **Texts are in the order of their bytes.** -/
theorem bytes_lt_iff {s t : String} : bytes s < bytes t ↔ s < t := by
  have hmono : ∀ {s t : String}, s < t → bytes s < bytes t := by
    intro s t h
    rw [bytes_eq_flatMap, bytes_eq_flatMap]
    exact flatMap_utf8EncodeChar_lt (String.lt_iff_toList_lt.1 h)
  refine ⟨fun h => ?_, hmono⟩
  rcases lt_trichotomy s t with hlt | rfl | hgt
  · exact hlt
  · exact absurd h (List.lt_irrefl _)
  · exact absurd h (List.lt_asymm (hmono hgt))

end Unreferenced.Text
