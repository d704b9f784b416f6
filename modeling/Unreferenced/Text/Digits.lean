/-!
# Digits

Numbers as they are written in the digits of a base up to sixteen, and characters as they
are written by the digits of their code points. A digit that is written is read back, and
so is the code point of every character.
-/

namespace Unreferenced.Text

/-- The digits of a number in lower-case hexadecimal, without padding. -/
def hexDigits (n : Nat) : List Char :=
  Nat.toDigits 16 n

/-- The value of a hexadecimal digit. -/
def hexValue? (c : Char) : Option Nat :=
  if '0' ≤ c && c ≤ '9' then some (c.toNat - '0'.toNat)
  else if 'a' ≤ c && c ≤ 'f' then some (c.toNat - 'a'.toNat + 10)
  else if 'A' ≤ c && c ≤ 'F' then some (c.toNat - 'A'.toNat + 10)
  else none

/-- The value of a number of hexadecimal digits. -/
def hexNumber? (digits : List Char) : Option Nat :=
  digits.foldlM (fun value c => (hexValue? c).map (16 * value + ·)) 0

/-- The value of digits in a base, characters that are no digits counting as zero. -/
def digitsValue (base : Nat) (digits : List Char) : Nat :=
  digits.foldl (fun value c => base * value + (hexValue? c).getD 0) 0

/-- The character with a code point, when there is one. -/
def charOfCode? (code : Nat) : Option Char :=
  if h : code.isValidChar then some (Char.ofNatAux code h) else none

theorem hexValue?_digitChar {n : Nat} (h : n < 16) : hexValue? (Nat.digitChar n) = some n :=
  (show ∀ m : Fin 16, hexValue? (Nat.digitChar m) = some m.val by decide) ⟨n, h⟩

theorem charOfCode?_toNat (c : Char) : charOfCode? c.toNat = some c := by
  have h : c.toNat.isValidChar := c.valid
  unfold charOfCode?
  rw [dif_pos h]
  rfl

theorem toNat_of_charOfCode? {code : Nat} {c : Char} (h : charOfCode? code = some c) :
    c.toNat = code := by
  by_cases hvalid : code.isValidChar
  · rw [charOfCode?, dif_pos hvalid] at h
    cases h
    rfl
  · rw [charOfCode?, dif_neg hvalid] at h
    cases h

end Unreferenced.Text
