/-!
# Sets and mappings of characters, given by code points

A set of characters is a list of closed intervals of code points; a mapping is a list
of runs, each moving every `step`-th character of an interval by one distance. Both
are small values that a table module states once and that every question about a
character is answered from.
-/

namespace Unreferenced.Text

/-- What holds of each of the first 128 characters holds of every character of ASCII. -/
theorem forall_ascii {P : Char → Prop} (h : ∀ n : Fin 0x80, P (Char.ofNat n)) {c : Char}
    (hc : c.toNat < 0x80) : P c := by
  have one := h ⟨c.toNat, hc⟩
  rwa [Char.ofNat_toNat] at one

/-- A set of characters as closed intervals of code points. -/
abbrev Ranges := List (Nat × Nat)

/-- Whether a character lies in one of the intervals. -/
def Ranges.has (ranges : Ranges) (c : Char) : Bool :=
  ranges.any fun (first, last) => first ≤ c.toNat && c.toNat ≤ last

theorem Ranges.has_iff {ranges : Ranges} {c : Char} :
    ranges.has c = true ↔ ∃ r ∈ ranges, r.1 ≤ c.toNat ∧ c.toNat ≤ r.2 := by
  simp [Ranges.has]

/-- A run of a case mapping: the characters `first`, `first + step`, … up to `last`
are moved so that `first` becomes `target`. -/
structure CaseRun where
  /-- Code point of the first character that is moved. -/
  first : Nat
  /-- Code point of the last character that is moved. -/
  last : Nat
  /-- Distance between neighbouring characters of the run. -/
  step : Nat
  /-- Image of `first`. -/
  target : Nat
deriving DecidableEq

/-- Whether the run moves the character. -/
def CaseRun.covers (run : CaseRun) (c : Char) : Bool :=
  run.first ≤ c.toNat && c.toNat ≤ run.last && (c.toNat - run.first) % run.step == 0

/-- The image of a character under a run that covers it. -/
def CaseRun.image (run : CaseRun) (c : Char) : Char :=
  Char.ofNat (c.toNat - run.first + run.target)

end Unreferenced.Text
