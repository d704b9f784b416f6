import Unreferenced.Text.CodePoint

/-!
# Blank characters and trimming

A character is blank when it has the Unicode property `White_Space`: the line
separators and the spaces of every width, but not the zero-width ones.
-/

namespace Unreferenced.Text

/-- Ranges of the property `White_Space`. -/
def blankRanges : Ranges := [
  (0x09, 0x0d), (0x20, 0x20), (0x85, 0x85), (0xa0, 0xa0), (0x1680, 0x1680),
  (0x2000, 0x200a), (0x2028, 0x2029), (0x202f, 0x202f), (0x205f, 0x205f),
  (0x3000, 0x3000)]

/-- Whether a character is white space. -/
def isBlank (c : Char) : Bool :=
  blankRanges.has c

/-- The characters without the blank ones at their start. -/
def trimStart (cs : List Char) : List Char :=
  cs.dropWhile isBlank

/-- The characters without the blank ones at their end. -/
def trimEnd (cs : List Char) : List Char :=
  (cs.reverse.dropWhile isBlank).reverse

/-- The characters without the blank ones at either end. -/
def trim (cs : List Char) : List Char :=
  trimEnd (trimStart cs)

/-- What is left behind the blank start of a text is nothing when all of it is blank. -/
theorem trimStart_eq_nil_iff {cs : List Char} :
    trimStart cs = [] ↔ ∀ c ∈ cs, isBlank c = true := by
  induction cs with
  | nil => simp [trimStart]
  | cons c rest ih =>
    by_cases hc : isBlank c = true
    · rw [trimStart, List.dropWhile_cons_of_pos hc, List.forall_mem_cons]
      exact ih.trans (and_iff_right hc).symm
    · rw [trimStart, List.dropWhile_cons_of_neg hc]
      simp [hc]

theorem trimEnd_eq_nil_iff {cs : List Char} : trimEnd cs = [] ↔ ∀ c ∈ cs, isBlank c = true :=
  calc trimEnd cs = [] ↔ trimStart cs.reverse = [] := List.reverse_eq_nil_iff
    _ ↔ ∀ c ∈ cs.reverse, isBlank c = true := trimStart_eq_nil_iff
    _ ↔ ∀ c ∈ cs, isBlank c = true := by simp only [List.mem_reverse]

/-- Nothing is left of a trimmed text when all of it is blank. -/
theorem trim_eq_nil_iff {cs : List Char} : trim cs = [] ↔ ∀ c ∈ cs, isBlank c = true := by
  rw [trim, trimEnd_eq_nil_iff]
  refine Iff.trans ⟨fun h => ?_, fun h => by simp [h]⟩ trimStart_eq_nil_iff
  cases hstart : trimStart cs with
  | nil => rfl
  | cons c rest =>
    -- what is left would begin with a character that is not blank
    have hc := List.head?_dropWhile_not isBlank cs
    rw [← trimStart, hstart] at hc
    exact absurd (h c (hstart ▸ List.mem_cons_self)) (Bool.eq_false_iff.1 hc)

/-- Blank characters behind one that is not blank are all that is trimmed there. -/
theorem trimEnd_append {cs blanks : List Char} {c : Char} (h : isBlank c = false)
    (hblanks : ∀ b ∈ blanks, isBlank b = true) : trimEnd (cs ++ c :: blanks) = cs ++ [c] := by
  have hc : ¬isBlank c = true := by simp [h]
  have hreverse : (cs ++ c :: blanks).reverse = blanks.reverse ++ c :: cs.reverse := by simp
  rw [trimEnd, hreverse, List.dropWhile_append_of_pos (by simpa using hblanks),
    List.dropWhile_cons_of_neg hc, List.reverse_cons, List.reverse_reverse]

end Unreferenced.Text
