import Unreferenced.Proofs.Text.LowerCase
import Unreferenced.Walk

/-!
# Exclusion along a path

A directory that an exclusion text excludes is not entered, while a file is excluded by
the text of its own path. The two tests have to agree: what the text of a directory's
path contains, the text of every path below it must contain as well. For the texts as
written this is plain, one being a prefix of the other; for the lower-cased texts it is
not, since a capital sigma is lower-cased by what *follows* it.

It holds because of the separator. What decides the form of a sigma is the next character
that is not ignorable for case, and the separator is such a character and no letter: it
looks just like the end of the text (`Unreferenced.Text.meetsCased_append_slash`). So
lower-casing a path text lower-cases every ancestor's text in place
(`Unreferenced.Text.lower_append_slash`), and exclusion is inherited
(`Unreferenced.isExcluded_anchoredPath_append`).
-/

namespace Unreferenced

/-! ### Lower case at a separator -/

namespace Text

/-- Behind a separator no letter is met, just as at the end of a text. -/
theorem meetsCased_append_slash (cs ds : List Char) :
    meetsCased (cs ++ '/' :: ds) = meetsCased cs := by
  have hignorable : caseIgnorableRanges.has '/' = false := by decide +kernel
  have hcased : casedRanges.has '/' = false := by decide +kernel
  have hslash : meetsCased ('/' :: ds) = false := by
    rw [meetsCased, hignorable, hcased]
    rfl
  rw [meetsCased_append, hslash]
  split
  · next hall => exact (meetsCased_of_all_ignorable hall).symm
  · rfl

/-- What stands before a separator is lower-cased as if the text ended there. -/
theorem lowerWithin_slash (before cs ds : List Char) :
    lowerWithin before cs ('/' :: ds) = lowerWithin before cs [] := by
  refine lowerWithin_congr fun u v _ => ?_
  rw [lowerSigma, lowerSigma, meetsCased_append_slash, List.append_nil]

/-- **The lower-cased text of an ancestor is a prefix** of that of what lies below it. -/
theorem lower_append_slash (front rest : String) :
    (lower front).toList <+: (lower (front ++ "/" ++ rest)).toList := by
  have hslash : (front ++ "/" ++ rest).toList = front.toList ++ '/' :: rest.toList := by
    simp [String.toList_append]
  rw [toList_lower, toList_lower, hslash, lowerWithin_append, List.append_nil, lowerWithin_slash]
  exact List.prefix_append _ _

end Text

/-! ### Inherited exclusion -/

/-- A path is excluded when its lower-cased text contains a lower-cased exclusion text
that is not empty. -/
theorem isExcluded_iff {patterns : List String} {path : FilePath} :
    isExcluded patterns path = true ↔
      ∃ pattern ∈ patterns, pattern ≠ "" ∧
        Text.contains (Text.lower path.text) (Text.lower pattern) = true := by
  simp only [isExcluded, exclusionNeedles, List.any_eq_true, List.mem_filter, List.mem_map,
    Bool.not_eq_true', String.isEmpty_eq_false_iff]
  constructor
  · rintro ⟨_, ⟨⟨pattern, hmem, rfl⟩, hne⟩, hcontains⟩
    exact ⟨pattern, hmem, fun hc => hne (Text.lower_eq_empty_iff.2 hc), hcontains⟩
  · rintro ⟨pattern, hmem, hne, hcontains⟩
    exact ⟨_, ⟨⟨pattern, hmem, rfl⟩, fun hc => hne (Text.lower_eq_empty_iff.1 hc)⟩, hcontains⟩

/-- Exclusion is inherited from a path text to every text that continues it behind a
separator. -/
theorem isExcluded_append_slash {patterns : List String} {front rest : String}
    (h : isExcluded patterns ⟨front⟩ = true) :
    isExcluded patterns ⟨front ++ "/" ++ rest⟩ = true := by
  obtain ⟨pattern, hmem, hne, hcontains⟩ := isExcluded_iff.1 h
  refine isExcluded_iff.2 ⟨pattern, hmem, hne, Text.contains_iff.2 ?_⟩
  exact (Text.contains_iff.1 hcontains).trans (Text.lower_append_slash front rest).isInfix

/-- **Exclusion is inherited**: what excludes a directory excludes everything below it. -/
theorem isExcluded_anchoredPath_append {patterns above below : List String}
    (hne : above ≠ []) (h : isExcluded patterns (anchoredPath above) = true) :
    isExcluded patterns (anchoredPath (above ++ below)) = true := by
  rcases eq_or_ne below [] with rfl | hbelow
  · rwa [List.append_nil]
  have htext : anchoredPath (above ++ below) =
      ⟨"/" ++ "/".intercalate above ++ "/" ++ "/".intercalate below⟩ := by
    rw [anchoredPath, String.intercalate_append_of_ne_nil hne hbelow]
    simp [String.append_assoc]
  rw [htext]
  exact isExcluded_append_slash h

end Unreferenced
