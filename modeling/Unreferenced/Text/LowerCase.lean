import Unreferenced.Text.Table.LowerCase
import Unreferenced.Text.Table.Cased

/-!
# Lower case

The full lower-case mapping of Unicode. Two characters need more than the table. The
capital `I` with a dot above becomes two characters. The capital sigma becomes a final
sigma at the end of a word and an ordinary one elsewhere, so the lower case of a text is
*not* the concatenation of the lower cases of its pieces: what stands before and after a
sigma, marks and dots apart, decides its form.
-/

namespace Unreferenced.Text

/-- The lower case of a character that stands alone. -/
def lowerChar (c : Char) : List Char :=
  if c = '\u0130' then ['i', '\u0307']
  else match lowerRuns.find? (·.covers c) with
    | some run => [run.image c]
    | none => [c]

/-- In ASCII only the capital letters change. -/
theorem lowerChar_of_ascii {c : Char} (h : c.toNat < 0x80) : lowerChar c = [c.toLower] :=
  forall_ascii (P := fun c => lowerChar c = [c.toLower]) (by decide +kernel) h

/-- Whether the first character that is not ignorable for case is a letter with case. -/
def meetsCased : List Char → Bool
  | [] => false
  | c :: rest => if caseIgnorableRanges.has c then meetsCased rest else casedRanges.has c

/-- The form of a capital sigma between the characters before it, nearest first, and
those after it: final exactly when a cased letter comes before and none comes after. -/
def lowerSigma (before after : List Char) : Char :=
  if meetsCased before && !meetsCased after then 'ς' else 'σ'

/-- The lower case of the characters that follow `before`, which is given nearest
first. -/
def lowerAfter (before : List Char) : List Char → List Char
  | [] => []
  | c :: rest =>
    (if c = 'Σ' then [lowerSigma before rest] else lowerChar c) ++ lowerAfter (c :: before) rest

/-- The lower case of a text. -/
def lower (text : String) : String :=
  String.ofList (lowerAfter [] text.toList)

end Unreferenced.Text
