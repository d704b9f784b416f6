import Unreferenced.Asset.Registry
import Unreferenced.Corpus
import Unreferenced.Reference

/-!
# Looking for images

An image is referenced when its name stands between quotes anywhere in the searched text,
or as the value of a `name` attribute. Names that cannot be searched for are left out of
the result.
-/

namespace Unreferenced

/-- The verdict on an image name. -/
def Corpus.assetVerdict (corpus : Corpus) (name : String) : Except NameFault Verdict :=
  match nameFault? name with
  | some fault => .error fault
  | none => .ok ⟨assetForms.find? fun form => corpus.contains (form.text name)⟩

/-- The verdicts on all entries whose names can be searched for, in their order. -/
def Corpus.assetVerdicts (corpus : Corpus) (registry : AssetRegistry) :
    List (AssetEntry × Verdict) :=
  registry.entries.filterMap fun entry =>
    match corpus.assetVerdict entry.name with
    | .ok verdict => some (entry, verdict)
    | .error _ => none

end Unreferenced
