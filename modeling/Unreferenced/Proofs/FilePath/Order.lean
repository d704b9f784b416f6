import Unreferenced.Proofs.FilePath
import Unreferenced.Proofs.Text.ByteOrder

/-!
# The order of paths

Paths are compared component by component, and components byte by byte
(`Unreferenced.FilePath.Before`). That is not the order of their texts, in which the
separator takes part: what lies below `a` comes before `a.b`, although the separator is
greater than the dot.

Names that are joined to one path bring their own order along
(`Unreferenced.FilePath.joinAll_before`), since they become components and the order of
texts is that of their bytes.
-/

namespace Unreferenced.FilePath

variable {p q : FilePath}

/-- The path comes before the other one: component by component, each by its bytes, and
before those that continue it. -/
def Before (p q : FilePath) : Prop :=
  p.components.map (fun c => Text.bytes c.text) < q.components.map (fun c => Text.bytes c.text)

instance (p q : FilePath) : Decidable (p.Before q) :=
  inferInstanceAs (Decidable (_ < _))

theorem Before.asymm (h : p.Before q) : ¬q.Before p :=
  List.lt_asymm h

theorem Before.not_same (h : p.Before q) : ¬p.Same q := by
  intro hsame
  rw [Before, show p.components = q.components from hsame] at h
  exact List.lt_irrefl _ h

/-- **Names joined to one path put the paths in their own order.** -/
theorem joinAll_before (path : FilePath) {names names' : List String}
    (hnames : ∀ name ∈ names, isEntryName name = true)
    (hnames' : ∀ name ∈ names', isEntryName name = true) (h : names < names') :
    (names.foldl join path).Before (names'.foldl join path) := by
  rw [Before, components_joinAll path hnames, components_joinAll path hnames', List.map_append,
    List.map_append, List.map_map, List.map_map]
  exact List.append_left_lt (List.map_lt (fun _ _ => Text.bytes_lt_iff.2) h)

/-- Below a directory, and then what its name starts: the texts are the other way round. -/
example : (⟨"a/b"⟩ : FilePath).Before ⟨"a.b"⟩ ∧ Text.bytes "a.b" < Text.bytes "a/b" := by
  decide

end Unreferenced.FilePath
