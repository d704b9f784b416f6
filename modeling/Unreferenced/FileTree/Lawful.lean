import Unreferenced.FileTree

/-!
# Lawful file trees

A file tree is lawful when it could be one on a disk: every entry has a name that a path
can spell as one step, and no two entries of a directory share a name. `HoldsFile` says
what regular files lie below a directory, without saying in which order they are met and
without following a link.
-/

namespace Unreferenced

/-- Whether an entry can have a name: one that a path spells as a single step. -/
def isEntryName (name : String) : Bool :=
  (⟨name⟩ : FilePath).components == [.name name] && !name.toList.contains '/'

mutual

/-- Whether an entry is lawful, with everything below it. -/
def Entry.isLawful : Entry → Bool
  | .file name _ => isEntryName name
  | .directory name entries => isEntryName name && areLawful entries
  | .link name _ => isEntryName name

/-- Whether the entries of a directory are lawful and differ in their names. -/
def areLawful : List Entry → Bool
  | [] => true
  | entry :: rest =>
    entry.isLawful && !rest.any (·.name == entry.name) && areLawful rest

end

/-- Whether a file tree is lawful. -/
def FileTree.isLawful (tree : FileTree) : Bool :=
  areLawful tree.entries

/-- The regular files below a directory, by the names that lead to them. -/
inductive HoldsFile : List Entry → List String → ByteArray → Prop
  /-- A file of the directory itself. -/
  | inside {entries : List Entry} {name : String} {contents : ByteArray} :
    .file name contents ∈ entries → HoldsFile entries [name] contents
  /-- A file below one of the directories in it. -/
  | deeper {entries inner : List Entry} {name : String} {names : List String}
      {contents : ByteArray} :
    .directory name inner ∈ entries → HoldsFile inner names contents →
      HoldsFile entries (name :: names) contents

/-- A directory holds a file only under names that lead to it. -/
theorem HoldsFile.ne_nil {entries : List Entry} {names : List String} {contents : ByteArray}
    (h : HoldsFile entries names contents) : names ≠ [] := by
  cases h <;> simp

theorem areLawful_cons_iff {entry : Entry} {rest : List Entry} :
    areLawful (entry :: rest) = true ↔
      entry.isLawful = true ∧ entry.name ∉ rest.map Entry.name ∧ areLawful rest = true := by
  simp only [areLawful, Bool.and_eq_true, Bool.not_eq_true', List.any_eq_false, beq_iff_eq,
    List.mem_map, not_exists, not_and, and_assoc]

theorem areLawful_iff {entries : List Entry} :
    areLawful entries = true ↔
      (∀ entry ∈ entries, entry.isLawful = true) ∧ (entries.map Entry.name).Nodup := by
  induction entries with
  | nil => simp [areLawful]
  | cons entry rest ih =>
    simp only [areLawful_cons_iff, ih, List.forall_mem_cons, List.map_cons, List.nodup_cons,
      and_assoc, and_left_comm]

theorem Entry.isLawful_directory_iff {name : String} {entries : List Entry} :
    (Entry.directory name entries).isLawful = true ↔
      isEntryName name = true ∧ areLawful entries = true := by
  rw [Entry.isLawful, Bool.and_eq_true]

end Unreferenced
