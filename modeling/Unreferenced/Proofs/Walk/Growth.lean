import Unreferenced.Proofs.Walk.Order

/-!
# One more file

A tree that has gained a regular file, in a directory that was there or in a new one, holds
that file and every file that it held (`Unreferenced.GainsFile.exists_new`), and a path
that named a directory still names it: the new file stands at a name that was free, so no
step of a look-up comes to another entry than before (`Unreferenced.Keeps.isSimulation`).
What a walk of the larger tree accepts therefore contains what a walk of the smaller one
accepts, and in the same order
(`Unreferenced.FileTree.projectFiles_sublist_of_gains`).

The larger tree is assumed to be lawful, and then so is the smaller.
-/

namespace Unreferenced

/-- One regular file more, anywhere below a directory. -/
inductive GainsFile : List Entry → List Entry → Prop
  /-- In the directory itself, between any two of its entries. -/
  | inside {before after : List Entry} {name : String} {contents : ByteArray} :
    GainsFile (before ++ after) (before ++ .file name contents :: after)
  /-- In a directory that was not there. -/
  | created {before after inner : List Entry} {name : String} :
    GainsFile [] inner → GainsFile (before ++ after) (before ++ .directory name inner :: after)
  /-- In one of the directories in it. -/
  | deeper {before after inner inner' : List Entry} {name : String} :
    GainsFile inner inner' →
      GainsFile (before ++ .directory name inner :: after)
        (before ++ .directory name inner' :: after)

/-- The same entries, or one regular file more. -/
def Keeps (entries entries' : List Entry) : Prop :=
  entries = entries' ∨ GainsFile entries entries'

variable {entries entries' : List Entry}

/-! ### The entries of a directory -/

/-- An entry stays as it is, or is the directory that the file went into. -/
theorem GainsFile.mem_or (h : GainsFile entries entries') {entry : Entry}
    (hmem : entry ∈ entries) :
    entry ∈ entries' ∨ ∃ name inner inner', entry = .directory name inner ∧
      .directory name inner' ∈ entries' ∧ GainsFile inner inner' := by
  cases h with
  | inside =>
    rcases List.mem_append.1 hmem with hmem | hmem
    · exact .inl (List.mem_append_left _ hmem)
    · exact .inl (List.mem_append_right _ (List.mem_cons_of_mem _ hmem))
  | created =>
    rcases List.mem_append.1 hmem with hmem | hmem
    · exact .inl (List.mem_append_left _ hmem)
    · exact .inl (List.mem_append_right _ (List.mem_cons_of_mem _ hmem))
  | deeper hinner =>
    rcases List.mem_append.1 hmem with hmem | hmem
    · exact .inl (List.mem_append_left _ hmem)
    · rcases List.mem_cons.1 hmem with rfl | hmem
      · exact .inr ⟨_, _, _, rfl, List.mem_append_right _ List.mem_cons_self, hinner⟩
      · exact .inl (List.mem_append_right _ (List.mem_cons_of_mem _ hmem))

/-- A directory is lawful if it is lawful with one more file. -/
theorem GainsFile.lawful (h : GainsFile entries entries')
    (hlawful : areLawful entries' = true) : areLawful entries = true := by
  induction h with
  | inside => exact areLawful_of_sublist hlawful (by simp)
  | created => exact areLawful_of_sublist hlawful (by simp)
  | @deeper before after inner inner' name _ ih =>
    obtain ⟨hentries, hnodup⟩ := areLawful_iff.1 hlawful
    have hdirectory := Entry.isLawful_directory_iff.1 (hentries (.directory name inner') (by simp))
    refine areLawful_iff.2 ⟨fun entry hmem => ?_, by simpa [Entry.name] using hnodup⟩
    rcases List.mem_append.1 hmem with hmem | hmem
    · exact hentries entry (List.mem_append_left _ hmem)
    · rcases List.mem_cons.1 hmem with rfl | hmem
      · exact Entry.isLawful_directory_iff.2 ⟨hdirectory.1, ih hdirectory.2⟩
      · exact hentries entry (List.mem_append_right _ (List.mem_cons_of_mem _ hmem))

/-! ### The new file -/

/-- A directory with one more file below it has one more file. -/
theorem holdsFile_directory_gains_iff {name : String} {inner inner' : List Entry}
    {new : List String} {bytes : ByteArray}
    (hnew : ∀ names contents, HoldsFile inner' names contents ↔
      (names = new ∧ contents = bytes) ∨ HoldsFile inner names contents)
    {names : List String} {contents : ByteArray} :
    HoldsFile [.directory name inner'] names contents ↔
      (names = name :: new ∧ contents = bytes) ∨
        HoldsFile [.directory name inner] names contents := by
  simp only [holdsFile_directory_iff, hnew]
  constructor
  · rintro ⟨rest, rfl, ⟨rfl, rfl⟩ | hrest⟩
    · exact .inl ⟨rfl, rfl⟩
    · exact .inr ⟨rest, rfl, hrest⟩
  · rintro (⟨rfl, rfl⟩ | ⟨rest, rfl, hrest⟩)
    · exact ⟨new, rfl, .inl ⟨rfl, rfl⟩⟩
    · exact ⟨rest, rfl, .inr hrest⟩

/-- **Exactly one file is new**, and every other file is where it was. -/
theorem GainsFile.exists_new (h : GainsFile entries entries') :
    ∃ new bytes, ∀ names contents, HoldsFile entries' names contents ↔
      (names = new ∧ contents = bytes) ∨ HoldsFile entries names contents := by
  induction h with
  | @inside before after name bytes =>
    refine ⟨[name], bytes, fun names contents => ?_⟩
    rw [holdsFile_append_iff, holdsFile_cons_iff, holdsFile_file_iff, holdsFile_append_iff]
    exact or_left_comm
  | @created before after inner name _ ih =>
    obtain ⟨new, bytes, hnew⟩ := ih
    refine ⟨name :: new, bytes, fun names contents => ?_⟩
    have hempty : ¬HoldsFile [.directory name []] names contents := by
      rw [holdsFile_directory_iff]
      rintro ⟨rest, -, hrest⟩
      exact not_holdsFile_nil hrest
    rw [holdsFile_append_iff, holdsFile_cons_iff, holdsFile_directory_gains_iff hnew,
      or_iff_left hempty, holdsFile_append_iff]
    exact or_left_comm
  | @deeper before after inner inner' name _ ih =>
    obtain ⟨new, bytes, hnew⟩ := ih
    refine ⟨name :: new, bytes, fun names contents => ?_⟩
    rw [holdsFile_append_iff, holdsFile_cons_iff, holdsFile_directory_gains_iff hnew, or_assoc,
      ← holdsFile_cons_iff, holdsFile_append_iff]
    exact or_left_comm

/-! ### Everything that was there -/

namespace Keeps

theorem lawful (h : Keeps entries entries') (hlawful : areLawful entries' = true) :
    areLawful entries = true := by
  rcases h with rfl | h
  · exact hlawful
  · exact h.lawful hlawful

/-- **Every look-up of a directory goes on as before.** -/
theorem isSimulation : IsSimulation Keeps := by
  refine isSimulation_of_mem_or (fun _ => .inl rfl) fun h entry hmem => ?_
  rcases h with rfl | h
  · exact .inl hmem
  · rcases h.mem_or hmem with hmem | ⟨name, inner, inner', hentry, hmem, hinner⟩
    · exact .inl hmem
    · exact .inr ⟨name, inner, inner', hentry, hmem, .inr hinner⟩

end Keeps

/-! ### Looking up a path -/

namespace FileTree

variable {tree tree' : FileTree} (hkeeps : Keeps tree.entries tree'.entries)
  (hlawful : tree'.isLawful = true) (hworking : tree'.workingDirectory = tree.workingDirectory)

include hkeeps hlawful hworking

/-- **A path that names a directory still names it.** -/
theorem find?_of_gains {path : FilePath} {position : List String} {entries : List Entry}
    (h : tree.find? path = some (.directory position entries)) :
    ∃ entries', tree'.find? path = some (.directory position entries') ∧ Keeps entries entries' :=
  Keeps.isSimulation.find? hkeeps hlawful hworking h

/-- **What takes part in a scan still does**, in the same order. -/
theorem projectFiles_sublist_of_gains {root : FilePath} (hroot : tree.isDirectory root = true)
    (settings : Settings) :
    (tree.projectFiles settings root).Sublist (tree'.projectFiles settings root) :=
  Keeps.isSimulation.projectFiles_sublist hkeeps (hkeeps.lawful hlawful) hlawful hworking hroot
    settings

end FileTree

end Unreferenced
