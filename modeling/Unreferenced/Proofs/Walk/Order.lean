import Mathlib.Data.List.Pairwise
import Mathlib.Data.List.Sort
import Mathlib.Data.String.Basic
import Unreferenced.Proofs.FilePath.Order
import Unreferenced.Proofs.FileTree.Simulation
import Unreferenced.Proofs.Walk.Files

/-!
# The order of a walk

A walk sorts the entries of each directory by name and goes depth first. That gives one
order for the whole walk: the files come strictly ascending by the lists of names that
lead to them, compared name by name, the shorter first where one continues the other
(`Unreferenced.pairwise_regularFiles`). So the files that take part in a scan are in the
order of their paths (`Unreferenced.FileTree.pairwise_before_projectFiles`), which is that
of their components and not that of their texts, in which the separator would be compared
with the characters of the names.

An entry only has files under its own name, so between the files of two entries the first
name decides, and within one entry the induction does. Because the order is strict no file
is met twice, and the files of a smaller walk come in the same order in a larger one
(`Unreferenced.IsSimulation.projectFiles_sublist`).
-/

namespace Unreferenced

variable {settings : Settings} {above : List String}

/-- What is found at an entry lies under the name of the entry. -/
theorem names_of_mem_filesAt {entry : Entry} {file : FoundFile}
    (h : file ∈ filesAt settings above entry) :
    ∃ rest, file.names = above ++ entry.name :: rest := by
  obtain ⟨names, hnames, hholds, -⟩ := holdsFile_of_mem_filesAt settings above entry file h
  cases hholds with
  | inside hin =>
    obtain rfl := List.mem_singleton.1 hin
    exact ⟨[], hnames⟩
  | @deeper _ _ _ rest _ hin _ =>
    obtain rfl := List.mem_singleton.1 hin
    exact ⟨rest, hnames⟩

/-- Of two entries, all files of the one with the smaller name come first. -/
theorem names_lt_of_name_lt {entry entry' : Entry} {file file' : FoundFile}
    (hlt : entry.name < entry'.name) (h : file ∈ filesAt settings above entry)
    (h' : file' ∈ filesAt settings above entry') : file.names < file'.names := by
  obtain ⟨rest, hnames⟩ := names_of_mem_filesAt h
  obtain ⟨rest', hnames'⟩ := names_of_mem_filesAt h'
  rw [hnames, hnames']
  exact List.append_left_lt (List.cons_lt_cons_iff.2 (.inl hlt))

/-- The files of a directory are in order when those of each entry are. -/
theorem pairwise_inNameOrder {entries : List Entry} (hnodup : (entries.map Entry.name).Nodup)
    (heach : ∀ entry ∈ entries,
      (filesAt settings above entry).Pairwise fun f g => f.names < g.names) :
    (inNameOrder (filesAtEach settings above entries)).Pairwise fun f g => f.names < g.names := by
  have hsorted : (sortedBy (·.1) (filesAtEach settings above entries)).Pairwise
      fun p q => p.1 < q.1 := by
    refine pairwise_lt_sortedBy ?_
    rwa [filesAtEach_eq_map, List.map_map]
  have hform : ∀ p ∈ sortedBy (·.1) (filesAtEach settings above entries),
      ∃ entry ∈ entries, (entry.name, filesAt settings above entry) = p := by
    intro p hp
    rw [(sortedBy_perm _).mem_iff, filesAtEach_eq_map] at hp
    exact List.mem_map.1 hp
  rw [inNameOrder, List.pairwise_flatMap]
  -- Within one entry its own order counts, between two the first name.
  constructor
  · intro p hp
    obtain ⟨entry, hmem, rfl⟩ := hform p hp
    exact heach entry hmem
  · refine hsorted.imp_of_mem fun {p q} hp hq hlt => ?_
    obtain ⟨entry, -, rfl⟩ := hform p hp
    obtain ⟨entry', -, rfl⟩ := hform q hq
    exact fun f hf g hg => names_lt_of_name_lt hlt hf hg

mutual

/-- What the walk finds at a lawful entry is in order. -/
theorem pairwise_filesAt (settings : Settings) : ∀ (above : List String) (entry : Entry),
    entry.isLawful = true →
      (filesAt settings above entry).Pairwise fun f g => f.names < g.names
  | above, .file name contents, _ => by
    rw [filesAt]
    split
    · exact .nil
    · exact List.pairwise_singleton ..
  | above, .directory name entries, h => by
    have hinner := (Entry.isLawful_directory_iff.1 h).2
    rw [filesAt]
    split
    · exact .nil
    · exact pairwise_inNameOrder (areLawful_iff.1 hinner).2
        (pairwise_filesAtEach settings (above ++ [name]) entries hinner)
  | above, .link name target, _ => by
    rw [filesAt]
    exact .nil

/-- The same for each entry of a lawful directory. -/
theorem pairwise_filesAtEach (settings : Settings) : ∀ (above : List String)
    (entries : List Entry), areLawful entries = true → ∀ entry ∈ entries,
      (filesAt settings above entry).Pairwise fun f g => f.names < g.names
  | above, [], _ => by
    intro entry hmem
    cases hmem
  | above, first :: rest, h => by
    rw [areLawful, Bool.and_eq_true, Bool.and_eq_true] at h
    intro entry hmem
    rcases List.mem_cons.1 hmem with hfirst | hmem
    · rw [hfirst]
      exact pairwise_filesAt settings above first h.1.1
    · exact pairwise_filesAtEach settings above rest h.2 entry hmem

end

/-- **The files of a walk are strictly ascending by the names that lead to them.** -/
theorem pairwise_regularFiles {entries : List Entry} (h : areLawful entries = true) :
    (regularFiles settings entries).Pairwise fun f g => f.names < g.names :=
  pairwise_inNameOrder (areLawful_iff.1 h).2 (pairwise_filesAtEach settings [] entries h)

/-! ### What follows from the order -/

/-- **A walk meets the files of a smaller directory in the same order**: the order does
not depend on what else is there. -/
theorem sublist_regularFiles {entries entries' : List Entry} (h : areLawful entries = true)
    (h' : areLawful entries' = true)
    (hholds : ∀ names contents, HoldsFile entries names contents →
      HoldsFile entries' names contents) :
    (regularFiles settings entries).Sublist (regularFiles settings entries') := by
  have hantisymm : Std.Antisymm fun f g : FoundFile => f.names < g.names :=
    ⟨fun f g hfg hgf => absurd hgf (List.lt_asymm hfg)⟩
  have hnodup : (regularFiles settings entries).Nodup := by
    refine (pairwise_regularFiles h).imp fun {f g} hlt => ?_
    rintro rfl
    exact List.lt_irrefl _ hlt
  have hsubset : regularFiles settings entries ⊆ regularFiles settings entries' := by
    intro file hfile
    obtain ⟨hold, hpasses⟩ := mem_regularFiles_iff.1 hfile
    exact mem_regularFiles_iff.2 ⟨hholds _ _ hold, hpasses⟩
  exact List.sublist_of_subperm_of_pairwise (List.subperm_of_subset hnodup hsubset)
    (pairwise_regularFiles h) (pairwise_regularFiles h')

/-- Lawful directories that hold the same files have the same walk. -/
theorem regularFiles_congr {entries entries' : List Entry} (h : areLawful entries = true)
    (h' : areLawful entries' = true)
    (hholds : ∀ names contents, HoldsFile entries names contents ↔
      HoldsFile entries' names contents) :
    regularFiles settings entries = regularFiles settings entries' :=
  (sublist_regularFiles h h' fun names contents => (hholds names contents).1).antisymm
    (sublist_regularFiles h' h fun names contents => (hholds names contents).2)

/-! ### The files that take part in a scan -/

/-- **The files that take part in a scan are in the order of their paths.** -/
theorem FileTree.pairwise_before_projectFiles {tree : FileTree} (hlawful : tree.isLawful = true)
    {root : FilePath} {position : List String} {entries : List Entry}
    (hroot : tree.find? root = some (.directory position entries)) (settings : Settings) :
    (tree.projectFiles settings root).Pairwise fun f g => f.path.Before g.path := by
  have hentries := areLawful_of_find? hlawful hroot
  rw [projectFiles, found_of_directory hroot]
  split
  · exact .nil
  · refine List.pairwise_filterMap.2 ((pairwise_regularFiles hentries).imp_of_mem ?_)
    intro found found' hfound hfound' hlt file hfile file' hfile'
    have hholds := (mem_regularFiles_iff.1 hfound).1
    have hholds' := (mem_regularFiles_iff.1 hfound').1
    obtain ⟨rfl, -⟩ := FoundFile.accepted?_eq_some_iff.1 hfile
    obtain ⟨rfl, -⟩ := FoundFile.accepted?_eq_some_iff.1 hfile'
    exact FilePath.joinAll_before root (hholds.isEntryName hentries)
      (hholds'.isEntryName hentries) hlt

/-- **No two files that take part in a scan have the same path.** -/
theorem FileTree.pairwise_projectFiles {tree : FileTree} (hlawful : tree.isLawful = true)
    {root : FilePath} {position : List String} {entries : List Entry}
    (hroot : tree.find? root = some (.directory position entries)) (settings : Settings) :
    (tree.projectFiles settings root).Pairwise fun f g => ¬f.path.Same g.path :=
  (pairwise_before_projectFiles hlawful hroot settings).imp FilePath.Before.not_same

/-- Where no two files have the same path, a path tells them apart. -/
theorem eq_of_same_path {files : List ProjectFile}
    (h : files.Pairwise fun f g => ¬f.path.Same g.path) {f g : ProjectFile} (hf : f ∈ files)
    (hg : g ∈ files) (hsame : f.path.Same g.path) : f = g := by
  by_contra hne
  have hsymm : Std.Symm fun f g : ProjectFile => ¬f.path.Same g.path :=
    ⟨fun _ _ hnot hc => hnot hc.symm⟩
  exact h.forall hf hg hne hsame

/-- Files that take part in a scan are told apart by their paths. -/
theorem FileTree.same_path_iff {tree : FileTree} (hlawful : tree.isLawful = true)
    {root : FilePath} {position : List String} {entries : List Entry}
    (hroot : tree.find? root = some (.directory position entries)) {f g : ProjectFile}
    (hf : f ∈ tree.projectFiles settings root) (hg : g ∈ tree.projectFiles settings root) :
    f.path.Same g.path ↔ f = g := by
  constructor
  · exact eq_of_same_path (pairwise_projectFiles hlawful hroot settings) hf hg
  · rintro rfl
    exact .refl _

/-- **A walk of a tree that holds more finds what it found**, in the same order. -/
theorem IsSimulation.projectFiles_sublist {R : List Entry → List Entry → Prop}
    (hR : IsSimulation R) {tree tree' : FileTree} (h : R tree.entries tree'.entries)
    (hlawful : tree.isLawful = true) (hlawful' : tree'.isLawful = true)
    (hworking : tree'.workingDirectory = tree.workingDirectory) {root : FilePath}
    (hroot : tree.isDirectory root = true) (settings : Settings) :
    (tree.projectFiles settings root).Sublist (tree'.projectFiles settings root) := by
  obtain ⟨position, entries, hplace⟩ := FileTree.isDirectory_iff.1 hroot
  obtain ⟨entries', hplace', hentries⟩ := hR.find? h hlawful' hworking hplace
  rw [FileTree.projectFiles, FileTree.projectFiles, FileTree.found_of_directory hplace,
    FileTree.found_of_directory hplace']
  refine List.Sublist.filterMap _ ?_
  split
  · exact .slnil
  · exact sublist_regularFiles (FileTree.areLawful_of_find? hlawful hplace)
      (FileTree.areLawful_of_find? hlawful' hplace') fun _ _ => hR.holdsFile hentries

end Unreferenced
