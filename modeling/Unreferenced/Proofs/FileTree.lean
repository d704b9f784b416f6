import Unreferenced.FileTree.Lawful
import Unreferenced.Sorting

/-!
# Where a look-up arrives

A path is looked up through links and `..` steps, but it *arrives* at a place that plain
names lead to from the top of the tree: that is what a position is. So what holds of every
directory of a tree, lawfulness above all, holds of the directory that a path names
(`Unreferenced.FileTree.areLawful_of_find?`).
-/

namespace Unreferenced

/-! ### Lawfulness below a directory -/

/-- The entries of a directory in a lawful directory are lawful. -/
theorem areLawful_of_mem {entries inner : List Entry} {name : String}
    (h : areLawful entries = true) (hmem : .directory name inner ∈ entries) :
    areLawful inner = true :=
  (Entry.isLawful_directory_iff.1 ((areLawful_iff.1 h).1 _ hmem)).2

/-- An entry of a lawful directory has a lawful name. -/
theorem isEntryName_of_mem {entries : List Entry} {entry : Entry}
    (h : areLawful entries = true) (hmem : entry ∈ entries) : isEntryName entry.name = true := by
  have hentry := (areLawful_iff.1 h).1 _ hmem
  cases entry with
  | file name contents => simpa [Entry.isLawful, Entry.name] using hentry
  | directory name inner => exact (Entry.isLawful_directory_iff.1 hentry).1
  | link name target => simpa [Entry.isLawful, Entry.name] using hentry

/-- The names that lead to a file in a lawful directory are lawful. -/
theorem HoldsFile.isEntryName {entries : List Entry} {names : List String}
    {contents : ByteArray} (h : HoldsFile entries names contents)
    (hlawful : areLawful entries = true) :
    ∀ name ∈ names, Unreferenced.isEntryName name = true := by
  induction h with
  | inside hmem =>
    have hname := isEntryName_of_mem hlawful hmem
    intro n hn
    rw [List.mem_singleton.1 hn]
    exact hname
  | deeper hmem _ ih =>
    have hname := isEntryName_of_mem hlawful hmem
    intro n hn
    rcases List.mem_cons.1 hn with rfl | hn
    · exact hname
    · exact ih (areLawful_of_mem hlawful hmem) n hn

/-- What a name finds is an entry of that name. -/
theorem mem_of_entryNamed? {name : String} {entries : List Entry} {entry : Entry}
    (h : entryNamed? name entries = some entry) : entry ∈ entries ∧ entry.name = name :=
  ⟨List.mem_of_find?_eq_some h, by simpa using List.find?_some h⟩

/-- In a lawful directory a name finds the entry that has it. -/
theorem entryNamed?_eq_some_iff {name : String} {entries : List Entry} {entry : Entry}
    (h : areLawful entries = true) :
    entryNamed? name entries = some entry ↔ entry ∈ entries ∧ entry.name = name :=
  find?_name_eq_some_iff (areLawful_iff.1 h).2

/-- A part of a lawful directory is lawful. -/
theorem areLawful_of_sublist {entries entries' : List Entry} (h : areLawful entries' = true)
    (hsub : entries.Sublist entries') : areLawful entries = true := by
  obtain ⟨hentries, hnodup⟩ := areLawful_iff.1 h
  exact areLawful_iff.2 ⟨fun entry hmem => hentries entry (hsub.subset hmem),
    hnodup.sublist (hsub.map _)⟩

/-- The names of a position lead only to lawful directories. -/
theorem areLawful_of_entriesAt? {entries inner : List Entry} {position : List String}
    (h : areLawful entries = true) (hat : entriesAt? entries position = some inner) :
    areLawful inner = true := by
  induction position generalizing entries with
  | nil =>
    rw [entriesAt?, Option.some.injEq] at hat
    exact hat ▸ h
  | cons name rest ih =>
    rw [entriesAt?] at hat
    split at hat
    · next hfound =>
      exact ih (areLawful_of_mem h ((entryNamed?_eq_some_iff h).1 hfound).1) hat
    · cases hat

/-! ### The files of some of the entries -/

theorem holdsFile_append_iff {before after : List Entry} {names : List String}
    {contents : ByteArray} :
    HoldsFile (before ++ after) names contents ↔
      HoldsFile before names contents ∨ HoldsFile after names contents := by
  constructor
  · intro h
    cases h with
    | inside hmem => exact (List.mem_append.1 hmem).imp .inside .inside
    | deeper hmem hrest => exact (List.mem_append.1 hmem).imp (.deeper · hrest) (.deeper · hrest)
  · rintro (h | h)
    · cases h with
      | inside hmem => exact .inside (List.mem_append_left _ hmem)
      | deeper hmem hrest => exact .deeper (List.mem_append_left _ hmem) hrest
    · cases h with
      | inside hmem => exact .inside (List.mem_append_right _ hmem)
      | deeper hmem hrest => exact .deeper (List.mem_append_right _ hmem) hrest

theorem holdsFile_cons_iff {entry : Entry} {rest : List Entry} {names : List String}
    {contents : ByteArray} :
    HoldsFile (entry :: rest) names contents ↔
      HoldsFile [entry] names contents ∨ HoldsFile rest names contents := by
  rw [← holdsFile_append_iff, List.singleton_append]

theorem holdsFile_file_iff {name : String} {names : List String} {bytes contents : ByteArray} :
    HoldsFile [.file name bytes] names contents ↔ names = [name] ∧ contents = bytes := by
  constructor
  · intro h
    cases h with
    | inside hmem =>
      cases List.mem_singleton.1 hmem
      exact ⟨rfl, rfl⟩
    | deeper hmem => cases List.mem_singleton.1 hmem
  · rintro ⟨rfl, rfl⟩
    exact .inside List.mem_cons_self

theorem holdsFile_directory_iff {name : String} {inner : List Entry} {names : List String}
    {contents : ByteArray} :
    HoldsFile [.directory name inner] names contents ↔
      ∃ rest, names = name :: rest ∧ HoldsFile inner rest contents := by
  constructor
  · intro h
    cases h with
    | inside hmem => cases List.mem_singleton.1 hmem
    | deeper hmem hrest =>
      cases List.mem_singleton.1 hmem
      exact ⟨_, rfl, hrest⟩
  · rintro ⟨rest, rfl, h⟩
    exact .deeper List.mem_cons_self h

theorem not_holdsFile_nil {names : List String} {contents : ByteArray} :
    ¬HoldsFile [] names contents := by
  intro h
  cases h with
  | inside hmem => cases hmem
  | deeper hmem => cases hmem

/-! ### Arriving at a directory -/

namespace FileTree

variable {tree : FileTree}

/-- Steps without links arrive at the directory of their position. -/
theorem entriesAt?_of_advance {position : List String} {steps : List FilePath.Component}
    {arrived : List String} {entries : List Entry}
    (h : tree.advance position steps = .arrived (.directory arrived entries)) :
    entriesAt? tree.entries arrived = some entries := by
  fun_induction advance tree position steps with
  | case1 position entries' hat =>
    simp only [Progress.arrived.injEq, Place.directory.injEq] at h
    exact h.1 ▸ h.2 ▸ hat
  | case2 => cases h
  | case3 _ _ ih => exact ih h
  | case4 _ _ ih => exact ih h
  | case5 _ _ ih => exact ih h
  | case6 => cases h
  | case7 => simp at h
  | case8 => cases h
  | case9 _ _ _ _ _ _ _ _ ih => exact ih h
  | case10 => simp at h
  | case11 => cases h
  | case12 => cases h

/-- Following links, too, arrives at the directory of a position. -/
theorem entriesAt?_of_follow {links : Nat} {position : List String}
    {steps : List FilePath.Component} {arrived : List String} {entries : List Entry}
    (h : tree.follow links position steps = some (.directory arrived entries)) :
    entriesAt? tree.entries arrived = some entries := by
  fun_induction follow tree links position steps with
  | case1 _ _ _ place hplace =>
    rw [Option.some.injEq] at h
    exact entriesAt?_of_advance (h ▸ hplace)
  | case2 => cases h
  | case3 => cases h
  | case4 _ _ _ _ _ _ _ ih => exact ih h

/-- A path that names a directory names the one of its position. -/
theorem entriesAt?_of_find? {path : FilePath} {position : List String} {entries : List Entry}
    (h : tree.find? path = some (.directory position entries)) :
    entriesAt? tree.entries position = some entries := by
  rw [find?] at h
  split at h
  · exact entriesAt?_of_follow h
  · cases h

/-- **A path names only lawful directories of a lawful tree.** -/
theorem areLawful_of_find? {path : FilePath} {position : List String} {entries : List Entry}
    (hlawful : tree.isLawful = true)
    (h : tree.find? path = some (.directory position entries)) : areLawful entries = true :=
  areLawful_of_entriesAt? hlawful (entriesAt?_of_find? h)

theorem isDirectory_iff {path : FilePath} :
    tree.isDirectory path = true ↔
      ∃ position entries, tree.find? path = some (.directory position entries) := by
  rw [isDirectory]
  split
  · next position entries h => simp [h]
  · next h =>
    simp only [Bool.false_eq_true, false_iff, not_exists]
    exact fun position entries => h position entries

end FileTree

end Unreferenced
