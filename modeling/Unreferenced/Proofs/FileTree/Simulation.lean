import Unreferenced.Proofs.FileTree

/-!
# Directories that hold at least as much

Two trees may differ in what no look-up of a directory notices: a file that is new, or the
order in which entries are listed. What such differences have in common is a relation
between directories along which every file, every link and every directory is found again,
and a directory with contents that are related in turn
(`Unreferenced.IsSimulation`). Along such a relation a look-up takes the same steps
in both trees, since each step only asks for an entry by its name; so a path that names a
directory names a related one in the other tree
(`Unreferenced.IsSimulation.find?`), with every file below it
(`Unreferenced.IsSimulation.holdsFile`).
-/

namespace Unreferenced

/-- What is in the first of two related directories is in the second, and what is in a
directory in it is in one of the same name, to which it is related again. -/
structure IsSimulation (R : List Entry → List Entry → Prop) : Prop where
  /-- Every file is found again. -/
  file {entries entries' : List Entry} {name : String} {contents : ByteArray} :
    R entries entries' → .file name contents ∈ entries → .file name contents ∈ entries'
  /-- Every link is found again. -/
  link {entries entries' : List Entry} {name target : String} :
    R entries entries' → .link name target ∈ entries → .link name target ∈ entries'
  /-- Every directory is found again, with related contents. -/
  directory {entries entries' : List Entry} {name : String} {inner : List Entry} :
    R entries entries' → .directory name inner ∈ entries →
      ∃ inner', .directory name inner' ∈ entries' ∧ R inner inner'

/-- A relation is a simulation when every entry stays as it is, or is a directory whose
contents come to be related. -/
theorem isSimulation_of_mem_or {R : List Entry → List Entry → Prop}
    (hrefl : ∀ entries, R entries entries)
    (hmem : ∀ {entries entries'}, R entries entries' → ∀ entry ∈ entries, entry ∈ entries' ∨
      ∃ name inner inner', entry = .directory name inner ∧ .directory name inner' ∈ entries' ∧
        R inner inner') : IsSimulation R where
  file h hin := by
    rcases hmem h _ hin with hin | ⟨_, _, _, hentry, -, -⟩
    · exact hin
    · cases hentry
  link h hin := by
    rcases hmem h _ hin with hin | ⟨_, _, _, hentry, -, -⟩
    · exact hin
    · cases hentry
  directory h hin := by
    rcases hmem h _ hin with hin | ⟨_, _, inner', hentry, hin, hinner⟩
    · exact ⟨_, hin, hrefl _⟩
    · cases hentry
      exact ⟨inner', hin, hinner⟩

namespace IsSimulation

variable {R : List Entry → List Entry → Prop} (hR : IsSimulation R)

include hR

/-! ### Below one directory -/

variable {entries entries' : List Entry}

/-- **Every file below the first directory is below the second.** -/
theorem holdsFile (h : R entries entries') {names : List String} {contents : ByteArray}
    (hholds : HoldsFile entries names contents) : HoldsFile entries' names contents := by
  induction hholds generalizing entries' with
  | inside hmem => exact .inside (hR.file h hmem)
  | deeper hmem _ ih =>
    obtain ⟨inner', hmem', hinner⟩ := hR.directory h hmem
    exact .deeper hmem' (ih hinner)

/-- A name that leads to a directory still does. -/
theorem entryNamed?_directory (h : R entries entries') (hlawful : areLawful entries' = true)
    {name name' : String} {inner : List Entry}
    (hfound : entryNamed? name entries = some (.directory name' inner)) :
    ∃ inner', entryNamed? name entries' = some (.directory name' inner') ∧ R inner inner' := by
  obtain ⟨hmem, hname⟩ := mem_of_entryNamed? hfound
  obtain ⟨inner', hmem', hinner⟩ := hR.directory h hmem
  exact ⟨inner', (entryNamed?_eq_some_iff hlawful).2 ⟨hmem', hname⟩, hinner⟩

/-- A name that leads to a link still does. -/
theorem entryNamed?_link (h : R entries entries') (hlawful : areLawful entries' = true)
    {name name' target : String}
    (hfound : entryNamed? name entries = some (.link name' target)) :
    entryNamed? name entries' = some (.link name' target) := by
  obtain ⟨hmem, hname⟩ := mem_of_entryNamed? hfound
  exact (entryNamed?_eq_some_iff hlawful).2 ⟨hR.link h hmem, hname⟩

/-- A position of the first directory is one of the second. -/
theorem exists_entriesAt? (h : R entries entries') (hlawful : areLawful entries' = true)
    {position : List String} {arrived : List Entry}
    (hat : entriesAt? entries position = some arrived) :
    ∃ arrived', entriesAt? entries' position = some arrived' ∧ R arrived arrived' := by
  induction position generalizing entries entries' with
  | nil =>
    rw [entriesAt?, Option.some.injEq] at hat
    exact ⟨entries', rfl, hat ▸ h⟩
  | cons name rest ih =>
    rw [entriesAt?] at hat
    split at hat
    · next hfound =>
      obtain ⟨inner', hfound', hinner⟩ := hR.entryNamed?_directory h hlawful hfound
      have hlawful' := areLawful_of_mem hlawful ((entryNamed?_eq_some_iff hlawful).1 hfound').1
      rw [entriesAt?, hfound']
      exact ih hinner hlawful' hat
    · cases hat

/-! ### Looking up a path -/

section LookUp

variable {tree tree' : FileTree} (h : R tree.entries tree'.entries)
  (hlawful : tree'.isLawful = true)

include h hlawful

/-- A step into a directory is still one. -/
theorem advance_name {position : List String} {name name' : String}
    {rest : List FilePath.Component} {found inner : List Entry}
    (hat : entriesAt? tree.entries position = some found)
    (hname : entryNamed? name found = some (.directory name' inner)) :
    tree'.advance position (.name name :: rest) = tree'.advance (position ++ [name]) rest := by
  obtain ⟨found', hat', hfound⟩ := hR.exists_entriesAt? h hlawful hat
  have hlawful' := areLawful_of_entriesAt? hlawful hat'
  obtain ⟨inner', hname', -⟩ := hR.entryNamed?_directory hfound hlawful' hname
  rw [FileTree.advance, hat']
  dsimp only
  rw [hname']

/-- Steps that arrive at a directory still arrive there. -/
theorem advance_arrived {position : List String} {steps : List FilePath.Component}
    {arrived : List String} {entries : List Entry}
    (hsteps : tree.advance position steps = .arrived (.directory arrived entries)) :
    ∃ entries', tree'.advance position steps = .arrived (.directory arrived entries') ∧
      R entries entries' := by
  fun_induction FileTree.advance tree position steps with
  | case1 position found hat =>
    simp only [FileTree.Progress.arrived.injEq, Place.directory.injEq] at hsteps
    obtain ⟨rfl, rfl⟩ := hsteps
    obtain ⟨found', hat', hfound⟩ := hR.exists_entriesAt? h hlawful hat
    exact ⟨found', by rw [FileTree.advance, hat'], hfound⟩
  | case2 => cases hsteps
  | case3 _ _ ih => exact ih hsteps
  | case4 _ _ ih => exact ih hsteps
  | case5 _ _ ih => exact ih hsteps
  | case6 => cases hsteps
  | case7 => simp at hsteps
  | case8 => cases hsteps
  | case9 position name rest found hat name' inner hname ih =>
    -- The directory may hold something else, but its name leads on as before.
    rw [hR.advance_name h hlawful hat hname]
    exact ih hsteps
  | case10 => simp at hsteps
  | case11 => cases hsteps
  | case12 => cases hsteps

/-- Steps that come to a link still come to it. -/
theorem advance_redirected {position : List String} {steps : List FilePath.Component}
    {arrived : List String} {target : String} {left : List FilePath.Component}
    (hsteps : tree.advance position steps = .redirected arrived target left) :
    tree'.advance position steps = .redirected arrived target left := by
  fun_induction FileTree.advance tree position steps with
  | case1 => cases hsteps
  | case2 => cases hsteps
  | case3 _ _ ih => exact ih hsteps
  | case4 _ _ ih => exact ih hsteps
  | case5 _ _ ih => exact ih hsteps
  | case6 => cases hsteps
  | case7 => cases hsteps
  | case8 => cases hsteps
  | case9 position name rest found hat name' inner hname ih =>
    rw [hR.advance_name h hlawful hat hname]
    exact ih hsteps
  | case10 => cases hsteps
  | case11 => cases hsteps
  | case12 position name rest found hat name' target' hname =>
    obtain ⟨found', hat', hfound⟩ := hR.exists_entriesAt? h hlawful hat
    have hlawful' := areLawful_of_entriesAt? hlawful hat'
    have hname' := hR.entryNamed?_link hfound hlawful' hname
    rw [FileTree.advance, hat']
    dsimp only
    rw [hname']
    exact hsteps

/-- The same with links followed. -/
theorem follow {links : Nat} {position : List String} {steps : List FilePath.Component}
    {arrived : List String} {entries : List Entry}
    (hsteps : tree.follow links position steps = some (.directory arrived entries)) :
    ∃ entries', tree'.follow links position steps = some (.directory arrived entries') ∧
      R entries entries' := by
  fun_induction FileTree.follow tree links position steps with
  | case1 _ _ _ place hplace =>
    rw [Option.some.injEq] at hsteps
    obtain ⟨entries', hplace', hentries⟩ := hR.advance_arrived h hlawful (hsteps ▸ hplace)
    exact ⟨entries', by rw [FileTree.follow, hplace'], hentries⟩
  | case2 => cases hsteps
  | case3 => cases hsteps
  | case4 _ _ _ _ _ hredirected _ ih =>
    obtain ⟨entries', hfollow, hentries⟩ := ih hsteps
    refine ⟨entries', ?_, hentries⟩
    rw [FileTree.follow, hR.advance_redirected h hlawful hredirected]
    exact hfollow

/-- **A path that names a directory still names one**, to which the first is related. -/
theorem find? (hworking : tree'.workingDirectory = tree.workingDirectory) {path : FilePath}
    {position : List String} {entries : List Entry}
    (hplace : tree.find? path = some (.directory position entries)) :
    ∃ entries', tree'.find? path = some (.directory position entries') ∧ R entries entries' := by
  rw [FileTree.find?] at hplace ⊢
  split at hplace
  · next hnameable =>
    rw [if_pos hnameable, hworking]
    exact hR.follow h hlawful hplace
  · cases hplace

end LookUp

end IsSimulation

end Unreferenced
