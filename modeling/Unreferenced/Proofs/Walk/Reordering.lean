import Unreferenced.Proofs.Walk.Order

/-!
# Entries in another order

A file system lists the entries of a directory in an order of its own, and a tree, as a
value, has to write them in some order too. Which one does not matter: trees that differ in
the order of their entries, in any of their directories (`Unreferenced.Reordered`), are
simulated by each other, so each finds in a walk what the other finds, and the walk puts it
in its own order (`Unreferenced.Reordered.projectFiles_eq`).
-/

namespace Unreferenced

/-- The same entries in another order, here and in the directories below. -/
inductive Reordered : List Entry → List Entry → Prop
  /-- There is no entry. -/
  | nil : Reordered [] []
  /-- The first entry stays where it is. -/
  | cons {rest rest' : List Entry} (entry : Entry) :
    Reordered rest rest' → Reordered (entry :: rest) (entry :: rest')
  /-- Two entries change places. -/
  | swap {first second : Entry} {rest : List Entry} :
    Reordered (first :: second :: rest) (second :: first :: rest)
  /-- The entries of a directory are put in another order. -/
  | inside {inner inner' rest : List Entry} {name : String} :
    Reordered inner inner' →
      Reordered (.directory name inner :: rest) (.directory name inner' :: rest)
  /-- One after the other. -/
  | trans {entries middle entries' : List Entry} :
    Reordered entries middle → Reordered middle entries' → Reordered entries entries'

variable {entries entries' : List Entry}

namespace Reordered

theorem refl : ∀ entries : List Entry, Reordered entries entries
  | [] => .nil
  | entry :: rest => .cons entry (refl rest)

theorem symm (h : Reordered entries entries') : Reordered entries' entries := by
  induction h with
  | nil => exact .nil
  | cons entry _ ih => exact .cons entry ih
  | swap => exact .swap
  | inside _ ih => exact .inside ih
  | trans _ _ ih ih' => exact .trans ih' ih

/-- Every order of the entries of one directory is another order of them. -/
theorem of_perm (h : entries.Perm entries') : Reordered entries entries' := by
  induction h with
  | nil => exact .nil
  | cons entry _ ih => exact .cons entry ih
  | swap first second rest => exact .swap
  | trans _ _ ih ih' => exact .trans ih ih'

theorem names_perm (h : Reordered entries entries') :
    (entries.map Entry.name).Perm (entries'.map Entry.name) := by
  induction h with
  | nil => exact .nil
  | cons entry _ ih => exact ih.cons entry.name
  | swap => exact .swap ..
  | inside _ _ => exact .refl _
  | trans _ _ ih ih' => exact ih.trans ih'

/-- **Lawful entries are lawful in every order.** -/
theorem lawful (h : Reordered entries entries') (hlawful : areLawful entries = true) :
    areLawful entries' = true := by
  induction h with
  | nil => exact hlawful
  | cons entry hrest ih =>
    obtain ⟨hentry, hname, hlawful⟩ := areLawful_cons_iff.1 hlawful
    exact areLawful_cons_iff.2
      ⟨hentry, fun hc => hname (hrest.names_perm.mem_iff.2 hc), ih hlawful⟩
  | swap =>
    simp only [areLawful_cons_iff, List.map_cons, List.mem_cons, not_or] at hlawful ⊢
    obtain ⟨hfirst, ⟨hne, hname⟩, hsecond, hname', hrest⟩ := hlawful
    exact ⟨hsecond, ⟨Ne.symm hne, hname'⟩, hfirst, hname, hrest⟩
  | inside _ ih =>
    obtain ⟨hentry, hname, hlawful⟩ := areLawful_cons_iff.1 hlawful
    obtain ⟨hdirectory, hinner⟩ := Entry.isLawful_directory_iff.1 hentry
    exact areLawful_cons_iff.2
      ⟨Entry.isLawful_directory_iff.2 ⟨hdirectory, ih hinner⟩, hname, hlawful⟩
  | trans _ _ ih ih' => exact ih' (ih hlawful)

/-- An entry stays as it is, or is a directory with entries in another order. -/
theorem mem_or (h : Reordered entries entries') {entry : Entry} (hmem : entry ∈ entries) :
    entry ∈ entries' ∨ ∃ name inner inner', entry = .directory name inner ∧
      .directory name inner' ∈ entries' ∧ Reordered inner inner' := by
  induction h generalizing entry with
  | nil => exact .inl hmem
  | cons first _ ih =>
    rcases List.mem_cons.1 hmem with rfl | hmem
    · exact .inl List.mem_cons_self
    · rcases ih hmem with hmem | ⟨name, inner, inner', hentry, hmem, hinner⟩
      · exact .inl (List.mem_cons_of_mem _ hmem)
      · exact .inr ⟨name, inner, inner', hentry, List.mem_cons_of_mem _ hmem, hinner⟩
  | swap => exact .inl ((List.Perm.swap ..).mem_iff.1 hmem)
  | inside hinner _ =>
    rcases List.mem_cons.1 hmem with rfl | hmem
    · exact .inr ⟨_, _, _, rfl, List.mem_cons_self, hinner⟩
    · exact .inl (List.mem_cons_of_mem _ hmem)
  | trans _ _ ih ih' =>
    rcases ih hmem with hmem | ⟨name, inner, middle, hentry, hmem, hinner⟩
    · exact ih' hmem
    · -- The directory may be reordered a second time.
      rcases ih' hmem with hmem | ⟨_, _, inner', hmiddle, hmem, hinner'⟩
      · exact .inr ⟨name, inner, middle, hentry, hmem, hinner⟩
      · cases hmiddle
        exact .inr ⟨name, inner, inner', hentry, hmem, hinner.trans hinner'⟩

/-- **Every look-up of a directory goes on as before.** -/
theorem isSimulation : IsSimulation Reordered :=
  isSimulation_of_mem_or refl fun h _ => h.mem_or

/-- **The order in which entries are listed does not matter to a walk.** -/
theorem projectFiles_eq {tree tree' : FileTree} (h : Reordered tree.entries tree'.entries)
    (hlawful : tree.isLawful = true)
    (hworking : tree'.workingDirectory = tree.workingDirectory) {root : FilePath}
    (hroot : tree.isDirectory root = true) (settings : Settings) :
    tree'.projectFiles settings root = tree.projectFiles settings root := by
  have hlawful' : tree'.isLawful = true := h.lawful hlawful
  obtain ⟨position, entries, hplace⟩ := FileTree.isDirectory_iff.1 hroot
  obtain ⟨entries', hplace', -⟩ := isSimulation.find? h hlawful' hworking hplace
  have hroot' := FileTree.isDirectory_iff.2 ⟨position, entries', hplace'⟩
  have hsub := isSimulation.projectFiles_sublist h hlawful hlawful' hworking hroot settings
  have hsub' :=
    isSimulation.projectFiles_sublist h.symm hlawful' hlawful hworking.symm hroot' settings
  exact hsub'.antisymm hsub

end Reordered

end Unreferenced
