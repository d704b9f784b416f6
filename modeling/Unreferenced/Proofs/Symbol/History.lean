import Unreferenced.Proofs.Symbol.Registry

/-!
# What a registry of types remembers

A registry keeps one file for a name and a list of files that it put aside. A file is put
aside only when another one takes its place, so the list lacks the file that is kept,
unless that file was kept before and has come back. Together the two are what was
remembered: the different files of the history, where each came first. One entry more
keeps this (`Unreferenced.SymbolEntry.files_redeclare`), whether the history goes back and
forth between files or stays with one.

Hence the files that are listed as shadowed are the other files of the history, and a name
is listed exactly when it has two different files
(`Unreferenced.SymbolRegistry.declarations_ofInserts`).
-/

namespace Unreferenced

/-! ### The history of one name -/

namespace SymbolEntry

variable {name : String} {paths : List FilePath} {entry : SymbolEntry}

theorem getLast?_of_ofPaths? (h : ofPaths? name paths = some entry) :
    paths.getLast? = some entry.path := by
  rw [← map_path_ofPaths? name, h, Option.map_some]

/-- **The shadowed files are the other files of the history**, where each came first. -/
theorem components_shadowed_of_ofPaths? (h : ofPaths? name paths = some entry) :
    entry.shadowed.map (·.components) =
      (paths.map (·.components)).eraseDups.filter fun file => file ≠ entry.path.components := by
  rw [components_shadowed, files_of_ofPaths? h]

/-- There are shadowed files when the history has two different ones. -/
theorem shadowed_ne_nil_iff (h : ofPaths? name paths = some entry) :
    entry.shadowed ≠ [] ↔ ∃ p ∈ paths, ∃ q ∈ paths, ¬p.Same q := by
  have hkept : entry.path ∈ paths := List.mem_of_getLast? (getLast?_of_ofPaths? h)
  have hshadowed : entry.shadowed ≠ [] ↔ ∃ p ∈ paths, ¬p.Same entry.path := by
    rw [Ne, ← List.map_eq_nil_iff (f := FilePath.components), components_shadowed_of_ofPaths? h]
    simp [FilePath.Same]
  rw [hshadowed]
  constructor
  · rintro ⟨p, hp, hother⟩
    exact ⟨p, hp, entry.path, hkept, hother⟩
  · rintro ⟨p, hp, q, hq, hdiffer⟩
    -- Of two different files one is not the kept one.
    by_cases hsame : p.Same entry.path
    · exact ⟨q, hq, fun hq' => hdiffer (hsame.trans hq'.symm)⟩
    · exact ⟨p, hp, hsame⟩

end SymbolEntry

/-! ### The history of a registry -/

namespace SymbolRegistry

variable {inserts : List (String × FilePath)} {name : String}

/-- The entries are those that the histories of the names leave. -/
theorem exists_mem_entries_ofInserts_iff {p : SymbolEntry → Prop} :
    (∃ entry ∈ (ofInserts inserts).entries, entry.name = name ∧ p entry) ↔
      ∃ entry, SymbolEntry.ofPaths? name (filesOf inserts name) = some entry ∧ p entry := by
  refine exists_congr fun entry => ?_
  rw [← get?_ofInserts, get?_eq_some_iff (isOrdered_ofInserts inserts), and_assoc]

/-- **The shared names** are those with two different files; the last is kept and the
others are shadowed. -/
theorem exists_mem_collisions_iff {kept : FilePath} {shadowed : List (List FilePath.Component)} :
    (∃ entry ∈ (ofInserts inserts).collisions, entry.name = name ∧ entry.path = kept ∧
        entry.shadowed.map (·.components) = shadowed) ↔
      (∃ p ∈ filesOf inserts name, ∃ q ∈ filesOf inserts name, ¬p.Same q) ∧
      (filesOf inserts name).getLast? = some kept ∧
      shadowed = ((filesOf inserts name).map (·.components)).eraseDups.filter
        fun file => file ≠ kept.components := by
  have hcollisions : (∃ entry ∈ (ofInserts inserts).collisions, entry.name = name ∧
      entry.path = kept ∧ entry.shadowed.map (·.components) = shadowed) ↔
        ∃ entry ∈ (ofInserts inserts).entries, entry.name = name ∧ (entry.shadowed ≠ [] ∧
          entry.path = kept ∧ entry.shadowed.map (·.components) = shadowed) := by
    simp only [collisions, List.mem_filter, Bool.not_eq_true', List.isEmpty_eq_false_iff, and_assoc,
      and_left_comm]
  rw [hcollisions, exists_mem_entries_ofInserts_iff]
  constructor
  · rintro ⟨entry, hentry, hne, rfl, rfl⟩
    exact ⟨(SymbolEntry.shadowed_ne_nil_iff hentry).1 hne,
      SymbolEntry.getLast?_of_ofPaths? hentry, SymbolEntry.components_shadowed_of_ofPaths? hentry⟩
  · rintro ⟨hdiffer, hlast, rfl⟩
    rw [← SymbolEntry.map_path_ofPaths? name, Option.map_eq_some_iff] at hlast
    obtain ⟨entry, hentry, rfl⟩ := hlast
    exact ⟨entry, hentry, (SymbolEntry.shadowed_ne_nil_iff hentry).2 hdiffer, rfl,
      SymbolEntry.components_shadowed_of_ofPaths? hentry⟩

/-- **What is said of any history of declarations.** The file of a name is the last that
was entered for it. The entries have the names in strict order, each with that file. A name
is shared when two different files were entered for it; it is listed once, with the last
file as the one that is kept, and as shadowed the other files, each where it came first. -/
theorem declarations_ofInserts (inserts : List (String × FilePath)) :
    (∀ name, (ofInserts inserts).path? name = (filesOf inserts name).getLast?) ∧
    (ofInserts inserts).entries.Pairwise (fun a b => a.name < b.name) ∧
    (∀ name path,
      (∃ entry ∈ (ofInserts inserts).entries, entry.name = name ∧ entry.path = path) ↔
        (filesOf inserts name).getLast? = some path) ∧
    (ofInserts inserts).collisions.Pairwise (fun a b => a.name < b.name) ∧
    ∀ name kept shadowed,
      (∃ entry ∈ (ofInserts inserts).collisions, entry.name = name ∧ entry.path = kept ∧
          entry.shadowed.map (·.components) = shadowed) ↔
        (∃ p ∈ filesOf inserts name, ∃ q ∈ filesOf inserts name, ¬p.Same q) ∧
        (filesOf inserts name).getLast? = some kept ∧
        shadowed = ((filesOf inserts name).map (·.components)).eraseDups.filter
          fun file => file ≠ kept.components := by
  have hordered := isOrdered_ofInserts inserts
  refine ⟨path?_ofInserts inserts, hordered, fun name path => ?_,
    List.Pairwise.filter _ hordered, fun _ _ _ => exists_mem_collisions_iff⟩
  rw [← path?_ofInserts, path?_eq_some_iff hordered]

/-- A history that goes back and forth between files and ends with one that came before. -/
example :
    (ofInserts [("Foo", ⟨"A"⟩), ("Foo", ⟨"B"⟩), ("Foo", ⟨"A"⟩), ("Foo", ⟨"C"⟩), ("Foo", ⟨"B"⟩),
      ("Foo", ⟨"B/"⟩)]).collisions.map (fun entry => (entry.path, entry.shadowed)) =
        [(⟨"B/"⟩, [⟨"A"⟩, ⟨"C"⟩])] := by
  decide

end SymbolRegistry

end Unreferenced
