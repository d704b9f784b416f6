import Mathlib.Data.List.Pairwise
import Unreferenced.Proofs.Symbol.History
import Unreferenced.Proofs.Table

/-!
# Types by name in tables

A registry of types has everything about a name in one entry. The same can be kept in two
tables: the file that declares each name, and, for names that another file declared before,
the files that were replaced. A name that was never taken from one file by another is not
in the second table.

Tables and registry agree (`Unreferenced.SymbolTables.Agrees`) when both tables say of every
name what its entry says. Entering a declaration preserves this
(`Unreferenced.SymbolTables.Agrees.insert`), so after any history both list the same
declarations and the same names that several files declare
(`Unreferenced.SymbolTables.answers_ofInserts`).
-/

namespace Unreferenced

/-! ### Tables -/

/-- The declared types of a project by name, in tables. -/
structure SymbolTables where
  /-- The file that declares each name, the last one entered. -/
  declarations : Table FilePath := ∅
  /-- The files that declared a name before another one did, in order of replacement. -/
  replaced : Table (List FilePath) := ∅

namespace SymbolTables

/-- The files that were replaced for a name. -/
def replacedFor (tables : SymbolTables) (name : String) : List FilePath :=
  (tables.replaced.lookup name).getD []

/-- Puts a file aside that another one replaces. -/
def putAside (tables : SymbolTables) (name : String) (previous : FilePath) :
    Table (List FilePath) :=
  let known := tables.replacedFor name
  tables.replaced.insert name
    (if known.any fun path => path.Same previous then known else known ++ [previous])

/-- Enters a declaration. -/
def insert (tables : SymbolTables) (name : String) (path : FilePath) : SymbolTables where
  declarations := tables.declarations.insert name path
  replaced :=
    match tables.declarations.lookup name with
    | some previous =>
      if previous.Same path then tables.replaced else tables.putAside name previous
    | none => tables.replaced

/-- The names with their files, by name. -/
def declared (tables : SymbolTables) : List (String × FilePath) :=
  tables.declarations.byName

/-- What is said about a name with replaced files: its name, the file that is kept and the
others, unless there are no others. A file that was replaced can have come back. -/
def collision? (tables : SymbolTables) (name : String) (replaced : List FilePath) :
    Option (String × FilePath × List FilePath) :=
  (tables.declarations.lookup name).bind fun kept =>
    let shadowed := replaced.filter fun path => !path.Same kept
    if shadowed.isEmpty then none else some (name, kept, shadowed)

/-- The names that more than one file declares, by name, each with the file that is kept and
the others. -/
def collisions (tables : SymbolTables) : List (String × FilePath × List FilePath) :=
  tables.replaced.byName.filterMap fun found => tables.collision? found.1 found.2

/-- The number of names. -/
def size (tables : SymbolTables) : Nat :=
  tables.declarations.entries.length

/-- The tables after entering declarations into empty ones, in order. -/
def ofInserts (inserts : List (String × FilePath)) : SymbolTables :=
  inserts.foldl (fun tables declared => tables.insert declared.1 declared.2) {}

theorem ofInserts_concat (inserts : List (String × FilePath)) (declared : String × FilePath) :
    ofInserts (inserts ++ [declared]) = (ofInserts inserts).insert declared.1 declared.2 := by
  rw [ofInserts, List.foldl_concat]
  rfl

/-! ### Agreement with a registry -/

variable {tables : SymbolTables} {registry : SymbolRegistry} {name other : String}
  {path : FilePath}

/-- Tables and a registry that are about the same declarations. -/
structure Agrees (tables : SymbolTables) (registry : SymbolRegistry) : Prop where
  /-- A name has the file of its entry. -/
  lookup_declarations : ∀ name,
    tables.declarations.lookup name = (registry.get? name).map (·.path)
  /-- The files that were replaced for a name are those of its entry. -/
  replacedFor_eq : ∀ name,
    tables.replacedFor name = ((registry.get? name).map (·.replaced)).getD []

theorem agrees_empty : ({} : SymbolTables).Agrees {} :=
  ⟨fun _ => rfl, fun _ => rfl⟩

theorem replacedFor_insert_of_ne (h : other ≠ name) :
    (tables.insert name path).replacedFor other = tables.replacedFor other := by
  rw [replacedFor, insert, replacedFor]
  dsimp only
  split
  · split
    · rfl
    · rw [putAside, AList.lookup_insert_ne h]
  · rfl

/-- A new name has no file that is replaced. -/
theorem replacedFor_insert_of_none (h : tables.declarations.lookup name = none) :
    (tables.insert name path).replacedFor name = tables.replacedFor name := by
  rw [replacedFor, insert, h, replacedFor]

/-- The file of a known name is put aside, unless it stays or was put aside before. -/
theorem replacedFor_insert_of_some {previous : FilePath}
    (h : tables.declarations.lookup name = some previous) :
    (tables.insert name path).replacedFor name =
      if previous.Same path || (tables.replacedFor name).any (fun known => known.Same previous) then
        tables.replacedFor name
      else tables.replacedFor name ++ [previous] := by
  rw [replacedFor, insert, h]
  dsimp only
  by_cases hsame : previous.Same path
  · simp [hsame, replacedFor]
  · simp [hsame, putAside]

/-- **Entering a declaration preserves the agreement**, where the entries are in order. -/
theorem Agrees.insert (h : tables.Agrees registry)
    (hordered : SymbolRegistry.IsOrdered registry.entries) (name : String) (path : FilePath) :
    (tables.insert name path).Agrees (registry.insert name path) := by
  have hfile := h.lookup_declarations name
  have hreplaced := h.replacedFor_eq name
  refine ⟨fun other => ?_, fun other => ?_⟩
  · rw [SymbolRegistry.get?_insert hordered, SymbolTables.insert]
    by_cases hother : other = name
    · rw [if_pos hother, hother, AList.lookup_insert]
      cases registry.get? name <;> rfl
    · rw [if_neg hother, AList.lookup_insert_ne hother, h.lookup_declarations]
  · rw [SymbolRegistry.get?_insert hordered]
    by_cases hother : other = name
    · rw [if_pos hother, hother]
      cases hget : registry.get? name with
      | none =>
        rw [hget] at hfile hreplaced
        rw [replacedFor_insert_of_none hfile, hreplaced]
        rfl
      | some entry =>
        rw [hget] at hfile hreplaced
        rw [replacedFor_insert_of_some hfile, hreplaced]
        rfl
    · rw [if_neg hother, replacedFor_insert_of_ne hother, h.replacedFor_eq]

/-! ### Histories -/

/-- **Tables and a registry agree after the same history.** -/
theorem agrees_ofInserts (inserts : List (String × FilePath)) :
    (ofInserts inserts).Agrees (SymbolRegistry.ofInserts inserts) := by
  induction inserts using List.reverseRecOn with
  | nil => exact agrees_empty
  | append_singleton inserts declared ih =>
    rw [ofInserts_concat, SymbolRegistry.ofInserts_concat]
    exact ih.insert (SymbolRegistry.isOrdered_ofInserts inserts) _ _

/-- What is said about a name with replaced files. -/
theorem collision?_eq_some_iff {replaced : List FilePath}
    {found : String × FilePath × List FilePath} :
    tables.collision? name replaced = some found ↔
      ∃ kept, tables.declarations.lookup name = some kept ∧
        (replaced.filter fun path => !path.Same kept) ≠ [] ∧
        found = (name, kept, replaced.filter fun path => !path.Same kept) := by
  rw [collision?, Option.bind_eq_some_iff]
  refine exists_congr fun kept => and_congr_right fun _ => ?_
  dsimp only
  split
  · next hempty => simp [List.isEmpty_iff.1 hempty]
  · next hne =>
    rw [List.isEmpty_iff] at hne
    rw [Option.some.injEq, eq_comm, and_iff_right hne]

/-- The names that more than one file declares are in strict order. -/
theorem pairwise_collisions (tables : SymbolTables) :
    tables.collisions.Pairwise fun a b => a.1 < b.1 := by
  refine List.pairwise_filterMap.2 ((Table.pairwise_byName _).imp fun {a b} hlt => ?_)
  intro found hfound found' hfound'
  obtain ⟨kept, -, -, rfl⟩ := collision?_eq_some_iff.1 hfound
  obtain ⟨kept', -, -, rfl⟩ := collision?_eq_some_iff.1 hfound'
  exact hlt

/-- A name is listed when a file was replaced for it other than the one that is kept. -/
theorem mem_collisions_iff {kept : FilePath} {shadowed : List FilePath} :
    (name, kept, shadowed) ∈ tables.collisions ↔
      tables.declarations.lookup name = some kept ∧ shadowed ≠ [] ∧
        shadowed = (tables.replacedFor name).filter fun path => !path.Same kept := by
  simp only [collisions, List.mem_filterMap, Prod.exists, Table.mem_byName_iff,
    collision?_eq_some_iff, Prod.mk.injEq]
  constructor
  · rintro ⟨_, replaced, hreplaced, _, hkept, hne, rfl, rfl, rfl⟩
    rw [replacedFor, hreplaced, Option.getD_some]
    exact ⟨hkept, hne, rfl⟩
  · rintro ⟨hkept, hne, rfl⟩
    cases hreplaced : tables.replaced.lookup name with
    | none =>
      rw [replacedFor, hreplaced] at hne
      exact absurd rfl hne
    | some replaced =>
      rw [replacedFor, hreplaced, Option.getD_some] at hne ⊢
      exact ⟨name, replaced, hreplaced, kept, hkept, hne, rfl, rfl, rfl⟩

/-- Tables and a registry that agree list the same declarations. -/
theorem Agrees.declared_eq (h : tables.Agrees registry)
    (hordered : SymbolRegistry.IsOrdered registry.entries) :
    tables.declared = registry.entries.map fun entry => (entry.name, entry.path) := by
  refine eq_of_pairwise_name_lt (Table.pairwise_byName _) (List.pairwise_map.2 hordered) ?_
  rintro ⟨name, path⟩
  rw [declared, Table.mem_byName_iff, h.lookup_declarations, Option.map_eq_some_iff]
  simp only [SymbolRegistry.get?_eq_some_iff hordered, List.mem_map, Prod.mk.injEq, and_assoc]

/-- Tables and a registry that agree list the same names that several files declare. -/
theorem Agrees.collisions_eq (h : tables.Agrees registry)
    (hordered : SymbolRegistry.IsOrdered registry.entries) :
    tables.collisions =
      registry.collisions.map fun entry => (entry.name, entry.path, entry.shadowed) := by
  refine eq_of_pairwise_name_lt (pairwise_collisions _)
    (List.pairwise_map.2 (List.Pairwise.filter _ hordered)) ?_
  rintro ⟨name, kept, shadowed⟩
  rw [mem_collisions_iff, h.lookup_declarations, h.replacedFor_eq, Option.map_eq_some_iff]
  simp only [SymbolRegistry.collisions, List.mem_map, List.mem_filter, Bool.not_eq_true',
    List.isEmpty_eq_false_iff, Prod.mk.injEq]
  constructor
  · rintro ⟨⟨entry, hentry, rfl⟩, hne, rfl⟩
    rw [hentry] at hne ⊢
    obtain ⟨hmem, rfl⟩ := (SymbolRegistry.get?_eq_some_iff hordered).1 hentry
    exact ⟨entry, ⟨hmem, hne⟩, rfl, rfl, rfl⟩
  · rintro ⟨entry, ⟨hmem, hne⟩, rfl, rfl, rfl⟩
    have hentry := (SymbolRegistry.get?_eq_some_iff hordered).2 ⟨hmem, rfl⟩
    refine ⟨⟨entry, hentry, rfl⟩, hne, ?_⟩
    rw [hentry]
    rfl

/-- **Tables and a registry give the same answers**, whatever was entered: the same file for
each name, the same declarations in the same order, and the same names that several files
declare, each with the file that is kept and the others. -/
theorem answers_ofInserts (inserts : List (String × FilePath)) :
    (∀ name, (ofInserts inserts).declarations.lookup name =
        (SymbolRegistry.ofInserts inserts).path? name) ∧
      (ofInserts inserts).declared =
        (SymbolRegistry.ofInserts inserts).entries.map (fun entry => (entry.name, entry.path)) ∧
      (ofInserts inserts).collisions =
        (SymbolRegistry.ofInserts inserts).collisions.map
          (fun entry => (entry.name, entry.path, entry.shadowed)) ∧
      (ofInserts inserts).size = (SymbolRegistry.ofInserts inserts).size := by
  have h := agrees_ofInserts inserts
  have hordered := SymbolRegistry.isOrdered_ofInserts inserts
  have hdeclared := h.declared_eq hordered
  refine ⟨h.lookup_declarations, hdeclared, h.collisions_eq hordered, ?_⟩
  rw [size, ← Table.length_byName, ← declared, hdeclared, List.length_map, SymbolRegistry.size]

end SymbolTables

end Unreferenced
