import Mathlib.Data.List.AList
import Unreferenced.Sorting

/-!
# Tables by name

A table has one value for each of some names. Values are looked up by name, and a table can
be listed in the order of the names, whatever order its names came in. The list has what
the names find, and nothing else (`Unreferenced.Table.mem_byName_iff`).
-/

namespace Unreferenced

/-- A table with at most one value for each name. -/
abbrev Table (α : Type) : Type :=
  AList fun _ : String => α

namespace Table

variable {α : Type} {table : Table α} {name : String} {value : α}

/-- The names of a table with their values, by name. -/
def byName (table : Table α) : List (String × α) :=
  sortedBy (·.1) (table.entries.map fun entry => (entry.1, entry.2))

/-- A table is listed in the strict order of its names. -/
theorem pairwise_byName (table : Table α) : table.byName.Pairwise fun a b => a.1 < b.1 := by
  refine pairwise_lt_sortedBy ?_
  rw [List.map_map]
  exact table.keys_nodup

/-- **What is listed is what is found.** -/
theorem mem_byName_iff : (name, value) ∈ table.byName ↔ table.lookup name = some value := by
  rw [byName, (sortedBy_perm _).mem_iff, List.mem_map, ← Option.mem_def, AList.mem_lookup_iff]
  constructor
  · rintro ⟨entry, hmem, hentry⟩
    cases hentry
    exact hmem
  · exact fun hmem => ⟨_, hmem, rfl⟩

theorem length_byName (table : Table α) : table.byName.length = table.entries.length := by
  rw [byName, (sortedBy_perm _).length_eq, List.length_map]

end Table

end Unreferenced
