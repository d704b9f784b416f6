import Mathlib.Data.List.Induction
import Mathlib.Data.String.Basic
import Unreferenced.Proofs.Distinct
import Unreferenced.Proofs.Last
import Unreferenced.Sorting
import Unreferenced.Symbol.Registry

/-!
# Declarations entered one after another

A registry of types is built by entering declarations, and what it says in the end should
be said of the declarations. Entering keeps the entries strictly in the order of their
names (`Unreferenced.SymbolRegistry.isOrdered_ofInserts`), so a name has at most one entry;
it has one exactly when it was declared
(`Unreferenced.SymbolRegistry.mem_names_ofInserts`), and its file is that of the *last*
declaration (`Unreferenced.SymbolRegistry.path?_ofInserts_iff`).
-/

namespace Unreferenced

/-! ### One entry -/

namespace SymbolEntry

/-- The entry that declarations of one name leave, by the files that they are in. -/
def ofPaths? (name : String) : List FilePath → Option SymbolEntry
  | [] => none
  | first :: rest => some (rest.foldl redeclare { name, path := first })

/-- The files that an entry knows to declare its name, in order of first entry: those that
were replaced, and behind them the one that is kept unless it is among them. -/
def files (entry : SymbolEntry) : List (List FilePath.Component) :=
  let replaced := entry.replaced.map (·.components)
  if entry.path.components ∈ replaced then replaced else replaced ++ [entry.path.components]

@[simp] theorem name_redeclare (entry : SymbolEntry) (path : FilePath) :
    (entry.redeclare path).name = entry.name :=
  rfl

@[simp] theorem path_redeclare (entry : SymbolEntry) (path : FilePath) :
    (entry.redeclare path).path = path :=
  rfl

theorem ofPaths?_concat (name : String) (paths : List FilePath) (path : FilePath) :
    ofPaths? name (paths ++ [path]) =
      some ((ofPaths? name paths).elim { name, path } (·.redeclare path)) := by
  cases paths with
  | nil => rfl
  | cons first rest =>
    rw [List.cons_append, ofPaths?, List.foldl_concat]
    rfl

/-- The file that is kept is the last one of the history. -/
theorem map_path_ofPaths? (name : String) (paths : List FilePath) :
    (ofPaths? name paths).map (·.path) = paths.getLast? := by
  induction paths using List.reverseRecOn with
  | nil => rfl
  | append_singleton paths path _ =>
    rw [ofPaths?_concat, List.getLast?_concat, Option.map_some]
    cases ofPaths? name paths <;> rfl

/-- The file that is replaced joins the replaced ones, unless it is one of them or stays. -/
theorem components_replaced_redeclare (entry : SymbolEntry) (path : FilePath) :
    (entry.redeclare path).replaced.map (·.components) =
      if entry.path.components = path.components then entry.replaced.map (·.components)
      else entry.files := by
  have hknown : (entry.replaced.any fun known => known.Same entry.path) = true ↔
      entry.path.components ∈ entry.replaced.map (·.components) := by
    simp only [List.any_eq_true, decide_eq_true_eq, List.mem_map]
    exact Iff.rfl
  rw [redeclare, files]
  dsimp only
  by_cases hsame : entry.path.components = path.components
  · have hsame' : entry.path.Same path := hsame
    rw [if_pos (by simp [hsame']), if_pos hsame]
  · have hsame' : ¬entry.path.Same path := hsame
    rw [if_neg hsame]
    by_cases hmem : entry.path.components ∈ entry.replaced.map (·.components)
    · rw [if_pos (by simp [hknown.2 hmem]), if_pos hmem]
    · rw [if_neg (by simpa [hsame'] using mt hknown.1 hmem), if_neg hmem, List.map_append,
        List.map_singleton]

/-- **Entering a file adds it to the files of the entry** when it is new there. -/
theorem files_redeclare (entry : SymbolEntry) (path : FilePath) :
    (entry.redeclare path).files =
      if path.components ∈ entry.files then entry.files else entry.files ++ [path.components] := by
  have hkept : entry.path.components ∈ entry.files := by
    rw [files]
    split
    · assumption
    · simp
  by_cases hsame : entry.path.components = path.components
  · -- The kept file is entered again.
    rw [if_pos (hsame ▸ hkept), files, files, components_replaced_redeclare, if_pos hsame,
      path_redeclare, hsame]
  · rw [files, components_replaced_redeclare, if_neg hsame, path_redeclare]

/-- The files of an entry are the different ones that were entered. -/
theorem files_of_ofPaths? {name : String} {paths : List FilePath} {entry : SymbolEntry}
    (h : ofPaths? name paths = some entry) :
    entry.files = (paths.map (·.components)).eraseDups := by
  induction paths using List.reverseRecOn generalizing entry with
  | nil => cases h
  | append_singleton paths path ih =>
    rw [ofPaths?_concat, Option.some.injEq] at h
    rw [List.map_append, List.map_singleton, eraseDups_concat]
    cases hold : ofPaths? name paths with
    | none =>
      cases paths with
      | nil =>
        rw [← h]
        rfl
      | cons first rest => cases hold
    | some old =>
      rw [hold] at h
      rw [← h, Option.elim_some, files_redeclare, ih hold]
      simp only [List.mem_eraseDups]

/-- **The files that an entry lists beside the kept one** are the others of its files. -/
theorem components_shadowed (entry : SymbolEntry) :
    entry.shadowed.map (·.components) =
      entry.files.filter fun file => file ≠ entry.path.components := by
  have hfilter : (entry.replaced.map (·.components)).filter
      (fun file => file ≠ entry.path.components) = entry.shadowed.map (·.components) := by
    rw [List.filter_map, shadowed]
    refine congrArg (List.map _) (List.filter_congr fun path _ => ?_)
    have hsame : path.Same entry.path ↔ path.components = entry.path.components := Iff.rfl
    simp [hsame]
  rw [files]
  split
  · rw [hfilter]
  · rw [List.filter_append, hfilter]
    simp

end SymbolEntry

namespace SymbolRegistry

variable {name other : String} {path : FilePath} {entries : List SymbolEntry}

/-- The registry after entering declarations into an empty one, in order. -/
def ofInserts (inserts : List (String × FilePath)) : SymbolRegistry :=
  inserts.foldl (fun registry declared => registry.insert declared.1 declared.2) {}

/-- The names of a registry, in the order of its entries. -/
def names (registry : SymbolRegistry) : List String :=
  registry.entries.map (·.name)

/-- The entries are strictly in the order of their names. -/
def IsOrdered (entries : List SymbolEntry) : Prop :=
  entries.Pairwise fun a b => a.name < b.name

/-! ### Entering one declaration -/

/-- Entering a declaration adds its name and no other. -/
theorem mem_names_insertInto :
    other ∈ (insertInto name path entries).map (·.name) ↔
      other = name ∨ other ∈ entries.map (·.name) := by
  induction entries with
  | nil => simp [insertInto]
  | cons entry rest ih =>
    rw [insertInto]
    split
    · simp
    · split
      · next hname => simp [hname]
      · simp only [List.map_cons, List.mem_cons, ih]
        exact or_left_comm

/-- **Entering a declaration keeps the order.** -/
theorem IsOrdered.insertInto (h : IsOrdered entries) (name : String) (path : FilePath) :
    IsOrdered (insertInto name path entries) := by
  induction entries with
  | nil => exact List.pairwise_singleton ..
  | cons entry rest ih =>
    obtain ⟨hfirst, hrest⟩ := List.pairwise_cons.1 h
    rw [SymbolRegistry.insertInto]
    split
    · next hlt =>
      refine List.pairwise_cons.2 ⟨fun later hlater => ?_, h⟩
      rcases List.mem_cons.1 hlater with rfl | hlater
      · exact hlt
      · exact lt_trans hlt (hfirst later hlater)
    · next hle =>
      split
      · exact List.pairwise_cons.2 ⟨hfirst, hrest⟩
      · next hne =>
        have hlt : entry.name < name := lt_of_le_of_ne (not_lt.1 hle) (Ne.symm hne)
        refine List.pairwise_cons.2 ⟨fun later hlater => ?_, ih hrest⟩
        rcases mem_names_insertInto.1 (List.mem_map_of_mem hlater) with hname | hold
        · exact hname ▸ hlt
        · obtain ⟨old, hold, hname⟩ := List.mem_map.1 hold
          exact hname ▸ hfirst old hold

/-! ### Entering a history of declarations -/

theorem ofInserts_concat (inserts : List (String × FilePath)) (declared : String × FilePath) :
    ofInserts (inserts ++ [declared]) = (ofInserts inserts).insert declared.1 declared.2 := by
  rw [ofInserts, List.foldl_concat]
  rfl

/-- The entries of a history are strictly in the order of their names. -/
theorem isOrdered_ofInserts (inserts : List (String × FilePath)) :
    IsOrdered (ofInserts inserts).entries := by
  induction inserts using List.reverseRecOn with
  | nil => exact .nil
  | append_singleton inserts declared ih =>
    rw [ofInserts_concat]
    exact ih.insertInto declared.1 declared.2

/-- A name has an entry exactly when it was declared. -/
theorem mem_names_ofInserts {inserts : List (String × FilePath)} :
    name ∈ (ofInserts inserts).names ↔ ∃ path, (name, path) ∈ inserts := by
  induction inserts using List.reverseRecOn with
  | nil => simp [ofInserts, names]
  | append_singleton inserts declared ih =>
    obtain ⟨declaredName, declaredPath⟩ := declared
    rw [ofInserts_concat, names, insert, mem_names_insertInto, ← names, ih]
    simp only [List.mem_append, List.mem_singleton, Prod.mk.injEq, exists_or, exists_and_left,
      exists_eq, and_true]
    exact or_comm

/-! ### Entries and names -/

theorem nodup_names {registry : SymbolRegistry} (h : IsOrdered registry.entries) :
    registry.names.Nodup :=
  List.pairwise_map.2 (h.imp ne_of_lt)

/-- In ordered entries the path of a name is that of its only entry. -/
theorem path?_eq_some_iff {registry : SymbolRegistry} (h : IsOrdered registry.entries) :
    registry.path? name = some path ↔
      ∃ entry ∈ registry.entries, entry.name = name ∧ entry.path = path := by
  rw [path?, Option.map_eq_some_iff]
  refine exists_congr fun entry => ?_
  rw [find?_name_eq_some_iff (nodup_names h), and_assoc]

/-! ### The entry of a name -/

/-- The entry of a name. -/
def get? (registry : SymbolRegistry) (name : String) : Option SymbolEntry :=
  registry.entries.find? (·.name == name)

/-- In ordered entries a name has one entry. -/
theorem get?_eq_some_iff {registry : SymbolRegistry} (h : IsOrdered registry.entries)
    {entry : SymbolEntry} :
    registry.get? name = some entry ↔ entry ∈ registry.entries ∧ entry.name = name :=
  find?_name_eq_some_iff (nodup_names h)

/-- Entering a declaration changes the entry of its name and no other. -/
theorem get?_insert {registry : SymbolRegistry} (h : IsOrdered registry.entries) :
    (registry.insert name path).get? other =
      if other = name then
        some ((registry.get? name).elim { name, path } (·.redeclare path))
      else registry.get? other := by
  obtain ⟨entries⟩ := registry
  rw [get?, get?, get?, insert]
  dsimp only at h ⊢
  induction entries with
  | nil =>
    by_cases hother : other = name
    · simp [insertInto, hother]
    · simp [insertInto, hother, Ne.symm hother]
  | cons entry rest ih =>
    obtain ⟨hfirst, hrest⟩ := List.pairwise_cons.1 h
    rw [insertInto]
    split
    · next hlt =>
      -- No entry behind a greater name can have the name that is entered.
      have hnone : (entry :: rest).find? (·.name == name) = none := by
        refine List.find?_eq_none.2 fun later hlater => ?_
        rcases List.mem_cons.1 hlater with rfl | hlater
        · simpa using ne_of_gt hlt
        · simpa using ne_of_gt (lt_trans hlt (hfirst later hlater))
      by_cases hother : other = name
      · rw [if_pos hother, hnone, hother]
        simp
      · simp [hother, Ne.symm hother]
    · split
      · next hname =>
        by_cases hother : other = name
        · simp [hother, hname]
        · have hentry : entry.name ≠ other := fun hc => hother (hc ▸ hname.symm)
          simp [hother, hentry]
      · next hne =>
        have hname : (entry.name == name) = false := by simpa using Ne.symm hne
        by_cases hentry : entry.name = other
        · have hother : other ≠ name := fun hc => hne (hc ▸ hentry.symm)
          simp [hentry, hother]
        · simp only [List.find?_cons, beq_eq_false_iff_ne.2 hentry, hname]
          exact ih hrest

/-- The files that were entered for a name, in order. -/
def filesOf (inserts : List (String × FilePath)) (name : String) : List FilePath :=
  (inserts.filter (·.1 == name)).map (·.2)

/-- **What is known about a name** comes from the files that were entered for it. -/
theorem get?_ofInserts (inserts : List (String × FilePath)) (name : String) :
    (ofInserts inserts).get? name = SymbolEntry.ofPaths? name (filesOf inserts name) := by
  rw [filesOf]
  induction inserts using List.reverseRecOn with
  | nil => rfl
  | append_singleton inserts declared ih =>
    rw [ofInserts_concat, get?_insert (isOrdered_ofInserts inserts), List.filter_append,
      List.map_append]
    by_cases hname : declared.1 = name
    · have hkeep : [declared].filter (·.1 == name) = [declared] := by simp [hname]
      rw [if_pos hname.symm, hname, ih, hkeep, List.map_singleton, SymbolEntry.ofPaths?_concat]
    · have hdrop : [declared].filter (·.1 == name) = [] := by simp [hname]
      rw [if_neg (Ne.symm hname), ih, hdrop, List.map_nil, List.append_nil]

/-- **The file of a name** is the last that was entered for it. -/
theorem path?_ofInserts (inserts : List (String × FilePath)) (name : String) :
    (ofInserts inserts).path? name = (filesOf inserts name).getLast? := by
  rw [path?, ← get?, get?_ofInserts, SymbolEntry.map_path_ofPaths?]

/-- The file of a name is that of its last declaration. -/
theorem path?_ofInserts_iff {inserts : List (String × FilePath)} :
    (ofInserts inserts).path? name = some path ↔
      IsLastWith (fun declared => declared.1 = name) inserts (name, path) := by
  rw [path?_ofInserts, filesOf, List.getLast?_map, Option.map_eq_some_iff,
    isLastWith_iff_getLast?_filter]
  constructor
  · rintro ⟨⟨declaredName, declaredPath⟩, hlast, rfl⟩
    obtain ⟨-, hname⟩ := List.mem_filter.1 (List.mem_of_getLast? hlast)
    obtain rfl : declaredName = name := eq_of_beq hname
    exact hlast
  · intro hlast
    exact ⟨(name, path), hlast, rfl⟩

end SymbolRegistry

end Unreferenced
