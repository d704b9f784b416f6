import Unreferenced.Proofs.Asset.History
import Unreferenced.Proofs.Table

/-!
# Images by name in tables

A registry of images looks through its entries for a name. It can do without: an *index*
gives the position of every name among the entries, and a *count* is kept, apart from the
entries, for those names only that came more than once. This file keeps the images in such
tables, and shows that no answer changes.

The relation is `Unreferenced.AssetTables.Agrees`: the entries are those of the registry but
for their numbers, the index finds the first entry of each name, and the counts are the
numbers of the shared names. Entering an image preserves it
(`Unreferenced.AssetTables.Agrees.insert`), since no entry ever moves: a new one joins behind
the others, and a known one is changed in its place. The tables change it at its position
and the registry changes every entry with the name, which is the same because each name has
one entry (`Unreferenced.modify_eq_map_of_nodup`).

So tables and registry give the same answers after any history
(`Unreferenced.AssetTables.answers_ofInserts`).
-/

namespace Unreferenced

/-! ### Tables -/

/-- What is listed about one image name; how many times it was entered is kept elsewhere. -/
structure ListedAsset where
  /-- The name. -/
  name : String
  /-- The different paths of the images with this name, in order of first entry. -/
  locations : List FilePath
  /-- The first bundle that gave the name. -/
  bundle? : Option FilePath
deriving DecidableEq, Inhabited, Repr

namespace ListedAsset

/-- Where to look for the image: at its bundle, or else at its first path. -/
def bestLocation? (asset : ListedAsset) : Option FilePath :=
  asset.bundle?.or asset.locations.head?

/-- What is listed after another image was entered under the name. -/
def enter (asset : ListedAsset) (path : FilePath) (bundle? : Option FilePath) : ListedAsset :=
  { asset with
    locations :=
      if asset.locations.any fun known => known.Same path then asset.locations
      else asset.locations ++ [path]
    bundle? := asset.bundle?.or bundle? }

end ListedAsset

/-- The images of a project by name, in tables. -/
structure AssetTables where
  /-- What is listed, in order of first entry. -/
  entries : List ListedAsset := []
  /-- The position of each name among the entries. -/
  index : Table Nat := ∅
  /-- How many times a name was entered, from the second time on. -/
  counts : Table Nat := ∅

namespace AssetTables

/-- What is listed at the position of a name. -/
def get? (tables : AssetTables) (name : String) : Option ListedAsset :=
  (tables.index.lookup name).bind (tables.entries[·]?)

/-- Enters an image under a name. A name that comes again has been entered once when it has
no count yet. -/
def insert (tables : AssetTables) (name : String) (path : FilePath) (bundle? : Option FilePath) :
    AssetTables :=
  match tables.index.lookup name with
  | some position =>
    { tables with
      entries := tables.entries.modify position (·.enter path bundle?)
      counts := tables.counts.insert name ((tables.counts.lookup name).getD 1 + 1) }
  | none =>
    { tables with
      entries := tables.entries ++ [⟨name, [path], bundle?⟩]
      index := tables.index.insert name tables.entries.length }

theorem insert_of_some {tables : AssetTables} {name : String} {path : FilePath}
    {bundle? : Option FilePath} {position : Nat}
    (h : tables.index.lookup name = some position) :
    tables.insert name path bundle? =
      { tables with
        entries := tables.entries.modify position (·.enter path bundle?)
        counts := tables.counts.insert name ((tables.counts.lookup name).getD 1 + 1) } := by
  rw [insert, h]

theorem insert_of_none {tables : AssetTables} {name : String} {path : FilePath}
    {bundle? : Option FilePath} (h : tables.index.lookup name = none) :
    tables.insert name path bundle? =
      { tables with
        entries := tables.entries ++ [⟨name, [path], bundle?⟩]
        index := tables.index.insert name tables.entries.length } := by
  rw [insert, h]

/-- How many times a name was entered, when that is more than once. -/
def shared? (tables : AssetTables) (name : String) : Option Nat :=
  tables.counts.lookup name

/-- The names with a count and their counts, by name. -/
def shared (tables : AssetTables) : List (String × Nat) :=
  tables.counts.byName

/-- The number of names. -/
def size (tables : AssetTables) : Nat :=
  tables.entries.length

/-- The tables after entering images into empty ones, in order. -/
def ofInserts (images : List NamedImage) : AssetTables :=
  images.foldl (fun tables image => tables.insert image.name image.path image.bundle?) {}

theorem ofInserts_concat (images : List NamedImage) (image : NamedImage) :
    ofInserts (images ++ [image]) =
      (ofInserts images).insert image.name image.path image.bundle? := by
  rw [ofInserts, List.foldl_concat]
  rfl

end AssetTables

/-! ### Agreement with a registry -/

/-- What is listed about the name of an entry. -/
def AssetEntry.listed (entry : AssetEntry) : ListedAsset :=
  ⟨entry.name, entry.locations, entry.bundle?⟩

theorem AssetEntry.bestLocation?_listed (entry : AssetEntry) :
    entry.listed.bestLocation? = entry.bestLocation? :=
  rfl

theorem AssetEntry.listed_enter (entry : AssetEntry) (path : FilePath)
    (bundle? : Option FilePath) :
    (entry.enter path bundle?).listed = entry.listed.enter path bundle? :=
  rfl

/-- Where no two names agree, changing the element at the first position of a name is
changing all elements with the name. -/
theorem modify_eq_map_of_nodup {α : Type} {name : α → String} {n : String} {as : List α}
    {position : Nat} (h : (as.map name).Nodup)
    (hposition : (as.map name).findIdx? (· == n) = some position) (change : α → α) :
    as.modify position change = as.map fun a => if name a == n then change a else a := by
  induction as generalizing position with
  | nil => simp at hposition
  | cons a rest ih =>
    rw [List.map_cons, List.nodup_cons] at h
    rw [List.map_cons, List.findIdx?_cons] at hposition
    by_cases ha : name a = n
    · -- the name is here, and in none of the elements behind
      obtain rfl : 0 = position := by simpa [ha] using hposition
      have hkeep : (rest.map fun b => if name b == n then change b else b) = rest := by
        refine (List.map_congr_left fun b hb => if_neg ?_).trans (List.map_id _)
        rw [beq_iff_eq, ← ha]
        exact fun hname => h.1 (hname ▸ List.mem_map_of_mem hb)
      rw [List.modify_zero_cons, List.map_cons, hkeep, if_pos (beq_iff_eq.2 ha)]
    · have hne : ¬(name a == n) = true := by simpa using ha
      rw [if_neg hne, Option.map_eq_some_iff] at hposition
      obtain ⟨before, hbefore, rfl⟩ := hposition
      rw [List.modify_succ_cons, ih h.2 hbefore, List.map_cons, if_neg hne]

/-- A new name behind others is found at the end, and the others where they were. -/
theorem findIdx?_concat {names : List String} {name other : String} (h : name ∉ names) :
    (names ++ [name]).findIdx? (· == other) =
      if other = name then some names.length else names.findIdx? (· == other) := by
  rw [List.findIdx?_append]
  by_cases hother : other = name
  · have hnone : names.findIdx? (· == other) = none := by
      refine List.findIdx?_eq_none_iff.2 fun known hmem => beq_eq_false_iff_ne.2 ?_
      rintro rfl
      exact h (hother ▸ hmem)
    rw [if_pos hother, hnone, hother]
    simp
  · have hne : ¬(name == other) = true := by simpa using Ne.symm hother
    rw [if_neg hother, List.findIdx?_singleton, if_neg hne, Option.map_none, Option.or_none]

/-- What is listed is changed at the position of a name as the entries with the name are. -/
theorem AssetEntry.modify_listed {entries : List AssetEntry} {name : String} {position : Nat}
    (h : (entries.map (·.name)).Nodup)
    (hposition : (entries.map (·.name)).findIdx? (· == name) = some position) (path : FilePath)
    (bundle? : Option FilePath) :
    (entries.map listed).modify position (·.enter path bundle?) =
      (entries.map fun entry =>
        if entry.name == name then entry.enter path bundle? else entry).map listed := by
  have hnames : (entries.map listed).map (·.name) = entries.map (·.name) := by
    rw [List.map_map]
    rfl
  rw [← hnames] at h hposition
  rw [modify_eq_map_of_nodup h hposition, List.map_map, List.map_map]
  refine List.map_congr_left fun entry _ => ?_
  rw [Function.comp_apply, Function.comp_apply, apply_ite listed, listed_enter]
  rfl

namespace AssetRegistry

variable {registry : AssetRegistry} {name other : String} {path : FilePath}
  {bundle? : Option FilePath}

theorem entries_insert_of_mem (h : name ∈ registry.names) :
    (registry.insert name path bundle?).entries = registry.entries.map fun entry =>
      if entry.name == name then entry.enter path bundle? else entry :=
  if_pos ((isSome_get?_iff registry).2 h)

theorem entries_insert_of_notMem (h : name ∉ registry.names) :
    (registry.insert name path bundle?).entries =
      registry.entries ++ [⟨name, [path], bundle?, 1⟩] :=
  if_neg (mt (isSome_get?_iff registry).1 h)

theorem shared?_insert_of_ne (h : other ≠ name) :
    (registry.insert name path bundle?).shared? other = registry.shared? other := by
  rw [shared?, get?_insert, if_neg h, shared?]

/-- A new name is not shared, and leaves the others as they are. -/
theorem shared?_insert_of_notMem (h : name ∉ registry.names) :
    (registry.insert name path bundle?).shared? other = registry.shared? other := by
  by_cases hother : other = name
  · have hnone : registry.get? name = none := by
      rwa [← Option.not_isSome_iff_eq_none, isSome_get?_iff]
    rw [hother, shared?, shared?, get?_insert, if_pos rfl, hnone]
    rfl
  · exact shared?_insert_of_ne hother

/-- A name that is entered again is shared: one use more than before, or two when it was
not shared before. -/
theorem shared?_insert_of_mem (hused : ∀ entry ∈ registry.entries, 1 ≤ entry.uses)
    (h : name ∈ registry.names) :
    (registry.insert name path bundle?).shared? name =
      some ((registry.shared? name).getD 1 + 1) := by
  obtain ⟨entry, hentry⟩ := Option.isSome_iff_exists.1 ((isSome_get?_iff registry).2 h)
  have huses : 1 ≤ entry.uses := hused entry (List.mem_of_find?_eq_some hentry)
  have hbefore : (registry.shared? name).getD 1 = entry.uses := by
    rw [shared?, hentry, Option.map_some, Option.filter_some]
    split
    · rfl
    · next hshared =>
      have honce : ¬2 ≤ entry.uses := by simpa using hshared
      rw [Option.getD_none]
      omega
  have hafter : 2 ≤ entry.uses + 1 := by omega
  rw [hbefore, shared?, get?_insert, if_pos rfl, hentry]
  exact Option.filter_some_pos (decide_eq_true hafter)

end AssetRegistry

namespace AssetTables

variable {tables : AssetTables} {registry : AssetRegistry} {name : String}

/-- Tables and a registry that are about the same images. -/
structure Agrees (tables : AssetTables) (registry : AssetRegistry) : Prop where
  /-- The entries are those of the registry, but for the numbers of uses. -/
  entries_eq : tables.entries = registry.entries.map AssetEntry.listed
  /-- The index gives the first position of each name. -/
  lookup_index : ∀ name, tables.index.lookup name = registry.names.findIdx? (· == name)
  /-- The counts are the numbers of the shared names. -/
  lookup_counts : ∀ name, tables.counts.lookup name = registry.shared? name

theorem agrees_empty : ({} : AssetTables).Agrees {} :=
  ⟨rfl, fun _ => rfl, fun _ => rfl⟩

theorem Agrees.map_name_entries (h : tables.Agrees registry) :
    tables.entries.map (·.name) = registry.names := by
  rw [h.entries_eq, List.map_map]
  rfl

/-- The index has the names of the registry. -/
theorem Agrees.isSome_lookup_iff (h : tables.Agrees registry) :
    (tables.index.lookup name).isSome = true ↔ name ∈ registry.names := by
  rw [h.lookup_index, List.findIdx?_isSome, List.any_eq_true]
  simp only [beq_iff_eq, exists_eq_right]

/-- **Entering an image preserves the agreement**, where each name has one entry and every
entry was used. -/
theorem Agrees.insert (h : tables.Agrees registry) (hnodup : registry.names.Nodup)
    (hused : ∀ entry ∈ registry.entries, 1 ≤ entry.uses) (name : String) (path : FilePath)
    (bundle? : Option FilePath) :
    (tables.insert name path bundle?).Agrees (registry.insert name path bundle?) := by
  have hnames : (registry.insert name path bundle?).names =
      if name ∈ registry.names then registry.names else registry.names ++ [name] :=
    registry.names_insert
  cases hlookup : tables.index.lookup name with
  | some position =>
    have hknown : name ∈ registry.names := h.isSome_lookup_iff.1 (by rw [hlookup]; rfl)
    rw [if_pos hknown] at hnames
    rw [insert_of_some hlookup]
    refine ⟨?_, fun other => ?_, fun other => ?_⟩
    · rw [h.lookup_index] at hlookup
      rw [registry.entries_insert_of_mem hknown, h.entries_eq]
      exact AssetEntry.modify_listed hnodup hlookup path bundle?
    · rw [hnames]
      exact h.lookup_index other
    · by_cases hother : other = name
      · rw [hother, AssetRegistry.shared?_insert_of_mem hused hknown, ← h.lookup_counts]
        exact AList.lookup_insert _
      · rw [AssetRegistry.shared?_insert_of_ne hother, ← h.lookup_counts]
        exact AList.lookup_insert_ne hother
  | none =>
    have hnew : name ∉ registry.names := by
      rw [← h.isSome_lookup_iff, hlookup]
      exact Bool.false_ne_true
    rw [if_neg hnew] at hnames
    rw [insert_of_none hlookup]
    refine ⟨?_, fun other => ?_, fun other => ?_⟩
    · rw [registry.entries_insert_of_notMem hnew, List.map_append, h.entries_eq]
      rfl
    · rw [hnames, findIdx?_concat hnew]
      by_cases hother : other = name
      · rw [if_pos hother, hother, AList.lookup_insert, ← h.map_name_entries, List.length_map]
      · rw [if_neg hother, AList.lookup_insert_ne hother, h.lookup_index]
    · rw [AssetRegistry.shared?_insert_of_notMem hnew]
      exact h.lookup_counts other

/-- A position in the index is that of an entry, and the entry has the name. -/
theorem Agrees.exists_entry (h : tables.Agrees registry) {position : Nat}
    (hlookup : tables.index.lookup name = some position) :
    ∃ asset, tables.entries[position]? = some asset ∧ asset.name = name := by
  rw [h.lookup_index, ← h.map_name_entries, List.findIdx?_eq_some_iff_getElem] at hlookup
  obtain ⟨hlt, hname, -⟩ := hlookup
  rw [List.length_map] at hlt
  exact ⟨tables.entries[position], List.getElem?_eq_getElem hlt, by simpa using hname⟩

theorem Agrees.get?_eq (h : tables.Agrees registry) (name : String) :
    tables.get? name = (registry.get? name).map AssetEntry.listed := by
  rw [get?, h.lookup_index, h.entries_eq, AssetRegistry.get?,
    List.find?_eq_bind_findIdx?_getElem?, AssetRegistry.names, List.findIdx?_map,
    Option.map_bind]
  simp only [List.getElem?_map]
  rfl

/-! ### Histories -/

/-- **Tables and a registry agree after the same history.** -/
theorem agrees_ofInserts (images : List NamedImage) :
    (ofInserts images).Agrees (AssetRegistry.ofInserts images) := by
  induction images using List.reverseRecOn with
  | nil => exact agrees_empty
  | append_singleton images image ih =>
    rw [ofInserts_concat, AssetRegistry.ofInserts_concat]
    exact ih.insert (AssetRegistry.nodup_names_ofInserts images)
      (fun _ => AssetRegistry.one_le_uses_of_mem) _ _ _

/-- **Tables and a registry give the same answers**, whatever was entered. The entries are
the same but for their numbers of uses, and the index points at the one with the name. So a
name finds the same entry and the same place to look for it. The shared names are the same,
with the same counts and in the same order, and so is the number of names. -/
theorem answers_ofInserts (images : List NamedImage) :
    (ofInserts images).entries =
        (AssetRegistry.ofInserts images).entries.map AssetEntry.listed ∧
      (∀ name position, (ofInserts images).index.lookup name = some position →
        ∃ asset, (ofInserts images).entries[position]? = some asset ∧ asset.name = name) ∧
      (∀ name, (ofInserts images).get? name =
        ((AssetRegistry.ofInserts images).get? name).map AssetEntry.listed) ∧
      (∀ name, ((ofInserts images).get? name).bind ListedAsset.bestLocation? =
        ((AssetRegistry.ofInserts images).get? name).bind AssetEntry.bestLocation?) ∧
      (∀ name, (ofInserts images).shared? name =
        (AssetRegistry.ofInserts images).shared? name) ∧
      (ofInserts images).shared = (AssetRegistry.ofInserts images).shared ∧
      (ofInserts images).size = (AssetRegistry.ofInserts images).size := by
  have h := agrees_ofInserts images
  refine ⟨h.entries_eq, fun _ _ => h.exists_entry, h.get?_eq, fun name => ?_,
    h.lookup_counts, ?_, ?_⟩
  · rw [h.get?_eq, Option.bind_map]
    simp only [Function.comp_def, AssetEntry.bestLocation?_listed]
  · refine eq_of_pairwise_name_lt (Table.pairwise_byName _)
      (AssetRegistry.pairwise_shared_ofInserts images) fun found => ?_
    rw [shared, Table.mem_byName_iff, AssetRegistry.mem_shared_iff_shared?, h.lookup_counts]
  · rw [size, h.entries_eq, List.length_map, AssetRegistry.size]

end AssetTables

end Unreferenced
