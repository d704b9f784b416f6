import Mathlib.Algebra.BigOperators.Group.List.Lemmas
import Mathlib.Algebra.GroupWithZero.Nat
import Mathlib.Data.List.Induction
import Mathlib.Data.List.Nodup
import Unreferenced.Asset.Registry
import Unreferenced.Proofs.Distinct

/-!
# Images entered one after another

What a registry of images says of a name is what the images entered under that name give,
in their order, and the other images have no part in it
(`Unreferenced.AssetRegistry.get?_ofInserts`). Such images give a whole entry at once:
their different paths, the first bundle that came with one of them, and their number
(`Unreferenced.AssetEntry.ofImages?_eq`). So the place to look for a name can be read off
its images: the first bundle, and if there is none, the path of the first
(`Unreferenced.AssetEntry.bestLocation?_ofImages?`). The names themselves are in the order
in which they came first (`Unreferenced.AssetRegistry.names_ofInserts`).
-/

namespace Unreferenced

/-- An image as it is entered under a name. -/
structure NamedImage where
  /-- The name. -/
  name : String
  /-- The path of the image. -/
  path : FilePath
  /-- The bundle that gave the name, if one did. -/
  bundle? : Option FilePath
deriving DecidableEq

/-! ### One entry -/

namespace AssetEntry

/-- The entry that images leave which are entered under one name. -/
def ofImages? : List NamedImage → Option AssetEntry
  | [] => none
  | first :: rest =>
    some (rest.foldl (fun entry image => entry.enter image.path image.bundle?)
      ⟨first.name, [first.path], first.bundle?, 1⟩)

@[simp] theorem name_enter (entry : AssetEntry) (path : FilePath) (bundle? : Option FilePath) :
    (entry.enter path bundle?).name = entry.name :=
  rfl

theorem ofImages?_concat (images : List NamedImage) (image : NamedImage) :
    ofImages? (images ++ [image]) =
      some ((ofImages? images).elim ⟨image.name, [image.path], image.bundle?, 1⟩
        fun entry => entry.enter image.path image.bundle?) := by
  cases images with
  | nil => rfl
  | cons first rest =>
    rw [List.cons_append, ofImages?, List.foldl_concat]
    rfl

/-- **What images leave that are entered under one name**: the name of the first, their
different paths, the first bundle that came with one of them, and their number. -/
theorem ofImages?_eq (images : List NamedImage) :
    ofImages? images = images.head?.map fun first =>
      { name := first.name
        locations := (images.map (·.path)).eraseDupsBy fun p q => p.Same q
        bundle? := images.findSome? (·.bundle?)
        uses := images.length } := by
  induction images using List.reverseRecOn with
  | nil => rfl
  | append_singleton images image ih =>
    -- One more image joins the entry of those before it, or starts one.
    rw [ofImages?_concat, ih, List.map_append, List.map_singleton, eraseDupsBy_concat,
      List.findSome?_append, List.length_append, List.length_singleton]
    cases images with
    | nil => simp [List.eraseDupsBy_nil]
    | cons first rest =>
      have hknown : ∀ paths : List FilePath, (paths.any fun known => known.Same image.path) =
          paths.any fun known => image.path.Same known := by
        intro paths
        simp only [FilePath.same_comm]
      simp only [List.head?_cons, Option.map_some, Option.elim_some, enter, hknown,
        List.cons_append, List.findSome?_singleton]

/-- **Where to look for images that share a name**: at the first bundle that came with
one of them, or else at the first of them. -/
theorem bestLocation?_ofImages? (images : List NamedImage) :
    (ofImages? images).bind bestLocation? =
      (images.findSome? (·.bundle?)).or (images.head?.map (·.path)) := by
  rw [ofImages?_eq]
  cases images with
  | nil => rfl
  | cons first rest =>
    rw [List.head?_cons, Option.map_some, Option.bind_some, bestLocation?, List.map_cons,
      List.eraseDupsBy_cons, List.head?_cons, Option.map_some]

/-- An entry counts the images that were entered under its name. -/
theorem uses_of_ofImages? {images : List NamedImage} {entry : AssetEntry}
    (h : ofImages? images = some entry) : entry.uses = images.length := by
  rw [ofImages?_eq, Option.map_eq_some_iff] at h
  obtain ⟨first, -, rfl⟩ := h
  rfl

/-- Images with different paths are all listed by the entry. -/
theorem locations_of_ofImages? {images : List NamedImage} {entry : AssetEntry}
    (hpaths : images.Pairwise fun a b => ¬a.path.Same b.path)
    (h : ofImages? images = some entry) : entry.locations = images.map (·.path) := by
  rw [ofImages?_eq, Option.map_eq_some_iff] at h
  obtain ⟨first, -, rfl⟩ := h
  refine eraseDupsBy_of_pairwise _ (List.pairwise_map.2 (hpaths.imp fun {a b} hdiffer => ?_))
  exact decide_eq_false fun hsame => hdiffer hsame.symm

end AssetEntry

/-! ### The registry -/

namespace AssetRegistry

variable {name other : String} {path : FilePath} {bundle? : Option FilePath}

/-- The registry after entering images into an empty one, in order. -/
def ofInserts (images : List NamedImage) : AssetRegistry :=
  images.foldl (fun registry image => registry.insert image.name image.path image.bundle?) {}

/-- The names of a registry, in the order of its entries. -/
def names (registry : AssetRegistry) : List String :=
  registry.entries.map (·.name)

theorem ofInserts_concat (images : List NamedImage) (image : NamedImage) :
    ofInserts (images ++ [image]) =
      (ofInserts images).insert image.name image.path image.bundle? := by
  rw [ofInserts, List.foldl_concat]
  rfl

theorem isSome_get?_iff (registry : AssetRegistry) :
    (registry.get? name).isSome = true ↔ name ∈ registry.names := by
  simp [get?, names]

/-- Entering an image changes the entry of its name and no other. -/
theorem get?_insert (registry : AssetRegistry) :
    (registry.insert name path bundle?).get? other =
      if other = name then
        some ((registry.get? name).elim ⟨name, [path], bundle?, 1⟩ (·.enter path bundle?))
      else registry.get? other := by
  rw [insert, get?]
  dsimp only
  split
  · next hsome =>
    obtain ⟨entry, hentry⟩ := Option.isSome_iff_exists.1 hsome
    have hname : entry.name = name := by simpa using List.find?_some hentry
    have hkeep : ((fun entry : AssetEntry => entry.name == other) ∘ fun entry =>
        if entry.name == name then entry.enter path bundle? else entry) =
          fun entry => entry.name == other := by
      funext entry
      simp only [Function.comp_apply, apply_ite AssetEntry.name, AssetEntry.name_enter, ite_self]
    rw [List.find?_map, hkeep, ← get?]
    by_cases hother : other = name
    · rw [if_pos hother, hother, hentry]
      simp [hname]
    · rw [if_neg hother]
      cases hfound : registry.get? other with
      | none => rfl
      | some found =>
        have hfoundName : found.name = other := by simpa using List.find?_some hfound
        simp [hfoundName, hother]
  · next hnone =>
    rw [Option.not_isSome_iff_eq_none] at hnone
    rw [List.find?_append, ← get?, hnone]
    by_cases hother : other = name
    · rw [if_pos hother, hother, hnone]
      simp
    · simp [hother, Ne.symm hother]

/-- **What is known about a name** comes from the images that were entered under it. -/
theorem get?_ofInserts (images : List NamedImage) (name : String) :
    (ofInserts images).get? name = AssetEntry.ofImages? (images.filter (·.name == name)) := by
  induction images using List.reverseRecOn with
  | nil => rfl
  | append_singleton images image ih =>
    rw [ofInserts_concat, get?_insert, List.filter_append]
    by_cases hname : image.name = name
    · subst hname
      have hkeep : [image].filter (·.name == image.name) = [image] := by simp
      rw [if_pos rfl, ih, hkeep, AssetEntry.ofImages?_concat]
    · have hdrop : [image].filter (·.name == name) = [] := by simp [hname]
      rw [if_neg (Ne.symm hname), ih, hdrop, List.append_nil]

/-- A name joins the names behind the others, unless it is one of them. -/
theorem names_insert (registry : AssetRegistry) :
    (registry.insert name path bundle?).names =
      if name ∈ registry.names then registry.names else registry.names ++ [name] := by
  rw [names, insert]
  dsimp only
  simp only [isSome_get?_iff]
  split
  · -- Entering an image into an entry leaves its name.
    have hkeep : ((·.name) ∘ fun entry : AssetEntry =>
        if entry.name == name then entry.enter path bundle? else entry) = (·.name) := by
      funext entry
      simp only [Function.comp_apply, apply_ite AssetEntry.name, AssetEntry.name_enter, ite_self]
    rw [List.map_map, hkeep, names]
  · rw [List.map_append, List.map_singleton, names]

/-- **The names of a registry** are those that images were entered under, in the order in
which they came first. -/
theorem names_ofInserts (images : List NamedImage) :
    (ofInserts images).names = (images.map (·.name)).eraseDups := by
  induction images using List.reverseRecOn with
  | nil => rfl
  | append_singleton images image ih =>
    rw [ofInserts_concat, names_insert, ih, List.map_append, List.map_singleton, eraseDups_concat]
    simp only [List.mem_eraseDups]

/-- Every name has one entry. -/
theorem nodup_names_ofInserts (images : List NamedImage) : (ofInserts images).names.Nodup := by
  rw [names_ofInserts]
  exact nodup_eraseDups _

/-- The entries are those that the names have. -/
theorem get?_eq_some_iff {registry : AssetRegistry} (h : registry.names.Nodup)
    {entry : AssetEntry} :
    registry.get? name = some entry ↔ entry ∈ registry.entries ∧ entry.name = name :=
  find?_name_eq_some_iff h

/-- The entry of a name is what the images leave that were entered under it. -/
theorem ofImages?_of_mem {images : List NamedImage} {entry : AssetEntry}
    (h : entry ∈ (ofInserts images).entries) :
    AssetEntry.ofImages? (images.filter (·.name == entry.name)) = some entry := by
  rw [← get?_ofInserts]
  exact (get?_eq_some_iff (nodup_names_ofInserts images)).2 ⟨h, rfl⟩

/-- A name has an entry exactly when an image was entered under it. -/
theorem mem_names_ofInserts {images : List NamedImage} :
    name ∈ (ofInserts images).names ↔ name ∈ images.map (·.name) := by
  rw [names_ofInserts, List.mem_eraseDups]

/-- The registry has each name once. -/
theorem names_ofInserts_perm (images : List NamedImage) :
    (ofInserts images).names.Perm (images.map (·.name)).dedup := by
  rw [List.perm_ext_iff_of_nodup (nodup_names_ofInserts images) (List.nodup_dedup _)]
  intro name
  rw [mem_names_ofInserts, List.mem_dedup]

theorem length_filter_name (images : List NamedImage) (name : String) :
    (images.filter (·.name == name)).length = (images.map (·.name)).count name := by
  rw [List.count_eq_countP, List.countP_map, List.countP_eq_length_filter]
  rfl

/-- An entry counts the images with its name. -/
theorem uses_of_mem {images : List NamedImage} {entry : AssetEntry}
    (h : entry ∈ (ofInserts images).entries) :
    entry.uses = (images.map (·.name)).count entry.name := by
  rw [AssetEntry.uses_of_ofImages? (ofImages?_of_mem h), length_filter_name]

/-- Every entry was used. -/
theorem one_le_uses_of_mem {images : List NamedImage} {entry : AssetEntry}
    (h : entry ∈ (ofInserts images).entries) : 1 ≤ entry.uses := by
  rw [uses_of_mem h, Nat.one_le_iff_ne_zero, Ne, List.count_eq_zero, not_not,
    ← mem_names_ofInserts]
  exact List.mem_map_of_mem h

/-- **Every image is counted once**, under whatever name it was entered. -/
theorem sum_uses_ofInserts (images : List NamedImage) :
    ((ofInserts images).entries.map (·.uses)).sum = images.length := by
  have hcounts : (ofInserts images).entries.map (·.uses) =
      (ofInserts images).names.map fun name => (images.map (·.name)).count name := by
    rw [names, List.map_map]
    exact List.map_congr_left fun entry hmem => uses_of_mem hmem
  rw [hcounts, ((names_ofInserts_perm images).map _).sum_eq, List.sum_map_count_dedup_eq_length,
    List.length_map]

theorem mem_shared_iff {registry : AssetRegistry} {count : Nat} :
    (name, count) ∈ registry.shared ↔
      ∃ entry ∈ registry.entries, 2 ≤ entry.uses ∧ entry.name = name ∧ entry.uses = count := by
  simp only [shared, (sortedBy_perm _).mem_iff, List.mem_map, List.mem_filter, Prod.mk.injEq,
    decide_eq_true_eq, and_assoc]

/-- **The shared names** are those of at least two images, each with their number. -/
theorem mem_shared_ofInserts {images : List NamedImage} {count : Nat} :
    (name, count) ∈ (ofInserts images).shared ↔
      2 ≤ count ∧ count = (images.map (·.name)).count name := by
  rw [mem_shared_iff]
  constructor
  · rintro ⟨entry, hmem, huses, rfl, rfl⟩
    exact ⟨huses, uses_of_mem hmem⟩
  · rintro ⟨hcount, rfl⟩
    have hname : name ∈ (ofInserts images).names :=
      mem_names_ofInserts.2 (List.count_pos_iff.1 (by omega))
    obtain ⟨entry, hmem, rfl⟩ := List.mem_map.1 hname
    exact ⟨entry, hmem, (uses_of_mem hmem).symm ▸ hcount, rfl, uses_of_mem hmem⟩

/-- The shared names are in strict order. -/
theorem pairwise_shared_ofInserts (images : List NamedImage) :
    (ofInserts images).shared.Pairwise fun a b => a.1 < b.1 := by
  refine pairwise_lt_sortedBy ?_
  rw [List.map_map]
  exact (nodup_names_ofInserts images).sublist (List.filter_sublist.map _)

end AssetRegistry

end Unreferenced
