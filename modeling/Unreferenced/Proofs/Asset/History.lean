import Unreferenced.Proofs.Asset.Registry

/-!
# What a registry of images remembers

Whatever the order in which images come in, and however often, a registry says of them what
their list says. Its names are the different names in the order in which they came first
(`Unreferenced.AssetRegistry.names_ofInserts`), and behind each name stands the one entry
that the images with this name add up to (`Unreferenced.AssetEntry.gathered`).

A name is counted each time it is entered, and a path only when it is new under the name.
So the count of a shared name can be greater than the number of its paths, but the counts
miss nothing: all that was entered is one image for each name, and for each shared name
the rest of its count (`Unreferenced.AssetRegistry.length_eq_size_add_sum`).

`Unreferenced.AssetRegistry.images_ofInserts` puts these together.
-/

namespace Unreferenced

/-- The entry of a name after a history of images: the different paths of those with the
name, each where it came first, the first bundle that came with one of them, and their
number. -/
def AssetEntry.gathered (images : List NamedImage) (name : String) : AssetEntry :=
  let own := images.filter (·.name == name)
  { name
    locations := (own.map (·.path)).eraseDupsBy fun p q => p.Same q
    bundle? := own.findSome? (·.bundle?)
    uses := own.length }

namespace AssetRegistry

variable {name : String}

/-! ### Entries -/

/-- A name has the entry that its images add up to, or none if it was never entered. -/
theorem get?_ofInserts_eq_gathered (images : List NamedImage) (name : String) :
    (ofInserts images).get? name =
      if name ∈ images.map (·.name) then some (AssetEntry.gathered images name) else none := by
  rw [get?_ofInserts, AssetEntry.ofImages?_eq, AssetEntry.gathered]
  -- A name is missing when it has no images; the first that it has gives the entry its name.
  cases hown : images.filter (·.name == name) with
  | nil =>
    have hnone : name ∉ images.map (·.name) := by
      rw [List.filter_eq_nil_iff] at hown
      simpa using hown
    rw [if_neg hnone, List.head?_nil, Option.map_none]
  | cons first rest =>
    have hfirst : first ∈ images.filter (·.name == name) := by rw [hown]; exact List.mem_cons_self
    obtain ⟨hmem, hname⟩ := List.mem_filter.1 hfirst
    rw [beq_iff_eq] at hname
    rw [if_pos (hname ▸ List.mem_map_of_mem hmem), List.head?_cons, Option.map_some, hname]

/-- **The entries** are those that the images of each name add up to, in the order in which
the names came first. -/
theorem entries_ofInserts (images : List NamedImage) :
    (ofInserts images).entries =
      (images.map (·.name)).eraseDups.map (AssetEntry.gathered images) := by
  rw [← names_ofInserts, names, List.map_map]
  refine (List.map_id _).symm.trans (List.map_congr_left fun entry hmem => ?_)
  -- An entry is what its name finds, and that is known.
  have hget := (get?_eq_some_iff (nodup_names_ofInserts images)).2 ⟨hmem, rfl⟩
  rw [get?_ofInserts_eq_gathered] at hget
  split at hget
  · exact (Option.some.inj hget).symm
  · cases hget

/-- The place to look for a name is the first bundle that came with one of its images, or
else the path of the first of them. -/
theorem bestLocation?_ofInserts (images : List NamedImage) (name : String) :
    ((ofInserts images).get? name).bind AssetEntry.bestLocation? =
      ((images.filter (·.name == name)).findSome? (·.bundle?)).or
        ((images.filter (·.name == name)).head?.map (·.path)) := by
  rw [get?_ofInserts, AssetEntry.bestLocation?_ofImages?]

/-! ### Counts -/

theorem uses_gathered (images : List NamedImage) (name : String) :
    (AssetEntry.gathered images name).uses = (images.map (·.name)).count name :=
  length_filter_name images name

/-- A name is shared when it was entered at least twice, and then as often as it was. -/
theorem shared?_ofInserts (images : List NamedImage) (name : String) :
    (ofInserts images).shared? name =
      if 2 ≤ (images.map (·.name)).count name then some ((images.map (·.name)).count name)
      else none := by
  rw [shared?, get?_ofInserts_eq_gathered]
  by_cases hname : name ∈ images.map (·.name)
  · rw [if_pos hname, Option.map_some, uses_gathered, Option.filter_some]
    simp only [decide_eq_true_eq]
  · have hcount : (images.map (·.name)).count name = 0 := List.count_eq_zero.2 hname
    rw [if_neg hname, hcount]
    rfl

/-- The shared names are listed with their counts. -/
theorem mem_shared_iff_shared? {images : List NamedImage} {count : Nat} :
    (name, count) ∈ (ofInserts images).shared ↔ (ofInserts images).shared? name = some count := by
  rw [mem_shared_ofInserts, shared?_ofInserts]
  constructor
  · rintro ⟨hcount, rfl⟩
    exact if_pos hcount
  · intro hshared
    split at hshared
    · next hcount =>
      obtain rfl := Option.some.inj hshared
      exact ⟨hcount, rfl⟩
    · cases hshared

/-- Where every entry was used, the uses are one for each entry, and for each shared one
those behind its first. -/
theorem sum_uses_eq {entries : List AssetEntry} (h : ∀ entry ∈ entries, 1 ≤ entry.uses) :
    (entries.map (·.uses)).sum =
      entries.length + ((entries.filter (2 ≤ ·.uses)).map (·.uses - 1)).sum := by
  induction entries with
  | nil => rfl
  | cons entry rest ih =>
    have hentry := h entry List.mem_cons_self
    have hrest := ih fun other hother => h other (List.mem_cons_of_mem _ hother)
    rw [List.filter_cons]
    split
    · simp only [List.map_cons, List.sum_cons, List.length_cons]
      omega
    · next hshared =>
      -- The entry was used once, and adds nothing to the rest.
      have honce : ¬2 ≤ entry.uses := by simpa using hshared
      simp only [List.map_cons, List.sum_cons, List.length_cons]
      omega

/-- **The counts miss nothing**: what was entered is one image for each name, and for each
shared name the rest of its count. -/
theorem length_eq_size_add_sum (images : List NamedImage) :
    images.length =
      (ofInserts images).size + ((ofInserts images).shared.map fun s => s.2 - 1).sum := by
  have hshared : ((ofInserts images).shared.map fun s => s.2 - 1).sum =
      (((ofInserts images).entries.filter (2 ≤ ·.uses)).map (·.uses - 1)).sum := by
    rw [shared, ((sortedBy_perm _).map _).sum_eq, List.map_map]
    rfl
  rw [← sum_uses_ofInserts, sum_uses_eq fun _ => one_le_uses_of_mem, hshared, size]

/-- **What is said of any history of images.** There is one entry for each name, in the
order in which the names came first, with the different paths of the images that were
entered under it, each where it came first, the first bundle that came with one of them,
and their number. A name finds its entry, and no entry if it was never entered; the place
to look for it is that bundle, or else the path of its first image. It is shared when it
was entered at least twice, and the shared names are listed in strict order with these
counts, which miss nothing. -/
theorem images_ofInserts (images : List NamedImage) :
    (ofInserts images).entries =
        (images.map (·.name)).eraseDups.map (AssetEntry.gathered images) ∧
      (∀ name, (ofInserts images).get? name =
        if name ∈ images.map (·.name) then some (AssetEntry.gathered images name) else none) ∧
      (∀ name, ((ofInserts images).get? name).bind AssetEntry.bestLocation? =
        ((images.filter (·.name == name)).findSome? (·.bundle?)).or
          ((images.filter (·.name == name)).head?.map (·.path))) ∧
      (∀ name, (ofInserts images).shared? name =
        if 2 ≤ (images.map (·.name)).count name then some ((images.map (·.name)).count name)
        else none) ∧
      (ofInserts images).shared.Pairwise (fun a b => a.1 < b.1) ∧
      (∀ name count, (name, count) ∈ (ofInserts images).shared ↔
        (ofInserts images).shared? name = some count) ∧
      images.length =
        (ofInserts images).size + ((ofInserts images).shared.map fun s => s.2 - 1).sum :=
  ⟨entries_ofInserts images, get?_ofInserts_eq_gathered images, bestLocation?_ofInserts images,
    shared?_ofInserts images, pairwise_shared_ofInserts images, fun _ _ => mem_shared_iff_shared?,
    length_eq_size_add_sum images⟩

/-- An image that is entered twice counts twice and is listed once; its bundle may come
late. -/
example :
    (ofInserts [⟨"b", ⟨"b.png"⟩, none⟩, ⟨"a", ⟨"x/a.png"⟩, none⟩, ⟨"a", ⟨"x//a.png"⟩, none⟩,
      ⟨"a", ⟨"a.imageset/a.png"⟩, some ⟨"a.imageset"⟩⟩]).entries =
        [⟨"b", [⟨"b.png"⟩], none, 1⟩,
          ⟨"a", [⟨"x/a.png"⟩, ⟨"a.imageset/a.png"⟩], some ⟨"a.imageset"⟩, 3⟩] := by
  decide

end AssetRegistry

end Unreferenced
