/-!
# Lists in the order of a name

Directories, registries and reports are put in the order of names, compared character by
character. `sortedBy` orders a list by a name of its elements and keeps the order of
elements with the same name; it recurses on the list, so that a closed list can be put in
order by evaluation. Where no two names agree, a name finds its one element.
-/

namespace Unreferenced

variable {α : Type} {name : α → String}

/-- A list with an element put in front of the first that its name does not exceed. -/
def insertBy (name : α → String) (a : α) : List α → List α
  | [] => [a]
  | b :: rest => if name a ≤ name b then a :: b :: rest else b :: insertBy name a rest

/-- A list in the order of the names of its elements. -/
def sortedBy (name : α → String) (as : List α) : List α :=
  as.foldr (insertBy name) []

theorem insertBy_perm (a : α) (as : List α) : (insertBy name a as).Perm (a :: as) := by
  induction as with
  | nil => exact .refl _
  | cons b rest ih =>
    unfold insertBy
    split
    · exact .refl _
    · exact (ih.cons b).trans (.swap a b rest)

/-- Sorting keeps the elements. -/
theorem sortedBy_perm (as : List α) : (sortedBy name as).Perm as := by
  induction as with
  | nil => exact .refl _
  | cons a rest ih => exact (insertBy_perm a (sortedBy name rest)).trans (ih.cons a)

theorem pairwise_insertBy {a : α} {as : List α}
    (h : as.Pairwise fun b c => name b ≤ name c) :
    (insertBy name a as).Pairwise fun b c => name b ≤ name c := by
  induction as with
  | nil => exact List.pairwise_singleton _ a
  | cons b rest ih =>
    have hrest := List.pairwise_cons.1 h
    unfold insertBy
    split
    · next hab =>
      refine List.pairwise_cons.2 ⟨fun c hc => ?_, h⟩
      rcases List.mem_cons.1 hc with rfl | hc
      · exact hab
      · exact String.le_trans hab (hrest.1 c hc)
    · next hab =>
      refine List.pairwise_cons.2 ⟨fun c hc => ?_, ih hrest.2⟩
      rcases List.mem_cons.1 ((insertBy_perm a rest).mem_iff.1 hc) with rfl | hc
      · exact (String.le_total _ _).resolve_right hab
      · exact hrest.1 c hc

/-- A sorted list is in the order of the names. -/
theorem pairwise_sortedBy (as : List α) :
    (sortedBy name as).Pairwise fun b c => name b ≤ name c := by
  induction as with
  | nil => exact .nil
  | cons a rest ih => exact pairwise_insertBy ih

/-- Where no two names agree, a sorted list is in the strict order of the names. -/
theorem pairwise_lt_sortedBy {as : List α} (h : (as.map name).Nodup) :
    (sortedBy name as).Pairwise fun b c => name b < name c := by
  have hdistinct : (sortedBy name as).Pairwise fun b c => name b ≠ name c :=
    List.pairwise_map.1 (((sortedBy_perm as).map name).nodup_iff.2 h)
  refine ((pairwise_sortedBy as).and hdistinct).imp fun {b c} hbc => ?_
  exact String.not_le.1 fun hcb => hbc.2 (String.le_antisymm hbc.1 hcb)

/-- Lists in the strict order of the names are told by their elements. -/
theorem eq_of_pairwise_name_lt {as bs : List α} (h : as.Pairwise fun a b => name a < name b)
    (h' : bs.Pairwise fun a b => name a < name b) (hmem : ∀ a, a ∈ as ↔ a ∈ bs) : as = bs := by
  have hnodup : ∀ {cs : List α}, cs.Pairwise (fun a b => name a < name b) → cs.Nodup :=
    fun hcs => hcs.imp fun {a b} hlt => by
      rintro rfl
      exact String.lt_irrefl _ hlt
  refine List.Perm.eq_of_pairwise (fun a b _ _ hab hba => ?_) h h'
    ((List.perm_ext_iff_of_nodup (hnodup h) (hnodup h')).2 hmem)
  exact absurd hba (String.lt_asymm hab)

/-- Names in strict order are told by which they are. -/
theorem eq_of_pairwise_lt {ns ms : List String} (h : ns.Pairwise (· < ·))
    (h' : ms.Pairwise (· < ·)) (hmem : ∀ n, n ∈ ns ↔ n ∈ ms) : ns = ms :=
  @eq_of_pairwise_name_lt String id ns ms h h' hmem

/-- Where no two names agree, what is found by a name is the element that has it. -/
theorem find?_name_eq_some_iff {as : List α} (h : (as.map name).Nodup) {n : String} {a : α} :
    as.find? (name · == n) = some a ↔ a ∈ as ∧ name a = n := by
  constructor
  · intro hfind
    exact ⟨List.mem_of_find?_eq_some hfind, by simpa using List.find?_some hfind⟩
  · rintro ⟨hmem, rfl⟩
    obtain ⟨before, after, rfl⟩ := List.append_of_mem hmem
    rw [List.map_append, List.nodup_append] at h
    refine List.find?_eq_some_iff_append.2 ⟨by simp, before, after, rfl, fun earlier he => ?_⟩
    simpa using h.2.2 _ (List.mem_map_of_mem he) (name a) (by simp)

end Unreferenced
