import Mathlib.Data.List.Basic
import Mathlib.Data.List.Induction

/-!
# The last element with a property

Where declarations are entered one after another the last one counts. `IsLastWith` says
which element of a list is the last with a property; with a further list behind it, either
that list has a last one, or it has none and nothing changes
(`Unreferenced.isLastWith_append_iff`). That rule is all that an induction along a list
needs.
-/

namespace Unreferenced

variable {α : Type} {p : α → Prop} {as bs : List α} {a b : α}

/-- The element is in the list, has the property, and no element behind it does. -/
def IsLastWith (p : α → Prop) (as : List α) (a : α) : Prop :=
  ∃ before after, as = before ++ a :: after ∧ p a ∧ ∀ b ∈ after, ¬p b

theorem IsLastWith.mem (h : IsLastWith p as a) : a ∈ as := by
  obtain ⟨before, after, rfl, -, -⟩ := h
  exact List.mem_append_right _ List.mem_cons_self

theorem IsLastWith.holds (h : IsLastWith p as a) : p a := by
  obtain ⟨-, -, -, ha, -⟩ := h
  exact ha

theorem not_isLastWith_nil : ¬IsLastWith p [] a :=
  fun h => absurd h.mem List.not_mem_nil

/-- **The last element with a property in two lists**, one behind the other. -/
theorem isLastWith_append_iff :
    IsLastWith p (as ++ bs) a ↔ IsLastWith p bs a ∨ (∀ b ∈ bs, ¬p b) ∧ IsLastWith p as a := by
  constructor
  · rintro ⟨before, after, hsplit, ha, hafter⟩
    rcases List.append_eq_append_iff.1 hsplit with ⟨front, -, hbs⟩ | ⟨rest, has, hrest⟩
    · exact .inl ⟨front, after, hbs, ha, hafter⟩
    · cases rest with
      | nil => exact .inl ⟨[], after, hrest.symm, ha, hafter⟩
      | cons first more =>
        obtain ⟨rfl, rfl⟩ := List.cons.inj hrest
        exact .inr ⟨fun b hb => hafter b (List.mem_append_right _ hb), before, more, has, ha,
          fun b hb => hafter b (List.mem_append_left _ hb)⟩
  · rintro (⟨before, after, rfl, ha, hafter⟩ | ⟨hbs, before, after, rfl, ha, hafter⟩)
    · exact ⟨as ++ before, after, (List.append_assoc ..).symm, ha, hafter⟩
    · refine ⟨before, after ++ bs, by simp, ha, fun b hb => ?_⟩
      rcases List.mem_append.1 hb with hb | hb
      · exact hafter b hb
      · exact hbs b hb

theorem isLastWith_singleton_iff : IsLastWith p [b] a ↔ p b ∧ a = b := by
  constructor
  · intro h
    obtain rfl := List.mem_singleton.1 h.mem
    exact ⟨h.holds, rfl⟩
  · rintro ⟨hb, rfl⟩
    exact ⟨[], [], rfl, hb, by simp⟩

/-- A list in which some element has the property has a last such element. -/
theorem exists_isLastWith (h : ∃ a ∈ as, p a) : ∃ a, IsLastWith p as a := by
  induction as with
  | nil =>
    obtain ⟨a, hmem, -⟩ := h
    cases hmem
  | cons first rest ih =>
    by_cases hrest : ∃ a ∈ rest, p a
    · obtain ⟨a, before, after, rfl, hlast⟩ := ih hrest
      exact ⟨a, first :: before, after, rfl, hlast⟩
    · push Not at hrest
      obtain ⟨a, hmem, ha⟩ := h
      obtain rfl : a = first := (List.mem_cons.1 hmem).resolve_right fun hc => hrest a hc ha
      exact ⟨a, [], rest, rfl, ha, hrest⟩

/-- There is only one last element. -/
theorem IsLastWith.unique (h : IsLastWith p as a) (h' : IsLastWith p as b) : a = b := by
  obtain ⟨before, after, rfl, ha, hafter⟩ := h
  rw [← List.singleton_append, ← List.append_assoc] at h'
  rcases isLastWith_append_iff.1 h' with hlast | ⟨-, hlast⟩
  · exact absurd hlast.holds (hafter b hlast.mem)
  · rcases isLastWith_append_iff.1 hlast with hsingle | ⟨hnone, -⟩
    · exact (isLastWith_singleton_iff.1 hsingle).2.symm
    · exact absurd ha (hnone a List.mem_cons_self)

/-- The last element with a property is at the end of those that have it. -/
theorem isLastWith_iff_getLast?_filter [DecidablePred p] :
    IsLastWith p as a ↔ (as.filter fun b => p b).getLast? = some a := by
  induction as using List.reverseRecOn with
  | nil => simp [not_isLastWith_nil]
  | append_singleton as last ih =>
    rw [isLastWith_append_iff, isLastWith_singleton_iff, ih, List.filter_append,
      List.getLast?_append]
    by_cases hlast : p last <;> simp [hlast, eq_comm]

/-- The last element with the property is also the last in every part of the list that
keeps it, when no element occurs twice. -/
theorem IsLastWith.of_sublist (h : IsLastWith p bs a) (hsub : as.Sublist bs) (hmem : a ∈ as)
    (hnodup : bs.Nodup) : IsLastWith p as a := by
  obtain ⟨before, after, rfl, ha, hafter⟩ := h
  obtain ⟨front, rest, rfl, hfront, hrest⟩ := List.sublist_append_iff.1 hsub
  obtain ⟨-, hcons, hdisjoint⟩ := List.nodup_append.1 hnodup
  -- The element occurs once, so the part is cut at it where the list is.
  have hnot : a ∉ front := fun hc =>
    hdisjoint a (hfront.subset hc) a List.mem_cons_self rfl
  have hin : a ∈ rest := (List.mem_append.1 hmem).resolve_left hnot
  cases hrest with
  | cons _ hskip => exact absurd (hskip.subset hin) (List.nodup_cons.1 hcons).1
  | @cons_cons kept _ _ hkept =>
    exact ⟨front, kept, rfl, ha, fun b hb => hafter b (hkept.subset hb)⟩

/-- **In a list that is in order the last element with a property is the greatest.** -/
theorem isLastWith_iff_of_pairwise {r : α → α → Prop} (hasymm : ∀ {a b}, r a b → ¬r b a)
    (horder : as.Pairwise r) :
    IsLastWith p as a ↔ a ∈ as ∧ p a ∧ ∀ b ∈ as, p b → b = a ∨ r b a := by
  have hgreatest : ∀ {a}, IsLastWith p as a → ∀ b ∈ as, p b → b = a ∨ r b a := by
    rintro a ⟨before, after, rfl, -, hafter⟩ b hb hp
    rcases List.mem_append.1 hb with hb | hb
    · exact .inr ((List.pairwise_append.1 horder).2.2 b hb a List.mem_cons_self)
    · rcases List.mem_cons.1 hb with rfl | hb
      · exact .inl rfl
      · exact absurd hp (hafter b hb)
  constructor
  · exact fun h => ⟨h.mem, h.holds, hgreatest h⟩
  · rintro ⟨hmem, ha, hall⟩
    obtain ⟨last, hlast⟩ := exists_isLastWith ⟨a, hmem, ha⟩
    rcases hgreatest hlast a hmem ha with rfl | hbefore
    · exact hlast
    · rcases hall last hlast.mem hlast.holds with rfl | hafter
      · exact hlast
      · exact absurd hafter (hasymm hbefore)

end Unreferenced
