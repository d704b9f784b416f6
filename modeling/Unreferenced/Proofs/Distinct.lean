import Mathlib.Data.List.Induction
import Mathlib.Data.List.Nodup

/-!
# The different elements of a history

A registry that is entered the same thing again does not list it again, so what it lists
is the different elements of what was entered, each where it came first. That list is
`List.eraseDups`, and an induction along a history needs to know what one more element at
the end does to it (`Unreferenced.eraseDups_concat`). Paths are told apart by their
components and not by their texts; for them the list is `List.eraseDupsBy`, and the step
is the same (`Unreferenced.eraseDupsBy_concat`). In a scan the repetitions come in runs,
one for each file (`Unreferenced.eraseDups_flatMap_replicate`).
-/

namespace Unreferenced

variable {α β : Type}

/-! ### Elements that are told apart by a relation -/

section Relation

variable (r : α → α → Bool)

/-- The loop behind the list, which is passed what counted so far, treats the last element
as any other: it is compared with all that count before it. -/
theorem eraseDupsBy_loop_concat (as known : List α) (a : α) :
    List.eraseDupsBy.loop r (as ++ [a]) known =
      if (List.eraseDupsBy.loop r as known).any (r a) then List.eraseDupsBy.loop r as known
      else List.eraseDupsBy.loop r as known ++ [a] := by
  induction as generalizing known with
  | nil =>
    rw [List.nil_append, List.eraseDupsBy.loop, List.eraseDupsBy.loop, List.any_reverse]
    cases known.any (r a) <;> simp [List.eraseDupsBy.loop]
  | cons b as ih =>
    rw [List.cons_append, List.eraseDupsBy.loop, List.eraseDupsBy.loop]
    cases known.any (r b) <;> exact ih _

/-- An element at the end counts when it is related to none that counted before. -/
theorem eraseDupsBy_concat (as : List α) (a : α) :
    (as ++ [a]).eraseDupsBy r =
      if (as.eraseDupsBy r).any (r a) then as.eraseDupsBy r else as.eraseDupsBy r ++ [a] :=
  eraseDupsBy_loop_concat r as [] a

/-- Elements that are all told apart all count. -/
theorem eraseDupsBy_of_pairwise {as : List α} (h : as.Pairwise fun a b => r b a = false) :
    as.eraseDupsBy r = as := by
  induction as with
  | nil => rfl
  | cons a as ih =>
    obtain ⟨hfirst, hrest⟩ := List.pairwise_cons.1 h
    have hkeep : as.filter (fun b => decide (r b a = false)) = as :=
      List.filter_eq_self.2 fun b hb => decide_eq_true (hfirst b hb)
    rw [List.eraseDupsBy_cons, hkeep, ih hrest]

end Relation

/-! ### Elements that are told apart by what they are -/

variable [BEq α] [LawfulBEq α]

/-- An element at the end counts when it was not there before. -/
theorem eraseDups_concat (as : List α) (a : α) :
    (as ++ [a]).eraseDups = if a ∈ as then as.eraseDups else as.eraseDups ++ [a] := by
  rw [List.eraseDups_append, List.removeAll, List.filter_singleton]
  by_cases h : a ∈ as <;> simp [h, List.eraseDups_cons]

/-- No element counts twice. -/
theorem nodup_eraseDups (as : List α) : as.eraseDups.Nodup := by
  induction as using List.reverseRecOn with
  | nil => exact .nil
  | append_singleton as a ih =>
    rw [eraseDups_concat]
    split
    · exact ih
    · next hnew =>
      rw [← List.concat_eq_append, List.nodup_concat, List.mem_eraseDups]
      exact ⟨hnew, ih⟩

/-- **Repetitions in runs**: when each element of a list stands for a run of its own value,
the different values are those of the runs that are not empty. -/
theorem eraseDups_flatMap_replicate {bs : List β} {value : β → α}
    (hbs : bs.Pairwise fun b c => value b ≠ value c) (size : β → Nat) :
    (bs.flatMap fun b => List.replicate (size b) (value b)).eraseDups =
      (bs.filter fun b => size b ≠ 0).map value := by
  induction bs using List.reverseRecOn with
  | nil => simp
  | append_singleton bs b ih =>
    obtain ⟨hfront, -, hlast⟩ := List.pairwise_append.1 hbs
    -- The value of the last run is not among those before it.
    have hnew : ∀ n, (List.replicate n (value b)).removeAll
        (bs.flatMap fun b => List.replicate (size b) (value b)) = List.replicate n (value b) := by
      intro n
      refine List.filter_eq_self.2 fun a ha => ?_
      rw [List.eq_of_mem_replicate ha]
      simp only [List.elem_eq_mem, Bool.not_eq_true', decide_eq_false_iff_not, List.mem_flatMap,
        not_exists, not_and]
      intro c hc hmem
      exact hlast c hc b (List.mem_singleton_self b) (List.eq_of_mem_replicate hmem).symm
    have hrun : ∀ n, (List.replicate n (value b)).eraseDups =
        if n = 0 then [] else [value b] := by
      intro n
      cases n with
      | zero => simp
      | succ n => simp [List.replicate_succ, List.eraseDups_cons]
    rw [List.flatMap_append, List.flatMap_singleton, List.eraseDups_append, ih hfront, hnew, hrun,
      List.filter_append, List.map_append]
    by_cases hsize : size b = 0 <;> simp [hsize]

end Unreferenced
