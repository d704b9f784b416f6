import Unreferenced.Proofs.Declaration

/-!
# Where a declaration stands

That a declaration stands at the start of some characters is said here without a reader
(`Unreferenced.Declaration.StandsAt`): the characters are its text and then something that
does not go on with the name. There is at most one such declaration for each keyword, and
reading under a keyword finds it (`Unreferenced.Declaration.under?_eq_some_iff`). To know
that there is one, less is enough, namely that a keyword, white space and a capital letter
or underscore come first (`Unreferenced.Declaration.IsAnnounced`): the name then goes as far
as it can.
-/

namespace Unreferenced

/-! ### Characters up to one without a property -/

section Span

variable {p : Char → Bool} {inside rest : List Char}

theorem takeWhile_append_of_stop (h : ∀ c ∈ inside, p c = true)
    (hstop : ∀ c ∈ rest.head?, p c = false) : (inside ++ rest).takeWhile p = inside := by
  rw [List.takeWhile_append_of_pos h]
  cases rest with
  | nil => exact List.append_nil inside
  | cons c rest =>
    have hc : ¬p c = true := by simp [hstop c (by simp)]
    rw [List.takeWhile_cons_of_neg hc, List.append_nil]

theorem dropWhile_append_of_stop (h : ∀ c ∈ inside, p c = true)
    (hstop : ∀ c ∈ rest.head?, p c = false) : (inside ++ rest).dropWhile p = rest := by
  rw [List.dropWhile_append_of_pos h]
  cases rest with
  | nil => rfl
  | cons c rest =>
    have hc : ¬p c = true := by simp [hstop c (by simp)]
    rw [List.dropWhile_cons_of_neg hc]

theorem eq_false_of_mem_head?_dropWhile {cs : List Char} :
    ∀ c ∈ (cs.dropWhile p).head?, p c = false := by
  intro c hc
  have h := List.head?_dropWhile_not p cs
  rwa [Option.mem_def.1 hc] at h

/-- Two ways to cut characters where a property ends are the same. -/
theorem append_inj_of_stop {inside' rest' : List Char} (h : ∀ c ∈ inside, p c = true)
    (hstop : ∀ c ∈ rest.head?, p c = false) (h' : ∀ c ∈ inside', p c = true)
    (hstop' : ∀ c ∈ rest'.head?, p c = false) (heq : inside ++ rest = inside' ++ rest') :
    inside = inside' ∧ rest = rest' := by
  have hinside : inside = inside' := by
    rw [← takeWhile_append_of_stop h hstop, heq, takeWhile_append_of_stop h' hstop']
  exact ⟨hinside, List.append_cancel_left (hinside ▸ heq)⟩

end Span

/-! ### Declared names -/

/-- The first character of a declared name can start one, and can stand in one. -/
theorem IsDeclaredName.isNameStart_of_mem_head? {name : List Char} (h : IsDeclaredName name)
    (rest : List Char) : ∀ c ∈ (name ++ rest).head?, Declaration.isNameStart c = true := by
  obtain ⟨first, more, rfl, hfirst, -⟩ := h
  intro c hc
  obtain rfl := Option.some.inj hc
  exact hfirst

theorem IsDeclaredName.isNameChar_of_mem {name : List Char} (h : IsDeclaredName name) :
    ∀ c ∈ name, Declaration.isNameChar c = true := by
  obtain ⟨first, more, rfl, hfirst, hmore⟩ := h
  intro c hc
  rcases List.mem_cons.1 hc with rfl | hc
  · rw [Declaration.isNameChar, hfirst]
    rfl
  · exact hmore c hc

namespace Declaration

theorem isBlank_of_isNameStart {c : Char} (h : isNameStart c = true) : Text.isBlank c = false :=
  isBlank_of_isNameChar (by rw [isNameChar, h]; rfl)

/-! ### One declaration at the start of some characters -/

/-- The characters begin with the declaration: white space stands between its keyword and a
name of the right form, and the name does not go on behind it. -/
structure StandsAt (d : Declaration) (cs : List Char) : Prop where
  /-- There is white space. -/
  gap_ne_nil : d.gap ≠ []
  /-- There is nothing but white space. -/
  gap_blank : ∀ c ∈ d.gap, Text.isBlank c = true
  /-- The name has the form of one. -/
  isName : IsDeclaredName d.name
  /-- The text of the declaration comes first, and then no further part of the name. -/
  cut : ∃ rest, cs = d.text ++ rest ∧ ∀ c ∈ rest.head?, isNameChar c = false

variable {keyword cs : List Char} {keywords : List (List Char)} {d : Declaration}

/-- **Reading under a keyword finds the declaration that stands there.** -/
theorem under?_eq_some_iff : under? keyword cs = some d ↔ d.keyword = keyword ∧ d.StandsAt cs := by
  constructor
  · intro h
    have hname := isDeclaredName_of_under? h
    rw [under?, Option.bind_eq_some_iff] at h
    obtain ⟨rest, hbehind, hd⟩ := h
    obtain rfl := Text.behind?_eq_some_iff.1 hbehind
    dsimp only at hd
    split at hd
    · next hread =>
      rw [Bool.and_eq_true, Bool.not_eq_true', List.isEmpty_eq_false_iff] at hread
      obtain rfl := Option.some.inj hd
      refine ⟨rfl, hread.1, List.all_eq_true.1 List.all_takeWhile, hname,
        (rest.dropWhile Text.isBlank).dropWhile isNameChar, ?_, eq_false_of_mem_head?_dropWhile⟩
      rw [text, List.append_assoc, List.takeWhile_append_dropWhile, List.append_assoc,
        List.takeWhile_append_dropWhile]
    · cases hd
  · rintro ⟨rfl, hgap, hblank, hname, rest, rfl, hstop⟩
    have hbehind : Text.behind? d.keyword (d.text ++ rest) = some (d.gap ++ (d.name ++ rest)) :=
      Text.behind?_eq_some_iff.2 (by simp [text])
    have hend : ∀ c ∈ (d.name ++ rest).head?, Text.isBlank c = false :=
      fun c hc => isBlank_of_isNameStart (hname.isNameStart_of_mem_head? rest c hc)
    have hread : (!d.gap.isEmpty && d.name.head?.any isNameStart) = true := by
      obtain ⟨first, more, hfirst, hstart, -⟩ := hname
      simp [hgap, hfirst, hstart]
    rw [under?, hbehind, Option.bind_some]
    dsimp only
    rw [takeWhile_append_of_stop hblank hend, dropWhile_append_of_stop hblank hend,
      takeWhile_append_of_stop hname.isNameChar_of_mem hstop, if_pos hread]

/-- At most one declaration with a given keyword stands at a place. -/
theorem StandsAt.unique {d' : Declaration} (h : d.StandsAt cs) (h' : d'.StandsAt cs)
    (hkeyword : d.keyword = d'.keyword) : d = d' := by
  have hread := under?_eq_some_iff.2 ⟨hkeyword, h⟩
  rw [under?_eq_some_iff.2 ⟨rfl, h'⟩] at hread
  exact (Option.some.inj hread).symm

/-! ### A declaration under one of several keywords -/

theorem standsAt_of_starting? (h : starting? keywords cs = some d) :
    d.keyword ∈ keywords ∧ d.StandsAt cs := by
  obtain ⟨keyword, hmem, hd⟩ := List.exists_of_findSome?_eq_some h
  obtain ⟨rfl, hstands⟩ := under?_eq_some_iff.1 hd
  exact ⟨hmem, hstands⟩

theorem starting?_eq_none_iff :
    starting? keywords cs = none ↔ ∀ d : Declaration, d.keyword ∈ keywords → ¬d.StandsAt cs := by
  rw [starting?, List.findSome?_eq_none_iff]
  constructor
  · intro h d hmem hstands
    have hnone := h d.keyword hmem
    rw [under?_eq_some_iff.2 ⟨rfl, hstands⟩] at hnone
    cases hnone
  · intro h keyword hmem
    rw [Option.eq_none_iff_forall_ne_some]
    intro d hd
    obtain ⟨rfl, hstands⟩ := under?_eq_some_iff.1 hd
    exact h d hmem hstands

/-- One of the keywords, white space, and a character that can start a name come first. -/
def IsAnnounced (keywords : List (List Char)) (cs : List Char) : Prop :=
  ∃ keyword ∈ keywords, ∃ gap first rest, cs = keyword ++ gap ++ first :: rest ∧ gap ≠ [] ∧
    (∀ c ∈ gap, Text.isBlank c = true) ∧ isNameStart first = true

/-- **Where a declaration is announced one stands**, and nowhere else. -/
theorem isAnnounced_iff :
    IsAnnounced keywords cs ↔ ∃ d : Declaration, d.keyword ∈ keywords ∧ d.StandsAt cs := by
  constructor
  · rintro ⟨keyword, hmem, gap, first, rest, rfl, hgap, hblank, hfirst⟩
    -- the name goes on as long as characters of names do
    refine ⟨⟨keyword, gap, first :: rest.takeWhile isNameChar⟩, hmem, hgap, hblank,
      ⟨first, _, rfl, hfirst, List.all_eq_true.1 List.all_takeWhile⟩,
      rest.dropWhile isNameChar, ?_, eq_false_of_mem_head?_dropWhile⟩
    rw [text, List.append_assoc _ (first :: _), List.cons_append, List.takeWhile_append_dropWhile]
  · rintro ⟨d, hmem, hgap, hblank, ⟨first, more, hname, hfirst, -⟩, rest, rfl, -⟩
    exact ⟨d.keyword, hmem, d.gap, first, more ++ rest, by simp [text, hname], hgap, hblank,
      hfirst⟩

end Declaration

end Unreferenced
