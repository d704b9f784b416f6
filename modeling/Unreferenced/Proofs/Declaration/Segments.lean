import Mathlib.Data.List.Basic
import Unreferenced.Proofs.Declaration.Place
import Unreferenced.Settings

/-!
# The scan for declarations leaves nothing out

The declarations that are read from a text stand at places of it that follow one another
without overlap, and wherever a declaration is announced one of them stands or has begun
and is not over yet (`Unreferenced.AreSegments`). The second half is what a reader from left
to right cannot promise more of: a declaration takes its characters away from every other,
as `class Subclass Foo` shows, where `class Foo` is never read.

Keywords that are words do not come into each other's way like that. Inside a declaration
every character stands behind one of a word or is no small letter, so that a word with a
border in front of it is met there only at the start
(`Unreferenced.Declaration.StandsAt.border_or_not_small`).

The main result is `Unreferenced.declaredNames_segments`.
-/

namespace Unreferenced

/-! ### Segments -/

/-- A declaration at its place in a text. -/
structure Segment where
  /-- The number of characters in front of it. -/
  start : Nat
  /-- The declaration. -/
  declaration : Declaration
deriving DecidableEq, Repr

/-- The number of characters up to the end of a segment. -/
def Segment.stop (s : Segment) : Nat :=
  s.start + s.declaration.text.length

/-- A segment when there is one character more in front of it. -/
def Segment.shift (s : Segment) : Segment :=
  { s with start := s.start + 1 }

/-- The segments are the declarations that are read from a text, the given number of
characters at its start passed over. -/
structure AreSegments (keywords : List (List Char)) (skip : Nat) (cs : List Char)
    (segments : List Segment) : Prop where
  /-- Each begins behind the characters passed over. -/
  skip_le : ∀ s ∈ segments, skip ≤ s.start
  /-- Each has one of the keywords. -/
  keyword_mem : ∀ s ∈ segments, s.declaration.keyword ∈ keywords
  /-- Each is a declaration that stands where the segment begins. -/
  standsAt : ∀ s ∈ segments, s.declaration.StandsAt (cs.drop s.start)
  /-- Each ends before the next one begins. -/
  ordered : segments.Pairwise fun s t => s.stop ≤ t.start
  /-- Wherever a declaration is announced, one begins or has begun and is not over. -/
  complete : ∀ p, skip ≤ p → Declaration.IsAnnounced keywords (cs.drop p) →
    ∃ s ∈ segments, s.start ≤ p ∧ p < s.stop

namespace Declaration

variable {keywords : List (List Char)} {cs : List Char} {d : Declaration}

/-- A declaration is longer than its keyword. -/
theorem StandsAt.text_length_pos (h : d.StandsAt cs) : 0 < d.text.length := by
  have hgap := List.length_pos_iff.2 h.gap_ne_nil
  simp only [text, List.length_append]
  omega

theorem not_isAnnounced_nil : ¬IsAnnounced keywords [] := by
  rintro ⟨_, -, _, _, _, h, -⟩
  simp at h

end Declaration

/-! ### The scan -/

namespace AreSegments

variable {keywords : List (List Char)} {skip : Nat} {cs rest : List Char} {c : Char}
  {segments : List Segment}

theorem nil : AreSegments keywords skip [] [] where
  skip_le := by simp
  keyword_mem := by simp
  standsAt := by simp
  ordered := .nil
  complete p _ h := absurd (List.drop_nil (i := p) ▸ h) Declaration.not_isAnnounced_nil

/-- One more character passed over. -/
theorem shift (h : AreSegments keywords skip rest segments) :
    AreSegments keywords (skip + 1) (c :: rest) (segments.map Segment.shift) where
  skip_le s hs := by
    obtain ⟨t, ht, rfl⟩ := List.mem_map.1 hs
    exact Nat.succ_le_succ (h.skip_le t ht)
  keyword_mem s hs := by
    obtain ⟨t, ht, rfl⟩ := List.mem_map.1 hs
    exact h.keyword_mem t ht
  standsAt s hs := by
    obtain ⟨t, ht, rfl⟩ := List.mem_map.1 hs
    exact h.standsAt t ht
  ordered := by
    refine List.pairwise_map.2 (h.ordered.imp fun hst => ?_)
    simp only [Segment.stop, Segment.shift] at hst ⊢
    omega
  complete p hp hannounced := by
    obtain ⟨p, rfl⟩ := Nat.exists_eq_add_one_of_ne_zero (Nat.ne_zero_of_lt hp)
    obtain ⟨s, hs, hle, hlt⟩ := h.complete p (Nat.le_of_succ_le_succ hp) hannounced
    refine ⟨s.shift, List.mem_map_of_mem hs, ?_, ?_⟩ <;>
      simp only [Segment.stop, Segment.shift] at hlt ⊢ <;> omega

/-- A character at which no declaration stands need not be passed over. -/
theorem of_none (hnone : Declaration.starting? keywords cs = none)
    (h : AreSegments keywords 1 cs segments) : AreSegments keywords 0 cs segments where
  skip_le _ _ := Nat.zero_le _
  keyword_mem := h.keyword_mem
  standsAt := h.standsAt
  ordered := h.ordered
  complete p _ hannounced := by
    cases p with
    | succ p => exact h.complete (p + 1) (Nat.succ_le_succ (Nat.zero_le p)) hannounced
    | zero =>
      obtain ⟨d, hmem, hd⟩ := Declaration.isAnnounced_iff.1 hannounced
      exact absurd hd (Declaration.starting?_eq_none_iff.1 hnone d hmem)

/-- A declaration at the start stands in place of the characters passed over. -/
theorem cons {d : Declaration} (hmem : d.keyword ∈ keywords) (hd : d.StandsAt cs)
    (h : AreSegments keywords d.text.length cs segments) :
    AreSegments keywords 0 cs (⟨0, d⟩ :: segments) where
  skip_le _ _ := Nat.zero_le _
  keyword_mem := List.forall_mem_cons.2 ⟨hmem, h.keyword_mem⟩
  standsAt := List.forall_mem_cons.2 ⟨hd, h.standsAt⟩
  ordered := by
    refine List.pairwise_cons.2 ⟨fun s hs => ?_, h.ordered⟩
    have hle := h.skip_le s hs
    simp only [Segment.stop]
    omega
  complete p _ hannounced := by
    by_cases hp : p < d.text.length
    · refine ⟨⟨0, d⟩, List.mem_cons_self, Nat.zero_le p, ?_⟩
      simpa [Segment.stop] using hp
    · obtain ⟨s, hs, hstart⟩ := h.complete p (Nat.le_of_not_lt hp) hannounced
      exact ⟨s, List.mem_cons_of_mem _ hs, hstart⟩

end AreSegments

/-- **The scan reads declarations one behind the other and passes over none**: what a step
reads is the first segment, or there is nothing to read where the step is taken. -/
theorem exists_areSegments (keywords : List (List Char)) (skip : Nat) (cs : List Char) :
    ∃ segments, AreSegments keywords skip cs segments ∧
      segments.map (·.declaration) = Declaration.after keywords skip cs := by
  fun_induction Declaration.after keywords skip cs with
  | case1 => exact ⟨[], .nil, rfl⟩
  | case2 skip c rest ih =>
    obtain ⟨segments, hsegments, hmap⟩ := ih
    exact ⟨_, hsegments.shift, by rw [← hmap, List.map_map]; rfl⟩
  | case3 c rest d hd ih =>
    obtain ⟨segments, hsegments, hmap⟩ := ih
    obtain ⟨hmem, hstands⟩ := Declaration.standsAt_of_starting? hd
    have hshift := hsegments.shift (c := c)
    rw [Nat.sub_add_cancel hstands.text_length_pos] at hshift
    exact ⟨_, hshift.cons hmem hstands, by rw [← hmap, List.map_cons, List.map_map]; rfl⟩
  | case4 c rest hnone ih =>
    obtain ⟨segments, hsegments, hmap⟩ := ih
    exact ⟨_, hsegments.shift.of_none hnone, by rw [← hmap, List.map_map]; rfl⟩

/-! ### Keywords that are words -/

namespace Declaration

/-- A small letter comes first, and there are only characters that can stand in names. -/
def IsWord (keyword : List Char) : Prop :=
  (∃ first ∈ keyword.head?, 'a' ≤ first ∧ first ≤ 'z') ∧ ∀ c ∈ keyword, isNameChar c = true

variable {keyword cs : List Char} {d d' : Declaration}

theorem isNameChar_of_small {c : Char} (h : 'a' ≤ c ∧ c ≤ 'z') : isNameChar c = true := by
  simp [isNameChar, h]

theorem not_small_of_isNameStart {c : Char} (h : isNameStart c = true) :
    ¬('a' ≤ c ∧ c ≤ 'z') := by
  simp only [isNameStart, Bool.or_eq_true, Bool.and_eq_true, decide_eq_true_eq, beq_iff_eq,
    Char.le_def, UInt32.le_iff_toNat_le] at h ⊢
  rcases h with h | rfl
  · have hz : 'Z'.val.toNat < 'a'.val.toNat := by decide
    omega
  · decide

theorem not_small_of_isBlank {c : Char} (h : Text.isBlank c = true) : ¬('a' ≤ c ∧ c ≤ 'z') :=
  fun hsmall => Bool.false_ne_true
    ((isBlank_of_isNameChar (isNameChar_of_small hsmall)).symm.trans h)

/-- **Inside a declaration under a word**, wherever it is cut in two, what comes before ends
in a character of a name or what comes after does not begin with a small letter. -/
theorem StandsAt.border_or_not_small (h : d.StandsAt cs) (hword : IsWord d.keyword)
    {before after : List Char} (hcut : d.text = before ++ after) (hbefore : before ≠ []) :
    (∃ c ∈ before.getLast?, isNameChar c = true) ∨
      ∀ c ∈ after.head?, ¬('a' ≤ c ∧ c ≤ 'z') := by
  have hlast : ∀ {inside : List Char}, inside ≠ [] → (∀ c ∈ inside, isNameChar c = true) →
      ∃ c ∈ inside.getLast?, isNameChar c = true :=
    fun hne hall => ⟨_, List.getLast?_eq_some_getLast hne, hall _ (List.getLast_mem hne)⟩
  rw [text, List.append_assoc] at hcut
  rcases List.append_eq_append_iff.1 hcut with ⟨front, rfl, hrest⟩ | ⟨left, hkeyword, -⟩
  · rcases List.append_eq_append_iff.1 hrest with ⟨part, rfl, hname⟩ | ⟨left, hgap, rfl⟩
    · -- behind the white space the name has begun, unless this is where it begins
      by_cases hpart : part = []
      · subst hpart
        refine .inr fun c hc => not_small_of_isNameStart ?_
        exact h.isName.isNameStart_of_mem_head? [] c (by simpa [hname] using hc)
      · refine .inl ?_
        rw [← List.append_assoc, List.getLast?_append_of_ne_nil _ hpart]
        exact hlast hpart fun c hc =>
          h.isName.isNameChar_of_mem c (hname ▸ List.mem_append_left _ hc)
    · -- up to there white space follows, or the name
      refine .inr fun c hc => ?_
      cases left with
      | nil =>
        refine not_small_of_isNameStart ?_
        exact h.isName.isNameStart_of_mem_head? [] c (by simpa using hc)
      | cons b left =>
        obtain rfl := Option.some.inj hc
        exact not_small_of_isBlank (h.gap_blank b (hgap ▸ by simp))
  · exact .inl (hlast hbefore fun c hc =>
      hword.2 c (hkeyword ▸ List.mem_append_left _ hc))

/-- Only one keyword without white space in it can come first. -/
theorem StandsAt.keyword_eq (h : d.StandsAt cs) (h' : d'.StandsAt cs)
    (hblank : ∀ c ∈ d.keyword, Text.isBlank c = false)
    (hblank' : ∀ c ∈ d'.keyword, Text.isBlank c = false) : d.keyword = d'.keyword := by
  -- the keyword ends where white space begins
  have hgap : ∀ {d : Declaration} {cs : List Char}, d.StandsAt cs → ∀ rest,
      ∀ c ∈ (d.gap ++ rest).head?, (!Text.isBlank c) = false := by
    intro d cs h rest c hc
    obtain ⟨b, gap, hb⟩ := List.exists_cons_of_ne_nil h.gap_ne_nil
    rw [hb, List.cons_append, List.head?_cons, Option.mem_some_iff] at hc
    rw [Bool.not_eq_false', ← hc]
    exact h.gap_blank b (hb ▸ List.mem_cons_self)
  obtain ⟨rest, hcs, -⟩ := h.cut
  obtain ⟨rest', hcs', -⟩ := h'.cut
  have heq : d.keyword ++ (d.gap ++ (d.name ++ rest)) =
      d'.keyword ++ (d'.gap ++ (d'.name ++ rest')) := by
    simpa [text] using hcs.symm.trans hcs'
  exact (append_inj_of_stop (p := fun c => !Text.isBlank c) (by simpa using hblank) (hgap h _)
    (by simpa using hblank') (hgap h' _) heq).1

/-- **No declaration under a word stands inside another one**, with a border in front of it. -/
theorem StandsAt.not_within (h : d.StandsAt cs) (hword : IsWord d.keyword)
    (hword' : IsWord d'.keyword) {i : Nat} (hpos : i ≠ 0) (hi : i < d.text.length)
    (hborder : ∀ c ∈ (d.text.take i).getLast?, isNameChar c = false) :
    ¬d'.StandsAt (cs.drop i) := by
  intro h'
  have hbefore : d.text.take i ≠ [] := by
    simpa [List.take_eq_nil_iff, hpos] using List.ne_nil_of_length_pos (Nat.zero_lt_of_lt hi)
  rcases h.border_or_not_small hword (List.take_append_drop i _).symm hbefore with
    ⟨c, hc, hname⟩ | hsmall
  · exact Bool.false_ne_true ((hborder c hc).symm.trans hname)
  · -- the small letter that the keyword begins with comes next in the text
    obtain ⟨⟨first, hhead?, hfirst⟩, -⟩ := hword'
    obtain ⟨more, hkeyword⟩ := List.head?_eq_some_iff.1 hhead?
    obtain ⟨rest, hrest, -⟩ := h.cut
    obtain ⟨rest', hrest', -⟩ := h'.cut
    have hhead : (d.text.drop i ++ rest).head? = some first := by
      rw [← List.drop_append_of_le_length (Nat.le_of_lt hi), ← hrest, hrest', text, hkeyword]
      rfl
    refine hsmall first ?_ hfirst
    obtain ⟨b, after, hafter⟩ := List.exists_cons_of_ne_nil
      (show d.text.drop i ≠ [] by simpa using hi)
    rw [hafter] at hhead ⊢
    exact hhead

end Declaration

/-- **A declaration under a word is read wherever there is a border in front of it.** -/
theorem AreSegments.mem_of_border {keywords : List (List Char)} {cs : List Char}
    {segments : List Segment} (h : AreSegments keywords 0 cs segments)
    (hwords : ∀ keyword ∈ keywords, Declaration.IsWord keyword) {p : Nat} {d : Declaration}
    (hmem : d.keyword ∈ keywords) (hd : d.StandsAt (cs.drop p))
    (hborder : ∀ c ∈ (cs.take p).getLast?, Declaration.isNameChar c = false) :
    ⟨p, d⟩ ∈ segments := by
  obtain ⟨s, hs, hle, hlt⟩ := h.complete p (Nat.zero_le p)
    (Declaration.isAnnounced_iff.2 ⟨d, hmem, hd⟩)
  have hstands := h.standsAt s hs
  obtain ⟨i, rfl⟩ := Nat.exists_eq_add_of_le hle
  have hi : i < s.declaration.text.length := by
    rw [Segment.stop] at hlt
    omega
  by_cases hpos : i = 0
  · -- at the start there is only one keyword, and so only one declaration
    subst hpos
    have hblank : ∀ keyword ∈ keywords, ∀ c ∈ keyword, Text.isBlank c = false :=
      fun keyword hmem c hc =>
        Declaration.isBlank_of_isNameChar ((hwords keyword hmem).2 c hc)
    have hkeyword := hstands.keyword_eq hd (hblank _ (h.keyword_mem s hs)) (hblank _ hmem)
    rw [← hstands.unique hd hkeyword]
    exact hs
  · exfalso
    refine hstands.not_within (hwords _ (h.keyword_mem s hs)) (hwords _ hmem) hpos hi
      (fun c hc => hborder c ?_) (by rwa [List.drop_drop])
    -- the border in front of it is inside the segment
    obtain ⟨rest, hrest, -⟩ := hstands.cut
    have hne : s.declaration.text.take i ≠ [] := by
      intro hnil
      rw [hnil] at hc
      cases hc
    rwa [List.take_add, hrest, List.take_append_of_le_length (Nat.le_of_lt hi),
      List.getLast?_append_of_ne_nil _ hne]

/-! ### Declared names -/

/-- There is a keyword unless all that the settings provide is blank. -/
theorem Declaration.keywords_eq_nil_iff {settings : List String} :
    keywords settings = [] ↔
      ∀ setting ∈ settings, ∀ c ∈ setting.toList, Text.isBlank c = true := by
  simp [keywords, Text.trim_eq_nil_iff]

/-- **The declared names are those of segments of the text**, in their order. Each segment
is a keyword, white space and a name that goes as far as it can; no two overlap; wherever a
keyword, white space and the start of a name stand, a segment begins or has begun and is
not over. When the keywords are words, a declaration with a border in front of it is one of
the segments. When all keywords are blank, there are none. -/
theorem declaredNames_segments (settings : List String) (text : String) :
    ∃ segments : List Segment,
      declaredNames settings text =
          segments.map (fun s => String.ofList s.declaration.name) ∧
        AreSegments (Declaration.keywords settings) 0 text.toList segments ∧
        ((∀ keyword ∈ Declaration.keywords settings, Declaration.IsWord keyword) →
          ∀ (p : Nat) (d : Declaration), d.keyword ∈ Declaration.keywords settings →
            d.StandsAt (text.toList.drop p) →
            (∀ c ∈ (text.toList.take p).getLast?, Declaration.isNameChar c = false) →
            ⟨p, d⟩ ∈ segments) ∧
        ((∀ setting ∈ settings, ∀ c ∈ setting.toList, Text.isBlank c = true) →
          declaredNames settings text = []) := by
  obtain ⟨segments, hsegments, hmap⟩ :=
    exists_areSegments (Declaration.keywords settings) 0 text.toList
  have hnames : declaredNames settings text =
      segments.map fun s => String.ofList s.declaration.name := by
    rw [declaredNames, declarations, ← hmap, List.map_map]
    rfl
  refine ⟨segments, hnames, hsegments, fun hwords p d hmem hd hborder =>
    hsegments.mem_of_border hwords hmem hd hborder, fun hblank => ?_⟩
  cases segments with
  | nil => exact hnames
  | cons s more =>
    have hmem := hsegments.keyword_mem s List.mem_cons_self
    rw [Declaration.keywords_eq_nil_iff.2 hblank] at hmem
    cases hmem

/-- The usual keywords are words. -/
theorem Declaration.isWord_of_mem_usual :
    ∀ keyword ∈ keywords ({} : SymbolSettings).declarationKeywords, IsWord keyword := by
  have hkeywords : keywords ({} : SymbolSettings).declarationKeywords =
      ["class".toList, "struct".toList, "enum".toList] := by decide +kernel
  rw [hkeywords]
  simp only [List.forall_mem_cons, List.not_mem_nil, false_implies, implies_true, and_true]
  exact ⟨⟨⟨'c', rfl, by decide⟩, List.all_eq_true.1 (by decide)⟩,
    ⟨⟨'s', rfl, by decide⟩, List.all_eq_true.1 (by decide)⟩,
    ⟨⟨'e', rfl, by decide⟩, List.all_eq_true.1 (by decide)⟩⟩

/-- A class behind a border is read, also when the name in front of it ends in a keyword;
and blank keywords read nothing. -/
theorem bar_read_behind_subclass :
    (∃ segments : List Segment,
      declaredNames ({} : SymbolSettings).declarationKeywords "class Subclass Foo;class Bar" =
          segments.map (fun s => String.ofList s.declaration.name) ∧
        ⟨19, ⟨"class".toList, [' '], "Bar".toList⟩⟩ ∈ segments) ∧
      declaredNames [" ", ""] "class Subclass Foo;class Bar" = [] := by
  obtain ⟨segments, hnames, -, hread, -⟩ := declaredNames_segments
    ({} : SymbolSettings).declarationKeywords "class Subclass Foo;class Bar"
  obtain ⟨-, -, -, -, hnone⟩ :=
    declaredNames_segments [" ", ""] "class Subclass Foo;class Bar"
  have hmem : "class".toList ∈ Declaration.keywords ({} : SymbolSettings).declarationKeywords := by
    decide +kernel
  have hstands : Declaration.StandsAt ⟨"class".toList, [' '], "Bar".toList⟩
      ("class Subclass Foo;class Bar".toList.drop 19) :=
    ⟨by decide, List.forall_mem_singleton.2 (by decide),
      ⟨'B', ['a', 'r'], rfl, by decide, List.all_eq_true.1 (by decide)⟩, [], rfl, by simp⟩
  have hborder : ∀ c ∈ ("class Subclass Foo;class Bar".toList.take 19).getLast?,
      Declaration.isNameChar c = false := by
    rintro c ⟨⟩
    decide
  have hblank : ∀ setting ∈ [" ", ""], ∀ c ∈ setting.toList, Text.isBlank c = true := by
    simp
    decide
  exact ⟨⟨segments, hnames, hread Declaration.isWord_of_mem_usual 19 _ hmem hstands hborder⟩,
    hnone hblank⟩

end Unreferenced
