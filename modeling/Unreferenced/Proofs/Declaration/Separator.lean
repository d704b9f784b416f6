import Unreferenced.Proofs.Declaration.Segments

/-!
# Declarations are found on either side of a separator

A declaration is a keyword, white space and a name. A character that is not white space,
cannot stand in a name and is in no keyword (`Unreferenced.Separates`) is therefore in no
declaration, and a text with such a character in it falls into two parts that are read
independently: what is found in front of it is what is found in the first part alone, and
what is found behind it is what is found in the second part alone
(`Unreferenced.declaredNames_separated`). An edit on one side changes nothing about the
other.

The scan reaches the separator with nothing in hand. A declaration that is read in the
first part ends in it (`Unreferenced.Declaration.standsAt_append_iff`), so the characters
that are passed over behind its start are all in front of the separator, and at the
separator itself nothing can start. The induction carries just that: there are never more
characters to pass over than are left of the first part.
-/

namespace Unreferenced

/-- The character is in no declaration: it is not white space, cannot stand in a name, and
is in no keyword of the settings. -/
structure Separates (settings : List String) (c : Char) : Prop where
  /-- It is not white space. -/
  isBlank_eq : Text.isBlank c = false
  /-- It cannot stand in a name. -/
  isNameChar_eq : Declaration.isNameChar c = false
  /-- It is in no keyword. -/
  not_mem : ∀ setting ∈ settings, c ∉ Text.trim setting.toList

theorem Separates.not_mem_keyword {settings : List String} {c : Char}
    (h : Separates settings c) {keyword : List Char}
    (hmem : keyword ∈ Declaration.keywords settings) : c ∉ keyword := by
  obtain ⟨setting, hsetting, rfl⟩ := List.mem_map.1 (List.mem_filter.1 hmem).1
  exact h.not_mem setting hsetting

namespace Declaration

variable {keywords : List (List Char)} {keyword cs ds : List Char} {d : Declaration} {c : Char}

/-- What is in a declaration and not in its keyword is white space or can stand in a name. -/
theorem StandsAt.not_mem_text (h : d.StandsAt cs) (hblank : Text.isBlank c = false)
    (hname : isNameChar c = false) (hkeyword : c ∉ d.keyword) : c ∉ d.text := by
  simp only [text, List.mem_append, not_or]
  refine ⟨⟨hkeyword, fun hgap => ?_⟩, fun hmem => ?_⟩
  · exact Bool.false_ne_true (hblank.symm.trans (h.gap_blank c hgap))
  · exact Bool.false_ne_true (hname.symm.trans (h.isName.isNameChar_of_mem c hmem))

/-- **A declaration in front of a separator stands there without it.** -/
theorem standsAt_append_iff (hblank : Text.isBlank c = false) (hname : isNameChar c = false)
    (hkeyword : c ∉ d.keyword) : d.StandsAt (cs ++ c :: ds) ↔ d.StandsAt cs := by
  constructor
  · intro h
    have hnot := h.not_mem_text hblank hname hkeyword
    obtain ⟨rest, hcut, hstop⟩ := h.cut
    rcases List.append_eq_append_iff.1 hcut with ⟨more, htext, hmore⟩ | ⟨left, rfl, rfl⟩
    · -- the declaration cannot go on into the separator, so it ends in front of it
      have hnil : more = [] := by
        cases more with
        | nil => rfl
        | cons b more =>
          rw [List.cons_append, List.cons.injEq] at hmore
          exact absurd (htext ▸ hmore.1 ▸ List.mem_append_right cs List.mem_cons_self) hnot
      rw [hnil, List.append_nil] at htext
      exact ⟨h.gap_ne_nil, h.gap_blank, h.isName, [], by rw [htext, List.append_nil], by simp⟩
    · refine ⟨h.gap_ne_nil, h.gap_blank, h.isName, left, rfl, fun b hb => hstop b ?_⟩
      cases left with
      | nil => cases hb
      | cons => exact hb
  · rintro ⟨hgap, hgapBlank, hisName, rest, rfl, hstop⟩
    refine ⟨hgap, hgapBlank, hisName, rest ++ c :: ds, List.append_assoc .., fun b hb => ?_⟩
    cases rest with
    | nil =>
      obtain rfl := Option.some.inj hb
      exact hname
    | cons => exact hstop b hb

section Separator

variable (hblank : Text.isBlank c = false) (hname : isNameChar c = false)
  (hkeywords : ∀ keyword ∈ keywords, c ∉ keyword)

include hblank hname hkeywords

/-- What starts at a place in front of a separator does not depend on what is behind it. -/
theorem starting?_append (cs ds : List Char) :
    starting? keywords (cs ++ c :: ds) = starting? keywords cs := by
  have hunder : ∀ keyword ∈ keywords, under? keyword (cs ++ c :: ds) = under? keyword cs := by
    intro keyword hmem
    ext d
    rw [under?_eq_some_iff, under?_eq_some_iff]
    refine and_congr_right fun hkeyword => standsAt_append_iff hblank hname ?_
    exact hkeyword ▸ hkeywords keyword hmem
  clear hkeywords
  induction keywords with
  | nil => rfl
  | cons keyword more ih =>
    obtain ⟨hfirst, hmore⟩ := List.forall_mem_cons.1 hunder
    simp only [starting?, List.findSome?_cons, hfirst] at ih ⊢
    rw [ih hmore]

/-- Nothing starts at the separator. -/
theorem starting?_separator (ds : List Char) : starting? keywords (c :: ds) = none := by
  have h := starting?_append hblank hname hkeywords [] ds
  rw [List.nil_append] at h
  rw [h, starting?_eq_none_iff]
  exact fun d hmem hd => not_isAnnounced_nil (isAnnounced_iff.2 ⟨d, hmem, hd⟩)

/-- **The scan of two parts** is the scan of the first and then that of the second, as long
as no more is passed over than the first part has. -/
theorem after_append (skip : Nat) (cs ds : List Char) (hskip : skip ≤ cs.length) :
    after keywords skip (cs ++ c :: ds) = after keywords skip cs ++ after keywords 0 ds := by
  fun_induction after keywords skip cs with
  | case1 skip =>
    obtain rfl := Nat.le_zero.1 hskip
    rw [List.nil_append, after, starting?_separator hblank hname hkeywords, List.nil_append]
  | case2 skip b rest ih =>
    rw [List.cons_append, after]
    exact ih (Nat.le_of_succ_le_succ hskip)
  | case3 b rest d hd ih =>
    have hlength : d.text.length - 1 ≤ rest.length := by
      obtain ⟨-, hstands⟩ := standsAt_of_starting? hd
      obtain ⟨more, hmore, -⟩ := hstands.cut
      have h := congrArg List.length hmore
      simp only [List.length_cons, List.length_append] at h
      omega
    rw [← starting?_append hblank hname hkeywords _ ds, List.cons_append] at hd
    rw [List.cons_append, after, hd, List.cons_append]
    exact congrArg (d :: ·) (ih hlength)
  | case4 b rest hnone ih =>
    rw [← starting?_append hblank hname hkeywords _ ds, List.cons_append] at hnone
    rw [List.cons_append, after, hnone]
    exact ih (Nat.zero_le _)

end Separator

end Declaration

/-- **Declarations are found locally.** When a character is not white space, cannot stand in
a name and is in no keyword, the declarations in a text with that character between two
parts are those in the first part and then those in the second, whatever the parts are; so
are the declared names. For the usual keywords every character that is not white space and
cannot stand in a name is one of these. -/
theorem declaredNames_separated :
    (∀ (settings : List String) (c : Char), Separates settings c → ∀ a b : String,
      declarations settings (a ++ String.singleton c ++ b) =
          declarations settings a ++ declarations settings b ∧
        declaredNames settings (a ++ String.singleton c ++ b) =
          declaredNames settings a ++ declaredNames settings b) ∧
      ∀ c, Text.isBlank c = false → Declaration.isNameChar c = false →
        Separates ({} : SymbolSettings).declarationKeywords c := by
  refine ⟨fun settings c h a b => ?_, fun c hblank hname => ⟨hblank, hname, ?_⟩⟩
  · have htext : (a ++ String.singleton c ++ b).toList = a.toList ++ c :: b.toList := by simp
    have hdeclarations : declarations settings (a ++ String.singleton c ++ b) =
        declarations settings a ++ declarations settings b := by
      rw [declarations, htext]
      exact Declaration.after_append h.isBlank_eq h.isNameChar_eq
        (fun _ hmem => h.not_mem_keyword hmem) 0 _ _ (Nat.zero_le _)
    refine ⟨hdeclarations, ?_⟩
    rw [declaredNames, hdeclarations, List.map_append]
    rfl
  · -- the usual keywords are words, and a word has only characters of names
    intro setting hsetting hmem
    have hne : Text.trim setting.toList ≠ [] := List.ne_nil_of_mem hmem
    have hkeyword : Text.trim setting.toList ∈
        Declaration.keywords ({} : SymbolSettings).declarationKeywords :=
      List.mem_filter.2 ⟨List.mem_map_of_mem hsetting, by simpa using hne⟩
    have hchar := (Declaration.isWord_of_mem_usual _ hkeyword).2 c hmem
    exact Bool.false_ne_true (hname.symm.trans hchar)

/-- A semicolon keeps two declarations apart, with a keyword and white space just in front of
it and with keywords of the settings that need trimming; so does a letter that is not of
ASCII under the usual keywords. -/
theorem cache_beside_store :
    Separates [" actor ", "final-class"] ';' ∧
      declaredNames [" actor ", "final-class"] "actor Cache;actor ;final-class Store" =
        ["Cache", "Store"] ∧
      Separates ({} : SymbolSettings).declarationKeywords 'é' ∧
      declaredNames ({} : SymbolSettings).declarationKeywords "class Fooéstruct Bar" =
        ["Foo", "Bar"] := by
  obtain ⟨hlocal, husual⟩ := declaredNames_separated
  have hsemicolon : Separates [" actor ", "final-class"] ';' :=
    ⟨by decide, by decide, by simp; decide⟩
  have hletter := husual 'é' (by decide) (by decide)
  obtain ⟨-, hactors⟩ := hlocal _ _ hsemicolon "actor Cache;actor " "final-class Store"
  obtain ⟨-, hwords⟩ := hlocal _ _ hletter "class Foo" "struct Bar"
  refine ⟨hsemicolon, hactors.trans ?_, hletter, hwords.trans ?_⟩ <;> decide +kernel

end Unreferenced
