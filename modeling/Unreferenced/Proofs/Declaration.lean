import Unreferenced.Declaration
import Unreferenced.Reference

/-!
# The names that a text declares

Whatever the keywords and whatever the text, a declared name is a capital letter or an
underscore followed by letters, digits and underscores
(`Unreferenced.isName_of_mem_declaredNames`). None of these is white space, a quote or a
line break, so every declared name can be searched for
(`Unreferenced.nameFault?_of_mem_declaredNames`): no declaration is lost between being
read and being looked for.
-/

namespace Unreferenced

/-! ### The form of a declared name -/

/-- Whether a text has the form of a declared name. -/
def IsDeclaredName (name : List Char) : Prop :=
  ∃ first rest, name = first :: rest ∧ Declaration.isNameStart first = true ∧
    ∀ c ∈ rest, Declaration.isNameChar c = true

namespace Declaration

/-- A declaration is read with a name of the right form. -/
theorem isDeclaredName_of_under? {keyword cs : List Char} {d : Declaration}
    (h : under? keyword cs = some d) : IsDeclaredName d.name := by
  rw [under?, Option.bind_eq_some_iff] at h
  obtain ⟨rest, -, hd⟩ := h
  dsimp only at hd
  split at hd
  · next hread =>
    obtain rfl := Option.some.inj hd
    rw [Bool.and_eq_true] at hread
    have hall : ∀ c ∈ (rest.dropWhile Text.isBlank).takeWhile isNameChar, isNameChar c = true :=
      List.all_eq_true.1 List.all_takeWhile
    -- Only the characters of the name matter now, not where they were read.
    revert hread hall
    generalize (rest.dropWhile Text.isBlank).takeWhile isNameChar = name
    intro hread hall
    cases name with
    | nil => simp at hread
    | cons first rest =>
      exact ⟨first, rest, rfl, by simpa using hread.2,
        fun c hc => hall c (List.mem_cons_of_mem _ hc)⟩
  · cases hd

theorem isDeclaredName_of_starting? {keywords : List (List Char)} {cs : List Char}
    {d : Declaration} (h : starting? keywords cs = some d) : IsDeclaredName d.name := by
  rw [starting?] at h
  obtain ⟨keyword, -, hd⟩ := List.exists_of_findSome?_eq_some h
  exact isDeclaredName_of_under? hd

/-- The scan keeps the form of the names: a step reads one declaration or none. -/
theorem isDeclaredName_of_mem_after {keywords : List (List Char)} {skip : Nat} {cs : List Char}
    {d : Declaration} (h : d ∈ after keywords skip cs) : IsDeclaredName d.name := by
  fun_induction after keywords skip cs with
  | case1 => cases h
  | case2 _ _ _ ih => exact ih h
  | case3 c rest d' hd' ih =>
    rcases List.mem_cons.1 h with rfl | hrest
    · exact isDeclaredName_of_starting? hd'
    · exact ih hrest
  | case4 _ _ _ ih => exact ih h

end Declaration

/-- **Every declared name has the form of one.** -/
theorem isName_of_mem_declaredNames {settings : List String} {text name : String}
    (h : name ∈ declaredNames settings text) : IsDeclaredName name.toList := by
  obtain ⟨d, hd, rfl⟩ := List.mem_map.1 h
  rw [String.toList_ofList]
  exact Declaration.isDeclaredName_of_mem_after hd

/-! ### Declared names can be searched for -/

/-- The characters of declared names lie in four intervals of ASCII. -/
theorem Declaration.toNat_of_isNameChar {c : Char} (h : isNameChar c = true) :
    (0x41 ≤ c.toNat ∧ c.toNat ≤ 0x5a) ∨ c.toNat = 0x5f ∨ (0x61 ≤ c.toNat ∧ c.toNat ≤ 0x7a) ∨
      (0x30 ≤ c.toNat ∧ c.toNat ≤ 0x39) := by
  simp only [isNameChar, isNameStart, Bool.or_eq_true, Bool.and_eq_true, decide_eq_true_eq,
    beq_iff_eq, Char.le_def, UInt32.le_iff_toNat_le] at h
  rcases h with ((h | rfl) | h) | h
  · exact .inl h
  · exact .inr (.inl rfl)
  · exact .inr (.inr (.inl h))
  · exact .inr (.inr (.inr h))

theorem Declaration.isBlank_of_isNameChar {c : Char} (h : isNameChar c = true) :
    Text.isBlank c = false := by
  have hrange := toNat_of_isNameChar h
  rw [Text.isBlank, Bool.eq_false_iff, ne_eq, Text.Ranges.has_iff]
  simp only [Text.blankRanges, List.mem_cons, List.not_mem_nil, or_false, exists_eq_or_imp,
    exists_eq_left, not_or]
  omega

theorem Declaration.endsLiteral_of_isNameChar {c : Char} (h : isNameChar c = true) :
    endsLiteral c = false := by
  have hrange := toNat_of_isNameChar h
  rw [endsLiteral, Bool.eq_false_iff]
  simp only [ne_eq, Bool.or_eq_true, beq_iff_eq]
  rintro ((rfl | rfl) | rfl) <;> simp at hrange

/-- A name can be searched for when not all of it is white space and none of it would end
a literal. -/
theorem nameFault?_eq_none_iff {name : String} :
    nameFault? name = none ↔
      (∃ c ∈ name.toList, Text.isBlank c = false) ∧ ∀ c ∈ name.toList, endsLiteral c = false := by
  have hblank : (∃ c ∈ name.toList, Text.isBlank c = false) ↔
      ¬(name.toList.all Text.isBlank = true) := by
    simp
  have hliteral : (∀ c ∈ name.toList, endsLiteral c = false) ↔
      ¬(name.toList.any endsLiteral = true) := by
    simp
  rw [hblank, hliteral, nameFault?]
  split
  · next h => simp [h]
  · next h =>
    split
    · next h' => simp [h']
    · next h' => exact iff_of_true rfl ⟨h, h'⟩

/-- What ends a literal is a quote or a line break. -/
theorem forall_endsLiteral_iff {name : String} :
    (∀ c ∈ name.toList, endsLiteral c = false) ↔
      '\x22' ∉ name.toList ∧ '\n' ∉ name.toList ∧ '\r' ∉ name.toList := by
  simp only [endsLiteral, Bool.or_eq_false_iff, beq_eq_false_iff_ne]
  constructor
  · intro h
    exact ⟨fun hc => (h _ hc).1.1 rfl, fun hc => (h _ hc).1.2 rfl, fun hc => (h _ hc).2 rfl⟩
  · rintro ⟨hquote, hfeed, hreturn⟩ c hc
    refine ⟨⟨?_, ?_⟩, ?_⟩
    · exact fun h => hquote (h ▸ hc)
    · exact fun h => hfeed (h ▸ hc)
    · exact fun h => hreturn (h ▸ hc)

/-- **Every declared name can be searched for.** -/
theorem nameFault?_of_mem_declaredNames {settings : List String} {text name : String}
    (h : name ∈ declaredNames settings text) : nameFault? name = none := by
  obtain ⟨first, rest, hname, hfirst, hrest⟩ := isName_of_mem_declaredNames h
  have hchars : ∀ c ∈ name.toList, Declaration.isNameChar c = true := by
    intro c hc
    rw [hname] at hc
    rcases List.mem_cons.1 hc with rfl | hc
    · rw [Declaration.isNameChar, hfirst]
      rfl
    · exact hrest c hc
  refine nameFault?_eq_none_iff.2 ⟨⟨first, by simp [hname], ?_⟩, fun c hc => ?_⟩
  · exact Declaration.isBlank_of_isNameChar (hchars first (by simp [hname]))
  · exact Declaration.endsLiteral_of_isNameChar (hchars c hc)

end Unreferenced
