import Unreferenced.Proofs.Declaration.Segments

/-!
# The order of the keywords

Where declarations start at one place under several keywords, the first keyword in the list
decides. As long as no keyword has white space inside it there is nothing to decide: a
declaration has white space right behind its keyword, so the keyword is all that stands
before the first white space, and only one keyword can be that. What starts at a place is
then *the* declaration that stands there under one of the keywords
(`Unreferenced.Declaration.starting?_eq_some_iff`), which says nothing about their order or
about how often one is given. The scan asks nothing else of the keywords, so lists with the
same keywords find the same declarations (`Unreferenced.declaredNames_of_same_keywords`).

It is only white space inside a keyword that makes the order matter: behind `class` a name
can stand that is part of the keyword `class Foo`.
-/

namespace Unreferenced

namespace Declaration

variable {keywords keywords' : List (List Char)} {cs : List Char} {d : Declaration}

/-- A keyword without white space inside it. -/
def IsUnbroken (keyword : List Char) : Prop :=
  ∀ c ∈ keyword, Text.isBlank c = false

/-- **What starts at a place** under keywords without white space is the one declaration
that stands there under any of them. -/
theorem starting?_eq_some_iff (hunbroken : ∀ keyword ∈ keywords, IsUnbroken keyword) :
    starting? keywords cs = some d ↔ d.keyword ∈ keywords ∧ d.StandsAt cs := by
  refine ⟨standsAt_of_starting?, fun ⟨hmem, hstands⟩ => ?_⟩
  cases hstart : starting? keywords cs with
  | none => exact absurd hstands (starting?_eq_none_iff.1 hstart d hmem)
  | some d' =>
    obtain ⟨hmem', hstands'⟩ := standsAt_of_starting? hstart
    have hkeyword : d'.keyword = d.keyword :=
      hstands'.keyword_eq hstands (hunbroken _ hmem') (hunbroken _ hmem)
    rw [hstands'.unique hstands hkeyword]

theorem starting?_of_same_keywords (hsame : ∀ keyword, keyword ∈ keywords ↔ keyword ∈ keywords')
    (hunbroken : ∀ keyword ∈ keywords, IsUnbroken keyword) (cs : List Char) :
    starting? keywords cs = starting? keywords' cs := by
  have hunbroken' : ∀ keyword ∈ keywords', IsUnbroken keyword :=
    fun keyword hmem => hunbroken keyword ((hsame keyword).2 hmem)
  ext d
  rw [starting?_eq_some_iff hunbroken, starting?_eq_some_iff hunbroken', hsame]

/-- The scan asks of the keywords only what starts at each place. -/
theorem after_congr (h : ∀ cs, starting? keywords cs = starting? keywords' cs) (skip : Nat)
    (cs : List Char) : after keywords skip cs = after keywords' skip cs := by
  fun_induction after keywords skip cs with
  | case1 skip => rw [after]
  | case2 skip c rest ih => rw [after, ih]
  | case3 c rest d hd ih => rw [after, ← h, hd, ih]
  | case4 c rest hnone ih => rw [after, ← h, hnone, ih]

/-- What the settings provide as keywords: what is left of them when they are trimmed, if
anything is. -/
theorem mem_keywords_iff {settings : List String} {keyword : List Char} :
    keyword ∈ Declaration.keywords settings ↔
      keyword ≠ [] ∧ ∃ setting ∈ settings, Text.trim setting.toList = keyword := by
  simp [Declaration.keywords, and_comm]

end Declaration

/-- **The order of the keywords does not matter**, nor does how they are written down. When
two lists of settings provide the same keywords once they are trimmed and blank ones are
dropped, and no keyword has white space inside it, every text has the same declarations
under both, and so the same declared names. -/
theorem declaredNames_of_same_keywords {settings settings' : List String}
    (hsame : ∀ keyword : List Char, keyword ≠ [] →
      ((∃ setting ∈ settings, Text.trim setting.toList = keyword) ↔
        ∃ setting ∈ settings', Text.trim setting.toList = keyword))
    (hunbroken : ∀ setting ∈ settings,
      Declaration.IsUnbroken (Text.trim setting.toList)) (text : String) :
    declarations settings text = declarations settings' text ∧
      declaredNames settings text = declaredNames settings' text := by
  have hkeywords : ∀ keyword, keyword ∈ Declaration.keywords settings ↔
      keyword ∈ Declaration.keywords settings' := by
    intro keyword
    rw [Declaration.mem_keywords_iff, Declaration.mem_keywords_iff]
    exact and_congr_right (hsame keyword)
  have hkeywordsUnbroken : ∀ keyword ∈ Declaration.keywords settings,
      Declaration.IsUnbroken keyword := by
    intro keyword hmem
    obtain ⟨-, setting, hsetting, rfl⟩ := Declaration.mem_keywords_iff.1 hmem
    exact hunbroken setting hsetting
  have hdeclarations : declarations settings text = declarations settings' text :=
    Declaration.after_congr
      (Declaration.starting?_of_same_keywords hkeywords hkeywordsUnbroken) 0 _
  exact ⟨hdeclarations, by rw [declaredNames, hdeclarations, declaredNames]⟩

/-- Keywords that begin with one another, are given twice, stand among blanks or hold
characters that mean something elsewhere find the same in any order. -/
theorem store_under_shuffled_keywords :
    declaredNames ["class", "classy", "a|b", " "] "classy Store; a|b Cache; class Item" =
        ["Store", "Cache", "Item"] ∧
      declaredNames [" a|b", "classy", "class\t", "classy"] "classy Store; a|b Cache; class Item" =
        ["Store", "Cache", "Item"] := by
  have htrims : ["class", "classy", "a|b", " "].map (fun setting => Text.trim setting.toList) =
      ["class".toList, "classy".toList, "a|b".toList, []] := by decide +kernel
  have htrims' :
      [" a|b", "classy", "class\t", "classy"].map (fun setting => Text.trim setting.toList) =
        ["a|b".toList, "classy".toList, "class".toList, "classy".toList] := by decide +kernel
  have hsame : ∀ keyword : List Char, keyword ≠ [] →
      ((∃ setting ∈ ["class", "classy", "a|b", " "], Text.trim setting.toList = keyword) ↔
        ∃ setting ∈ [" a|b", "classy", "class\t", "classy"],
          Text.trim setting.toList = keyword) := by
    intro keyword hne
    rw [← List.mem_map, ← List.mem_map, htrims, htrims']
    simp only [List.mem_cons, hne, List.not_mem_nil, or_false]
    tauto
  have hunbroken : ∀ setting ∈ ["class", "classy", "a|b", " "],
      Declaration.IsUnbroken (Text.trim setting.toList) := by
    have hall : (["class", "classy", "a|b", " "].map fun setting =>
        Text.trim setting.toList).all (·.all (! Text.isBlank ·)) = true := by decide +kernel
    intro setting hsetting c hc
    have hkeyword := List.all_eq_true.1 hall _ (List.mem_map_of_mem hsetting)
    simpa using List.all_eq_true.1 hkeyword c hc
  obtain ⟨-, hnames⟩ := declaredNames_of_same_keywords hsame hunbroken
    "classy Store; a|b Cache; class Item"
  have hread : declaredNames ["class", "classy", "a|b", " "]
      "classy Store; a|b Cache; class Item" = ["Store", "Cache", "Item"] := by decide +kernel
  exact ⟨hread, hnames.symm.trans hread⟩

/-- With white space inside a keyword the order decides. -/
example : declaredNames ["class", "class Foo"] "class Foo Bar" = ["Foo"] ∧
    declaredNames ["class Foo", "class"] "class Foo Bar" = ["Bar"] := by
  decide +kernel

end Unreferenced
