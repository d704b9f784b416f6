import Unreferenced.Proofs.Exclusion

/-!
# Exclusion texts found as they are written

One would expect that a path which has an exclusion text in it, letter for letter, is
excluded. Both are lower-cased first, though, and each by itself: at the end of the exclusion
text a capital sigma is a final one, while in the path a word may go on behind it, and then
the one is looked for where the other stands (`Unreferenced.capital_sigma_hides_entry`).

So what counts is whether the surroundings of an exclusion text can change the form of one of
its sigmas. They cannot where a letter follows, past characters that are ignorable for case;
otherwise they cannot where something else than ignorable characters stands before, and, if
that is a letter, behind as well. An exclusion text all of whose sigmas are so settled
excludes every path that has it, and for every other one there is a path that has it and is
not excluded (`Unreferenced.excludes_verbatim_iff`).
-/

namespace Unreferenced

namespace Text

/-! ### Sigmas with one form -/

/-- All of the characters are ignorable for case, so that what counts lies beyond them. -/
def IsPassable (cs : List Char) : Prop :=
  ∀ c ∈ cs, caseIgnorableRanges.has c = true

instance (cs : List Char) : Decidable (IsPassable cs) :=
  List.decidableBAll _ cs

/-- A capital sigma between these characters has one form, whatever stands around them. -/
def SettlesSigma (before after : List Char) : Prop :=
  meetsCased after = true ∨
    ¬IsPassable before ∧ (meetsCased before.reverse = true → ¬IsPassable after)

instance (before after : List Char) : Decidable (SettlesSigma before after) :=
  inferInstanceAs (Decidable (_ ∨ _))

/-- Every capital sigma of the text has one form, whatever stands around the text. -/
def SettlesSigmas (text : String) : Prop :=
  ∀ before after, text.toList = before ++ 'Σ' :: after → SettlesSigma before after

/-- A text is cut at a sigma by saying where the sigma stands. -/
theorem settlesSigmas_iff {text : String} :
    SettlesSigmas text ↔ ∀ n : Fin text.toList.length, text.toList[n] = 'Σ' →
      SettlesSigma (text.toList.take n) (text.toList.drop (n + 1)) := by
  constructor
  · intro h n hn
    refine h _ _ ?_
    rw [← hn]
    simp
  · intro h before after hsplit
    have hn : before.length < text.toList.length := by simp [hsplit]
    have hplace := h ⟨before.length, hn⟩ (by simp [hsplit])
    simpa [hsplit] using hplace

instance (text : String) : Decidable (SettlesSigmas text) :=
  decidable_of_iff _ settlesSigmas_iff.symm

variable {before after front rest cs : List Char}

theorem meetsCased_of_isPassable (h : IsPassable cs) (ds : List Char) :
    meetsCased (cs ++ ds) = meetsCased ds := by
  rw [meetsCased_append, if_pos (List.all_eq_true.2 h)]

theorem meetsCased_of_not_isPassable (h : ¬IsPassable cs) (ds : List Char) :
    meetsCased (cs ++ ds) = meetsCased cs := by
  rw [meetsCased_append, if_neg fun hall => h (List.all_eq_true.1 hall)]

theorem not_isPassable_of_meetsCased (h : meetsCased cs = true) : ¬IsPassable cs := by
  intro hpass
  rw [meetsCased_of_all_ignorable (List.all_eq_true.2 hpass)] at h
  cases h

theorem isPassable_reverse : IsPassable cs.reverse ↔ IsPassable cs := by
  simp [IsPassable]

/-- **A settled sigma has the form that it has without surroundings.** -/
theorem SettlesSigma.lowerSigma_eq (h : SettlesSigma before after) (front rest : List Char) :
    lowerSigma (before.reverse ++ front) (after ++ rest) = lowerSigma before.reverse after := by
  rcases h with hafter | ⟨hbefore, hboth⟩
  · -- a letter follows
    have hfollows := meetsCased_of_not_isPassable (not_isPassable_of_meetsCased hafter) rest
    rw [lowerSigma, lowerSigma, hfollows, hafter, Bool.not_true, Bool.and_false, Bool.and_false]
  · have hfront := meetsCased_of_not_isPassable (mt isPassable_reverse.1 hbefore) front
    rw [lowerSigma, lowerSigma, hfront]
    cases hcased : meetsCased before.reverse with
    | false => rfl
    | true => rw [meetsCased_of_not_isPassable (hboth hcased) rest]

/-- A letter of ASCII is cased and not ignorable. -/
theorem meetsCased_letter : meetsCased ['a'] = true := by
  decide +kernel

/-- **A sigma that is not settled** has another form behind a letter or in front of one. -/
theorem lowerSigma_ne_of_not_settlesSigma (h : ¬SettlesSigma before after) :
    IsPassable before ∧
        lowerSigma (before.reverse ++ ['a']) after ≠ lowerSigma before.reverse after ∨
      IsPassable after ∧
        lowerSigma before.reverse (after ++ ['a']) ≠ lowerSigma before.reverse after := by
  simp only [SettlesSigma, not_or, not_and, Classical.not_imp, not_not, Bool.not_eq_true] at h
  obtain ⟨hafter, hopen⟩ := h
  by_cases hbefore : IsPassable before
  · left
    have hreach := meetsCased_of_isPassable (isPassable_reverse.2 hbefore) ['a']
    have halone := meetsCased_of_isPassable (isPassable_reverse.2 hbefore) []
    rw [List.append_nil, meetsCased] at halone
    refine ⟨hbefore, ?_⟩
    rw [lowerSigma, lowerSigma, hreach, meetsCased_letter, halone, hafter]
    decide
  · right
    obtain ⟨hcased, hpass⟩ := hopen hbefore
    refine ⟨hpass, ?_⟩
    rw [lowerSigma, lowerSigma, meetsCased_of_isPassable hpass, meetsCased_letter, hcased, hafter]
    decide

/-! ### A letter beside a text -/

/-- Only the letters `a` and `A` have `a` in their lower case, and these are not ignorable. -/
theorem not_mem_lowerChar_of_ignorable {c : Char} (h : caseIgnorableRanges.has c = true) :
    'a' ∉ lowerChar c := by
  intro hmem
  rcases ascii_of_mem_lowerChar hmem (by decide) with hc | ⟨-, hi⟩ | hk
  · have hletter : c = 'a' ∨ c = 'A' := by
      rw [lowerChar_of_ascii hc, List.mem_singleton] at hmem
      exact forall_ascii (P := fun c => 'a' = c.toLower → c = 'a' ∨ c = 'A') (by decide) hc hmem
    rcases hletter with rfl | rfl <;> exact absurd h (by decide +kernel)
  · exact absurd hi (by decide)
  · exact absurd hk (by decide)

/-- Sigmas and ignorable characters leave no `a` behind. -/
theorem not_mem_lowerWithin (h : ∀ c ∈ cs, c = 'Σ' ∨ caseIgnorableRanges.has c = true)
    (before after : List Char) : 'a' ∉ lowerWithin before cs after := by
  induction cs generalizing before with
  | nil => simp [lowerWithin]
  | cons c rest ih =>
    obtain ⟨hc, hrest⟩ := List.forall_mem_cons.1 h
    rw [lowerWithin, List.mem_append, not_or]
    refine ⟨?_, ih hrest _⟩
    split
    · rw [lowerSigma]
      split <;> decide
    · next hsigma => exact not_mem_lowerChar_of_ignorable (hc.resolve_left hsigma)

theorem lowerWithin_ne_nil (h : cs ≠ []) (before after : List Char) :
    lowerWithin before cs after ≠ [] := by
  obtain ⟨c, rest, rfl⟩ := List.exists_cons_of_ne_nil h
  rw [lowerWithin]
  split
  · simp
  · simp [lowerChar_ne_nil]

theorem lowerWithin_letter (before after : List Char) : lowerWithin before ['a'] after = ['a'] :=
  lowerWithin_of_ascii (List.forall_mem_singleton.2 (by decide)) before after

/-- **Behind a letter** a text that begins with ignorable characters and a sigma is found in
lower case only where it stands. -/
theorem eq_of_infix_behind_letter (hpass : IsPassable before)
    (h : lowerWithin [] (before ++ 'Σ' :: after) [] <:+:
      lowerWithin [] ('a' :: (before ++ 'Σ' :: after)) []) :
    lowerWithin [] (before ++ 'Σ' :: after) [] =
      lowerWithin ['a'] (before ++ 'Σ' :: after) [] := by
  have hletter : lowerWithin [] ('a' :: (before ++ 'Σ' :: after)) [] =
      'a' :: lowerWithin ['a'] (before ++ 'Σ' :: after) [] := by
    rw [← List.singleton_append, lowerWithin_append, lowerWithin_letter]
    rfl
  rw [hletter, List.infix_cons_iff] at h
  rcases h with hprefix | hinfix
  · -- It would have to begin with the letter.
    have hstart : before ++ 'Σ' :: after = (before ++ ['Σ']) ++ after := by simp
    have hnot : 'a' ∉ lowerWithin [] (before ++ ['Σ']) (after ++ []) := by
      refine not_mem_lowerWithin (fun c hc => ?_) _ _
      rcases List.mem_append.1 hc with hc | hc
      · exact .inr (hpass c hc)
      · exact .inl (List.mem_singleton.1 hc)
    have hne := lowerWithin_ne_nil (List.append_ne_nil_of_right_ne_nil before (List.cons_ne_nil 'Σ' []))
      [] (after ++ [])
    obtain ⟨first, more, hfirst⟩ := List.exists_cons_of_ne_nil hne
    rw [hstart, lowerWithin_append, hfirst, List.cons_append, List.cons_prefix_cons] at hprefix
    rw [hfirst, hprefix.1] at hnot
    exact absurd List.mem_cons_self hnot
  · exact eq_of_infix_of_byteCount hinfix (byteCount_lowerWithin ..)

/-- **In front of a letter** a text that ends with a sigma and ignorable characters is found in
lower case only where it stands. -/
theorem eq_of_infix_before_letter (hpass : IsPassable after)
    (h : lowerWithin [] (before ++ 'Σ' :: after) [] <:+:
      lowerWithin [] ((before ++ 'Σ' :: after) ++ ['a']) []) :
    lowerWithin [] (before ++ 'Σ' :: after) [] =
      lowerWithin [] (before ++ 'Σ' :: after) ['a'] := by
  rw [lowerWithin_append _ _ ['a'], lowerWithin_letter, List.append_nil,
    List.infix_concat_iff] at h
  rcases h with hsuffix | hinfix
  · -- It would have to end with the letter.
    have hnot : 'a' ∉ lowerWithin (before.reverse ++ []) ('Σ' :: after) [] := by
      refine not_mem_lowerWithin (fun c hc => ?_) _ _
      exact (List.mem_cons.1 hc).imp_right (hpass c)
    have hne := lowerWithin_ne_nil (List.cons_ne_nil 'Σ' after) (before.reverse ++ []) []
    rw [lowerWithin_append] at hsuffix
    obtain ⟨skipped, hsplit⟩ := hsuffix
    have hlast := congrArg List.getLast? hsplit
    rw [List.getLast?_append_of_ne_nil _ (List.append_ne_nil_of_right_ne_nil _ hne),
      List.getLast?_append_of_ne_nil _ hne, List.getLast?_concat] at hlast
    exact absurd (List.mem_of_getLast? hlast) hnot
  · exact eq_of_infix_of_byteCount hinfix (byteCount_lowerWithin ..)

end Text

/-! ### Exclusion texts in a path -/

/-- **What a settled text contributes to the lower case of a longer one** is its own lower
case. -/
theorem Text.SettlesSigmas.contains_lower {pattern text : String} (h : SettlesSigmas pattern)
    (hcontains : contains text pattern = true) : contains (lower text) (lower pattern) = true := by
  obtain ⟨front, rest, hsplit⟩ := contains_iff.1 hcontains
  have hplace : lowerWithin (front.reverse ++ []) pattern.toList (rest ++ []) =
      lowerWithin [] pattern.toList [] := by
    refine lowerWithin_congr fun before after hsigma => ?_
    rw [(h before after hsigma).lowerSigma_eq, List.append_nil, List.append_nil]
  rw [contains_iff, toList_lower, toList_lower, ← hsplit, List.append_assoc, lowerWithin_append,
    lowerWithin_append, hplace, ← List.append_assoc]
  exact List.infix_append ..

/-- **An exclusion text excludes every path that has it in it** exactly when the surroundings
cannot change one of its capital sigmas. -/
theorem excludes_verbatim_iff {pattern : String} (hne : pattern ≠ "") :
    (∀ patterns path, pattern ∈ patterns → Text.contains path.text pattern = true →
        isExcluded patterns path = true) ↔
      Text.SettlesSigmas pattern := by
  constructor
  · intro h before after hsplit
    by_contra hopen
    have hfound : ∀ path : FilePath, pattern.toList <:+: path.text.toList →
        Text.lowerWithin [] pattern.toList [] <:+: Text.lowerWithin [] path.text.toList [] := by
      intro path hinfix
      obtain ⟨found, hmem, -, hcontains⟩ := isExcluded_iff.1
        (h [pattern] path List.mem_cons_self (Text.contains_iff.2 hinfix))
      obtain rfl := List.mem_singleton.1 hmem
      rwa [Text.contains_iff, Text.toList_lower, Text.toList_lower] at hcontains
    rcases Text.lowerSigma_ne_of_not_settlesSigma hopen with ⟨hpass, hform⟩ | ⟨hpass, hform⟩
    · have htext : ("a" ++ pattern).toList = 'a' :: pattern.toList := by
        rw [String.toList_append]
        rfl
      have hbehind := hfound ⟨"a" ++ pattern⟩ (htext ▸ (List.suffix_cons ..).isInfix)
      rw [htext, hsplit] at hbehind
      have heq := Text.lowerWithin_eq_iff.1 (Text.eq_of_infix_behind_letter hpass hbehind)
        before after rfl
      rw [List.append_nil, List.append_nil] at heq
      exact hform heq.symm
    · have htext : (pattern ++ "a").toList = pattern.toList ++ ['a'] := by
        rw [String.toList_append]
        rfl
      have hbefore := hfound ⟨pattern ++ "a"⟩ (htext ▸ (List.prefix_append ..).isInfix)
      rw [htext, hsplit] at hbefore
      have heq := Text.lowerWithin_eq_iff.1 (Text.eq_of_infix_before_letter hpass hbefore)
        before after rfl
      rw [List.append_nil, List.append_nil] at heq
      exact hform heq.symm
  · intro h patterns path hmem hcontains
    exact isExcluded_iff.2 ⟨pattern, hmem, hne, h.contains_lower hcontains⟩

/-- The exclusion texts that are set when nothing is said exclude what has them in it. -/
example : ∀ pattern ∈ ({} : Settings).exclude, pattern ≠ "" ∧ Text.SettlesSigmas pattern := by
  decide +kernel

/-- A final sigma before a separator is final wherever the directory lies. -/
theorem street_excluded_verbatim :
    "ΟΔΟΣ/" ≠ "" ∧ isExcluded ["build", "ΟΔΟΣ/"] ⟨"/App/ΜΙΚΡΗΟΔΟΣ/A.swift"⟩ = true := by
  have hne : "ΟΔΟΣ/" ≠ "" := by decide
  have hsettled : Text.SettlesSigmas "ΟΔΟΣ/" := by decide +kernel
  exact ⟨hne, (excludes_verbatim_iff hne).2 hsettled _ _ (by decide) (by decide)⟩

/-- **A capital sigma hides an exclusion text** from a path that has it, when it ends the text
and a word goes on behind it. -/
theorem capital_sigma_hides_entry :
    "ΑΣ" ≠ "" ∧ Text.contains (⟨"/ΑΣΑ/A.swift"⟩ : FilePath).text "ΑΣ" = true ∧
      isExcluded ["ΑΣ"] ⟨"/ΑΣΑ/A.swift"⟩ = false := by
  refine ⟨by decide, by decide, ?_⟩
  decide +kernel

end Unreferenced
