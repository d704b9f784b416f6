import Unreferenced.Proofs.Yaml.Root

/-!
# The first entry of a TOML text

A document in TOML is read line by line, and what comes in front of its first entry are blank
lines and comments. YAML passes over the same lines, as long as no character ends a line there
that does not end one in TOML. So the content of the text, in the sense of YAML, is its first
entry: a header or a key, with which a mapping in YAML never starts
(`Unreferenced.Toml.startsRoot_of_document?`), unless a colon follows further on.
-/

namespace Unreferenced.Toml

open Yaml (contentFrom content StartsNode StartsRoot)

/-- No characters end a line but line feeds and carriage returns. -/
def HasPlainBreaks (cs : List Char) : Prop :=
  ∀ c ∈ cs, Yaml.isBreak c = true → c = '\n' ∨ c = '\r'

instance : DecidablePred HasPlainBreaks :=
  fun cs => List.decidableBAll (fun c => Yaml.isBreak c = true → c = '\n' ∨ c = '\r') cs

variable {cs rest : List Char}

theorem HasPlainBreaks.of_suffix (h : HasPlainBreaks cs) (hsuffix : rest <:+ cs) :
    HasPlainBreaks rest :=
  fun c hc => h c (hsuffix.subset hc)

/-! ### Blank lines and comments -/

/-- What a comment may hold ends no line. -/
theorem isBreak_of_isVisible {c : Char} (hc : isVisible c = true)
    (hbreak : Yaml.isBreak c = true → c = '\n' ∨ c = '\r') : Yaml.isBreak c = false := by
  rw [Bool.eq_false_iff]
  intro h
  obtain rfl | rfl := hbreak h <;> cases hc

/-- Both notations have the same white space. -/
theorem contentFrom_dropWhile (cs : List Char) :
    contentFrom false (cs.dropWhile isSpace) = contentFrom false cs :=
  Yaml.contentFrom_dropWhile fun _ hc => hc

theorem contentFrom_behindNewline? {inComment : Bool} (h : behindNewline? cs = some rest) :
    contentFrom inComment cs = contentFrom false rest ∧ rest <:+ cs := by
  rw [behindNewline?.eq_def] at h
  split at h
  · cases h
    exact ⟨Yaml.contentFrom_break (by decide), List.suffix_cons _ _⟩
  · cases h
    rw [Yaml.contentFrom_break (by decide), Yaml.contentFrom_break (by decide)]
    exact ⟨rfl, (List.suffix_cons _ _).trans (List.suffix_cons _ _)⟩
  · cases h

/-- **The rest of a line without an entry is no content.** -/
theorem contentFrom_endLine? (hbreaks : HasPlainBreaks cs) (h : endLine? cs = some rest) :
    contentFrom false cs = contentFrom false rest ∧ rest <:+ cs := by
  have hspaces := contentFrom_dropWhile cs
  have hdrop : cs.dropWhile isSpace <:+ cs := List.dropWhile_suffix _
  -- what is left is inside the comment or behind the spaces, and a line break ends both
  have hend : ∃ inComment, contentFrom false cs = contentFrom inComment (skipComment cs) ∧
      skipComment cs <:+ cs := by
    rw [skipComment]
    split
    · next more hmore =>
      rw [hmore] at hspaces hdrop
      have hvisible : ∀ c ∈ more.takeWhile isVisible, Yaml.isBreak c = false := by
        intro c hc
        have hmem : c ∈ cs :=
          hdrop.subset (List.mem_cons_of_mem _ ((List.takeWhile_sublist _).subset hc))
        exact isBreak_of_isVisible (List.all_eq_true.1 List.all_takeWhile c hc) (hbreaks c hmem)
      have hcomment := Yaml.contentFrom_comment hvisible (more.dropWhile isVisible)
      rw [List.takeWhile_append_dropWhile] at hcomment
      refine ⟨true, ?_, ?_⟩
      · rw [← hspaces, Yaml.contentFrom_hash, hcomment]
      · exact ((List.dropWhile_suffix _).trans (List.suffix_cons _ _)).trans hdrop
    · exact ⟨false, hspaces.symm, hdrop⟩
  obtain ⟨inComment, hsame, hsuffix⟩ := hend
  rw [endLine?] at h
  split at h
  · next hnil =>
    cases h
    rw [hsame, hnil, Yaml.contentFrom_nil, Yaml.contentFrom_nil]
    exact ⟨rfl, List.nil_suffix⟩
  · obtain ⟨hnewline, hrest⟩ := contentFrom_behindNewline? h
    exact ⟨hsame.trans hnewline, hrest.trans hsuffix⟩

/-! ### Keys -/

theorem isNodeStart_of_isBareKeyChar {c : Char} (hc : isBareKeyChar c = true) :
    Yaml.isNodeStart c = true := by
  rw [Yaml.isNodeStart, Bool.or_eq_true]
  exact .inl hc

/-- The first character of a key starts a scalar, and is no point. -/
theorem head_of_readKeyPart {part : String} (h : readKeyPart cs = some (part, rest)) :
    ∃ c more, cs = c :: more ∧ Yaml.isNodeStart c = true ∧ c ≠ '.' := by
  rw [readKeyPart.eq_def] at h
  split at h
  · exact ⟨_, _, rfl, by decide, by decide⟩
  · exact ⟨_, _, rfl, by decide, by decide⟩
  · dsimp only at h
    split at h
    · cases h
    · next hword =>
      cases cs with
      | nil => exact absurd rfl hword
      | cons c more =>
        have hc : isBareKeyChar c = true := by
          by_contra hc
          rw [List.takeWhile_cons_of_neg hc] at hword
          exact hword rfl
        refine ⟨c, more, rfl, isNodeStart_of_isBareKeyChar hc, ?_⟩
        rintro rfl
        exact absurd hc (by decide)

/-- Three dashes with white space behind them are the whole part of a key. -/
theorem rest_of_readKeyPart_dashes {part : String} {behind : List Char}
    (hends : rest.head?.all Yaml.isGap = true)
    (h : readKeyPart ('-' :: '-' :: '-' :: rest) = some (part, behind)) : behind = rest := by
  have hword : rest.takeWhile isBareKeyChar = [] := by
    cases rest with
    | nil => rfl
    | cons c rest =>
      refine List.takeWhile_cons_of_neg fun hc => ?_
      have hgap := Yaml.isGap_of_isNodeStart (isNodeStart_of_isBareKeyChar hc)
      exact Bool.false_ne_true (hgap.symm.trans hends)
  have hdashes : ('-' :: '-' :: '-' :: rest).takeWhile isBareKeyChar = ['-', '-', '-'] := by
    rw [List.takeWhile_cons_of_pos (by decide), List.takeWhile_cons_of_pos (by decide),
      List.takeWhile_cons_of_pos (by decide), hword]
  rw [readKeyPart.eq_def] at h
  dsimp only at h
  rw [hdashes, if_neg (by decide)] at h
  cases h
  rfl

theorem readKeyParts_cases {fuel : Nat} {parts : List String}
    (h : readKeyParts (fuel + 1) cs = some (parts, rest)) :
    ∃ part behind, readKeyPart (cs.dropWhile isSpace) = some (part, behind) ∧
      ((∃ more parts', behind.dropWhile isSpace = '.' :: more ∧
          readKeyParts fuel more = some (parts', rest)) ∨
        rest = behind.dropWhile isSpace) := by
  simp only [readKeyParts, Option.bind_eq_bind, Option.bind_eq_some_iff, Prod.exists] at h
  obtain ⟨part, behind, hpart, h⟩ := h
  refine ⟨part, behind, hpart, ?_⟩
  split at h
  · next more hmore =>
    simp only [Option.bind_eq_some_iff, Prod.exists] at h
    obtain ⟨parts', rest', hparts, h⟩ := h
    cases h
    exact .inl ⟨more, parts', hmore, hparts⟩
  · cases h
    exact .inr rfl

/-- A point between the parts of a key is no mark around documents. -/
theorem startsNode_of_point {fuel : Nat} {more : List Char} {parts : List String}
    (h : readKeyParts fuel more = some (parts, rest)) : StartsNode ('.' :: more) := by
  refine ⟨rfl, ?_⟩
  rw [Bool.eq_false_iff]
  intro hmark
  cases fuel with
  | zero => cases h
  | succ fuel =>
    obtain ⟨part, behind, hpart, -⟩ := readKeyParts_cases h
    obtain ⟨c, others, hcs, -, hc⟩ := head_of_readKeyPart hpart
    simp only [Yaml.hasMark, Bool.and_eq_true, Bool.or_eq_true, List.isPrefixOf_iff_prefix]
      at hmark
    obtain ⟨⟨tail, htail⟩ | ⟨tail, htail⟩, -⟩ := hmark
    · cases htail
    · cases htail
      cases hcs
      exact hc rfl

/-- **A key starts a scalar**, also where its first part looks like the mark in front of a
document. -/
theorem startsRoot_of_readKey {path : List String} {key : String} {behind : List Char}
    (hkey : readKey cs = some (path, key, rest)) (hsign : Text.behind? ['='] rest = some behind) :
    StartsRoot (cs.dropWhile isSpace) := by
  simp only [readKey, Option.bind_eq_bind, Option.bind_eq_some_iff, Prod.exists] at hkey
  obtain ⟨parts, rest', hparts, hkey⟩ := hkey
  obtain rfl : rest' = rest := by
    split at hkey
    · simp only [Option.bind_eq_some_iff, Option.some.injEq, Prod.mk.injEq] at hkey
      obtain ⟨last, -, -, -, hrest⟩ := hkey
      exact hrest
    · cases hkey
  obtain rfl := Text.behind?_eq_some_iff.1 hsign
  obtain ⟨part, after, hpart, hafter⟩ := readKeyParts_cases hparts
  obtain ⟨c, more, hcs, hc, hpoint⟩ := head_of_readKeyPart hpart
  rw [hcs] at hpart ⊢
  cases hmark : Yaml.hasMark (c :: more) with
  | false => exact .inl ⟨hc, hmark⟩
  | true =>
    -- the mark has no points, and behind its three dashes the key goes on or ends
    obtain ⟨tail, hdashes, hends⟩ := Yaml.exists_dashes_of_hasMark hmark (by simpa using hpoint)
    rw [hdashes] at hpart ⊢
    obtain rfl := rest_of_readKeyPart_dashes hends hpart
    refine .inr ⟨after, rfl, ?_⟩
    obtain ⟨more', parts', hmore, hparts'⟩ | hend := hafter
    · exact hmore ▸ startsNode_of_point hparts'
    · have hsign : after.dropWhile Yaml.isSpace = '=' :: behind := hend.symm
      rw [hsign]
      exact ⟨rfl, Yaml.hasMark_cons_of_ne (by decide) (by decide)⟩

/-! ### Lines -/

/-- A line without an entry changes nothing, and an entry is content. -/
theorem readLineOf_start {reading : Reading} (hbreaks : HasPlainBreaks cs)
    (h : readLineOf {} cs = some (reading, rest)) :
    (reading = {} ∧ contentFrom false cs = contentFrom false rest ∧ rest <:+ cs) ∨
      StartsRoot (contentFrom false cs) := by
  have hdrop : cs.dropWhile isSpace <:+ cs := List.dropWhile_suffix _
  have hspaces := contentFrom_dropWhile cs
  have hheader : ∀ {more : List Char}, cs.dropWhile isSpace = '[' :: more →
      StartsRoot (contentFrom false cs) := by
    intro more hmore
    rw [← hspaces, hmore, Yaml.contentFrom_of_not (by decide) (by decide) (by decide)]
    exact .inl ⟨rfl, Yaml.hasMark_cons_of_ne (by decide) (by decide)⟩
  rw [readLineOf] at h
  split at h
  · next more hmore => exact .inr (hheader hmore)
  · next more _ hmore => exact .inr (hheader hmore)
  · split at h
    · next hend =>
      cases h
      obtain ⟨hsame, hsuffix⟩ := contentFrom_endLine? (hbreaks.of_suffix hdrop) hend
      exact .inl ⟨rfl, hspaces.symm.trans hsame, hsuffix.trans hdrop⟩
    · simp only [readPair, Option.bind_eq_bind, Option.bind_eq_some_iff, Prod.exists] at h
      obtain ⟨path, key, behind, hkey, value, hsign, -⟩ := h
      have hroot := startsRoot_of_readKey hkey hsign
      have hsame : contentFrom false cs = (cs.dropWhile isSpace).dropWhile isSpace := by
        rw [← Yaml.contentFrom_of_startsRoot hroot, contentFrom_dropWhile, hspaces]
      exact .inr (hsame ▸ hroot)

theorem readAll_start {fuel : Nat} {members : Members} (hbreaks : HasPlainBreaks cs)
    (h : readAll fuel {} cs = some members) :
    (contentFrom false cs = [] ∧ members = []) ∨ StartsRoot (contentFrom false cs) := by
  -- as long as there is no entry, the document is read from the start again
  induction fuel generalizing cs with
  | zero =>
    cases cs with
    | nil =>
      cases h
      exact .inl ⟨rfl, rfl⟩
    | cons => cases h
  | succ fuel ih =>
    cases cs with
    | nil =>
      cases h
      exact .inl ⟨rfl, rfl⟩
    | cons c cs =>
      simp only [readAll, Option.bind_eq_bind, Option.bind_eq_some_iff, Prod.exists] at h
      obtain ⟨reading, rest, hline, hmore⟩ := h
      obtain ⟨rfl, hsame, hsuffix⟩ | hroot := readLineOf_start hbreaks hline
      · rw [hsame]
        exact ih (hbreaks.of_suffix hsuffix) hmore
      · exact .inr hroot

/-- **The content of a TOML text is its first entry**, unless it has none and is empty. -/
theorem startsRoot_of_document? {text : String} {members : Members}
    (hbreaks : HasPlainBreaks text.toList) (h : document? text = some members) :
    (content text.toList = [] ∧ members = []) ∨ StartsRoot (content text.toList) := by
  rw [content]
  refine readAll_start ?_ h
  split
  · exact hbreaks.of_suffix (List.drop_suffix 1 _)
  · exact hbreaks

end Unreferenced.Toml
