import Unreferenced.Proofs.Yaml.Cursor
import Unreferenced.Yaml.Token

/-!
# Where the content of YAML text begins

White space, line breaks and comments in front of the content mean nothing. `contentFrom` takes
them away character by character; the lexer passes over them line by line, with a byte order
mark, with line breaks that are two characters long and with tabs that it refuses. The two meet
in `Lexer.rest_skipToToken`: outside of flow collections the next token stands where the content
begins, unless a tab is met first, which no token starts with.
-/

namespace Unreferenced.Yaml

/-- What follows white space, line breaks and comments; the first argument tells whether a
comment has begun. -/
def contentFrom : Bool → List Char → List Char
  | _, [] => []
  | inComment, c :: rest =>
    if isBreak c then contentFrom false rest
    else if inComment || isSpace c then contentFrom inComment rest
    else if c == '#' then contentFrom true rest
    else c :: rest

/-- The content of a text, in front of which a byte order mark may stand. -/
def content (cs : List Char) : List Char :=
  contentFrom false (if cs.head? = some '\ufeff' then cs.drop 1 else cs)

/-- The first line that holds more than white space and a comment, from its content on. -/
def contentLine (text : String) : List Char :=
  (content text.toList).takeWhile (! isBreak ·)

variable {cs rest : List Char} {c : Char} {inComment : Bool}

theorem contentFrom_nil : contentFrom inComment [] = [] := by
  rw [contentFrom]

theorem contentFrom_break (h : isBreak c = true) :
    contentFrom inComment (c :: rest) = contentFrom false rest := by
  rw [contentFrom, if_pos h]

theorem contentFrom_spaces (h : ∀ c ∈ cs, isSpace c = true) (rest : List Char) :
    contentFrom false (cs ++ rest) = contentFrom false rest := by
  induction cs with
  | nil => rfl
  | cons c cs ih =>
    obtain ⟨hc, hcs⟩ := List.forall_mem_cons.1 h
    rw [List.cons_append, contentFrom, if_neg (by simp [isBreak_of_isSpace hc]),
      if_pos (by simp [hc]), ih hcs]

theorem contentFrom_comment (h : ∀ c ∈ cs, isBreak c = false) (rest : List Char) :
    contentFrom true (cs ++ rest) = contentFrom true rest := by
  induction cs with
  | nil => rfl
  | cons c cs ih =>
    obtain ⟨hc, hcs⟩ := List.forall_mem_cons.1 h
    rw [List.cons_append, contentFrom, if_neg (by simp [hc]), if_pos (by simp), ih hcs]

theorem contentFrom_hash : contentFrom false ('#' :: rest) = contentFrom true rest := by
  rw [contentFrom, if_neg (by decide), if_neg (by decide), if_pos (by decide)]

theorem contentFrom_of_not (hbreak : isBreak c = false) (hspace : isSpace c = false)
    (hhash : c ≠ '#') : contentFrom false (c :: rest) = c :: rest := by
  rw [contentFrom, if_neg (by simp [hbreak]), if_neg (by simp [hspace]), if_neg (by simpa)]

theorem contentFrom_dropWhile {condition : Char → Bool}
    (h : ∀ c, condition c = true → isSpace c = true) :
    contentFrom false (cs.dropWhile condition) = contentFrom false cs := by
  have hspaces : ∀ c ∈ cs.takeWhile condition, isSpace c = true :=
    fun c hc => h c (List.all_eq_true.1 List.all_takeWhile c hc)
  rw [← contentFrom_spaces hspaces, List.takeWhile_append_dropWhile]

/-- At the end of its line a comment has ended too. -/
theorem contentFrom_of_atLineEnd (h : cs.head?.all isBreak = true) :
    contentFrom inComment cs = contentFrom false cs := by
  cases cs with
  | nil => rw [contentFrom_nil, contentFrom_nil]
  | cons c rest => rw [contentFrom_break h, contentFrom_break h]

theorem head?_dropWhile_all (condition : Char → Bool) (cs : List Char) :
    (cs.dropWhile condition).head?.all (! condition ·) = true := by
  have hstop := List.head?_dropWhile_not condition cs
  cases hhead : (cs.dropWhile condition).head? with
  | none => rfl
  | some c =>
    rw [hhead] at hstop
    simpa using hstop

/-- What is left of a line without its characters starts with a break, or there is nothing. -/
theorem atLineEnd_dropWhile (cs : List Char) :
    (cs.dropWhile (! isBreak ·)).head?.all isBreak = true := by
  have hstop := head?_dropWhile_all (! isBreak ·) cs
  simpa only [Bool.not_not] using hstop

/-! ### The way of the lexer -/

namespace Cursor

variable {cursor : Cursor}

theorem behindMark_of_ne (h : cursor.index ≠ 0) : cursor.behindMark = cursor := by
  rw [behindMark, if_neg (by simp [h])]

theorem length_rest_behindMark : cursor.behindMark.rest.length ≤ cursor.rest.length := by
  rw [behindMark]
  split
  · exact (List.drop_suffix 1 _).length_le
  · exact Nat.le_refl _

theorem rest_skipRun (cursor : Cursor) (condition : Char → Bool) :
    (cursor.skipRun condition).rest = cursor.rest.dropWhile condition := by
  calc (cursor.skipRun condition).rest
    _ = (cursor.rest.takeWhile condition ++ cursor.rest.dropWhile condition).drop
          (cursor.rest.takeWhile condition).length := by
      rw [List.takeWhile_append_dropWhile, skipRun, skip, run]
    _ = cursor.rest.dropWhile condition := List.drop_left

/-- Either there is no comment, or the line ends behind it. -/
theorem behindComment_cases (cursor : Cursor) :
    cursor.behindComment = cursor ∧ cursor.sees '#' = false ∨
      cursor.behindComment.rest.head?.all isBreak = true := by
  rw [behindComment]
  split
  · rw [rest_skipRun]
    exact .inr (atLineEnd_dropWhile _)
  · next h => exact .inl ⟨rfl, by simpa using h⟩

theorem length_rest_behindComment (cursor : Cursor) :
    cursor.behindComment.rest.length ≤ cursor.rest.length := by
  rw [behindComment]
  split
  · rw [rest_skipRun]
    exact (List.dropWhile_suffix _).length_le
  · exact Nat.le_refl _

/-- A comment means nothing. -/
theorem contentFrom_behindComment (cursor : Cursor) :
    contentFrom false cursor.behindComment.rest = contentFrom false cursor.rest := by
  rw [behindComment]
  split
  · next hsees =>
    obtain ⟨rest, hrest⟩ := sees_iff.1 hsees
    have hline : ∀ c ∈ rest.takeWhile (! isBreak ·), isBreak c = false :=
      fun c hc => by simpa using List.all_eq_true.1 List.all_takeWhile c hc
    have hcomment := contentFrom_comment hline (rest.dropWhile (! isBreak ·))
    rw [List.takeWhile_append_dropWhile] at hcomment
    rw [rest_skipRun, hrest, List.dropWhile_cons_of_pos (by decide), contentFrom_hash, hcomment]
    exact (contentFrom_of_atLineEnd (atLineEnd_dropWhile _)).symm
  · rfl

/-- A line break that is two characters long counts as one. -/
theorem contentFrom_skipLine (h : cursor.rest.head?.any isBreak = true) :
    contentFrom false cursor.rest = contentFrom false cursor.skipLine.rest ∧
      cursor.skipLine.rest.length < cursor.rest.length ∧ cursor.skipLine.index ≠ 0 := by
  rw [Cursor.skipLine]
  split
  · next rest hrest =>
    rw [hrest, contentFrom_break (by decide), contentFrom_break (by decide)]
    exact ⟨rfl, Nat.lt_succ_of_lt (Nat.lt_succ_self _), Nat.succ_ne_zero _⟩
  · next c rest _ hrest =>
    have hc : isBreak c = true := by simpa [hrest] using h
    rw [if_pos hc, hrest, contentFrom_break hc]
    exact ⟨rfl, Nat.lt_succ_self _, Nat.succ_ne_zero _⟩
  · next hrest => simp [hrest] at h

end Cursor

namespace Lexer

variable {lexer : Lexer}

/-- The way to the next token changes nothing but the position and whether a key may start. -/
theorem skipToToken_fields (fuel : Nat) (lexer : Lexer) :
    (skipToToken fuel lexer).tokens = lexer.tokens ∧
      (skipToToken fuel lexer).count = lexer.count ∧
      (skipToToken fuel lexer).blocks = lexer.blocks ∧
      (skipToToken fuel lexer).keys = lexer.keys := by
  induction fuel generalizing lexer with
  | zero => exact ⟨rfl, rfl, rfl, rfl⟩
  | succ fuel ih =>
    unfold skipToToken
    extract_lets start behindMark tabs behindSpaces behindComment
    split
    · exact ih _
    · exact ⟨rfl, rfl, rfl, rfl⟩

/-- **Outside of flow collections the next token stands where the content begins**, unless a
tab is met first. -/
theorem rest_skipToToken {fuel : Nat} (hflow : lexer.inFlow = false)
    (hfuel : lexer.cursor.rest.length < fuel) :
    (skipToToken fuel lexer).cursor.rest = contentFrom false lexer.cursor.behindMark.rest ∨
      (skipToToken fuel lexer).cursor.rest.head? = some '\t' := by
  induction fuel generalizing lexer with
  | zero => exact absurd hfuel (Nat.not_lt_zero _)
  | succ fuel ih =>
    unfold skipToToken
    extract_lets start behindMark tabs behindSpaces behindComment
    have hmark : behindMark = start.behindMark := rfl
    have hcomment : behindComment = behindSpaces.behindComment := rfl
    have hspaces : behindSpaces.rest =
        behindMark.rest.dropWhile fun c => c == ' ' || (tabs && c == '\t') :=
      Cursor.rest_skipRun _ _
    have hsame : contentFrom false behindComment.rest =
        contentFrom false start.behindMark.rest := by
      rw [hcomment, Cursor.contentFrom_behindComment, hspaces, hmark]
      refine contentFrom_dropWhile fun c hc => ?_
      rw [isSpace]
      revert hc
      cases c == ' ' <;> simp
    have hlength : behindComment.rest.length ≤ start.rest.length := by
      have hdrop : behindSpaces.rest.length ≤ behindMark.rest.length :=
        hspaces ▸ (List.dropWhile_suffix _).length_le
      exact Nat.le_trans (hcomment ▸ Cursor.length_rest_behindComment _)
        (Nat.le_trans hdrop (hmark ▸ Cursor.length_rest_behindMark))
    split
    · next hbreak =>
      obtain ⟨hskip, hlt, hindex⟩ := Cursor.contentFrom_skipLine hbreak
      have hnext := @ih { lexer with
        cursor := behindComment.skipLine
        keyAllowed := lexer.keyAllowed || !lexer.inFlow } hflow
        (Nat.lt_of_lt_of_le hlt (Nat.le_trans hlength (Nat.le_of_lt_succ hfuel)))
      rwa [Cursor.behindMark_of_ne hindex, ← hskip, hsame] at hnext
    · next hbreak =>
      rw [← hsame]
      cases hrest : behindComment.rest with
      | nil => exact .inl contentFrom_nil.symm
      | cons c rest =>
        rw [hrest, List.head?_cons, Option.any_some, Bool.not_eq_true] at hbreak
        -- the line goes on, so that there was no comment
        obtain ⟨hnone, hhash⟩ | hend := Cursor.behindComment_cases behindSpaces
        · have hstop := head?_dropWhile_all (fun c => c == ' ' || (tabs && c == '\t'))
            behindMark.rest
          rw [hcomment, hnone] at hrest
          rw [← hspaces, hrest, List.head?_cons, Option.all_some] at hstop
          simp only [Bool.not_eq_true', Bool.or_eq_false_iff] at hstop
          by_cases htab : c = '\t'
          · exact .inr (congrArg some htab)
          · refine .inl (contentFrom_of_not hbreak ?_ ?_).symm
            · simpa [isSpace, htab] using hstop.1
            · rintro rfl
              simp [Cursor.sees, hrest] at hhash
        · rw [← hcomment, hrest, List.head?_cons, Option.all_some, hbreak] at hend
          cases hend

end Lexer

end Unreferenced.Yaml
