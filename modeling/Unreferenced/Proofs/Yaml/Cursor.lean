import Mathlib.Logic.Basic
import Unreferenced.Yaml.Scalar

/-!
# A reading position leaves its line only at a line break

All readers of YAML text move a position, and what YAML calls a line is what lies between
two line breaks. So a position that has been moved is either on a later line, or it is on
the same one and nothing but characters of that line were passed
(`Unreferenced.Yaml.Cursor.Reaches`). The relation goes from step to step, and here it is
shown for the readers of white space and of the five kinds of scalars, one after the other:
each passes over line breaks by `Cursor.skipLine` alone.
-/

namespace Unreferenced.Yaml

/-- No line break has a property that the five line breaks lack. -/
theorem isBreak_eq_false {p : Char → Bool} {c : Char} (h : p c = true)
    (hp : ['\n', '\r', '\u0085', '\u2028', '\u2029'].all (! p ·) = true) : isBreak c = false := by
  rw [Bool.eq_false_iff]
  intro hbreak
  simp only [isBreak, Bool.or_eq_true, beq_iff_eq] at hbreak
  have hmem : c ∈ ['\n', '\r', '\u0085', '\u2028', '\u2029'] := by
    rcases hbreak with (((rfl | rfl) | rfl) | rfl) | rfl <;> decide
  have hnot := List.all_eq_true.1 hp c hmem
  rw [h] at hnot
  cases hnot

theorem isBreak_of_isSpace {c : Char} (h : isSpace c = true) : isBreak c = false :=
  isBreak_eq_false h (by decide)

theorem isBreak_of_isWordChar {c : Char} (h : isWordChar c = true) : isBreak c = false :=
  isBreak_eq_false h (by decide)

theorem isBreak_of_isDigit {c : Char} (h : c.isDigit = true) : isBreak c = false :=
  isBreak_eq_false (p := Char.isDigit) h (by decide)

theorem isBreak_of_not_isGap {c : Char} (h : ¬isGap c = true) : isBreak c = false := by
  rw [isGap, Bool.or_eq_true, not_or] at h
  exact Bool.eq_false_iff.2 h.2

/-- A number is written without line breaks. -/
theorem isBreak_of_hexNumber? {digits : List Char} {value : Nat}
    (h : Text.hexNumber? digits = some value) : ∀ c ∈ digits, isBreak c = false := by
  rw [Text.hexNumber?] at h
  generalize 0 = start at h
  induction digits generalizing start with
  | nil => simp
  | cons d digits ih =>
    rw [List.foldlM_cons, Option.bind_eq_bind, Option.bind_eq_some_iff] at h
    obtain ⟨next, hd, hdigits⟩ := h
    obtain ⟨v, hv, -⟩ := Option.map_eq_some_iff.1 hd
    refine List.forall_mem_cons.2 ⟨?_, ih _ hdigits⟩
    exact isBreak_eq_false (p := fun c => (Text.hexValue? c).isSome) (by simp [hv]) (by decide)

namespace Cursor

/-- **The second position can be reached from the first**: it is on a later line, or on the
same line with no line break between. -/
def Reaches (cursor next : Cursor) : Prop :=
  cursor.line < next.line ∨
    cursor.line = next.line ∧
      ∃ passed, cursor.rest = passed ++ next.rest ∧ ∀ c ∈ passed, isBreak c = false

variable {cursor next last : Cursor} {c : Char}

@[refl]
theorem Reaches.refl (cursor : Cursor) : cursor.Reaches cursor :=
  .inr ⟨rfl, [], rfl, by simp⟩

theorem Reaches.trans (h : cursor.Reaches next) (h' : next.Reaches last) :
    cursor.Reaches last := by
  rcases h with hlt | ⟨hline, passed, hpassed, hbreak⟩
  · rcases h' with hlt' | ⟨hline', -⟩
    · exact .inl (Nat.lt_trans hlt hlt')
    · exact .inl (hline' ▸ hlt)
  · rcases h' with hlt' | ⟨hline', more, hmore, hbreak'⟩
    · exact .inl (hline ▸ hlt')
    · refine .inr ⟨hline.trans hline', passed ++ more, ?_, ?_⟩
      · rw [hpassed, hmore, List.append_assoc]
      · exact List.forall_mem_append.2 ⟨hbreak, hbreak'⟩

/-! ### Steps -/

theorem reaches_skip {n : Nat} (h : ∀ c ∈ cursor.rest.take n, isBreak c = false) :
    cursor.Reaches (cursor.skip n) :=
  .inr ⟨rfl, cursor.rest.take n, (List.take_append_drop n _).symm, h⟩

theorem reaches_skip_one {rest : List Char} (h : cursor.rest = c :: rest)
    (hc : isBreak c = false) : cursor.Reaches (cursor.skip 1) :=
  reaches_skip (by simpa [h] using hc)

theorem sees_iff : cursor.sees c = true ↔ ∃ rest, cursor.rest = c :: rest := by
  rw [sees, beq_iff_eq, List.head?_eq_some_iff]

theorem reaches_skip_of_sees (h : cursor.sees c = true) (hc : isBreak c = false) :
    cursor.Reaches (cursor.skip 1) := by
  obtain ⟨rest, hrest⟩ := sees_iff.1 h
  exact reaches_skip_one hrest hc

/-- A run of characters without line breaks can be passed over, or a part of it. -/
theorem reaches_skip_run {condition : Char → Bool} {n : Nat}
    (hn : n ≤ (cursor.run condition).length)
    (h : ∀ c, condition c = true → isBreak c = false) : cursor.Reaches (cursor.skip n) := by
  refine reaches_skip fun c hc => h c ?_
  have hprefix : cursor.rest.take n <+: cursor.run condition :=
    List.prefix_of_prefix_length_le (List.take_prefix _ _) (List.takeWhile_prefix _)
      (Nat.le_trans (List.length_take_le _ _) hn)
  exact List.all_eq_true.1 List.all_takeWhile c (List.IsPrefix.subset hprefix hc)

theorem reaches_skipRun {condition : Char → Bool}
    (h : ∀ c, condition c = true → isBreak c = false) :
    cursor.Reaches (cursor.skipRun condition) :=
  reaches_skip_run (Nat.le_refl _) h

theorem reaches_skipLine (cursor : Cursor) : cursor.Reaches cursor.skipLine := by
  rw [skipLine]
  split
  · exact .inl (Nat.lt_succ_self _)
  · split
    · exact .inl (Nat.lt_succ_self _)
    · rfl
  · rfl

/-- The position behind the byte order mark that a text may start with. -/
def behindMark (cursor : Cursor) : Cursor :=
  if cursor.index == 0 && cursor.sees '\ufeff' then cursor.skip 1 else cursor

theorem reaches_behindMark (cursor : Cursor) : cursor.Reaches cursor.behindMark := by
  rw [behindMark]
  split
  · next h => exact reaches_skip_of_sees (Bool.and_eq_true_iff.1 h).2 (by decide)
  · rfl

/-- The position at the end of the line, if a comment is next. -/
def behindComment (cursor : Cursor) : Cursor :=
  if cursor.sees '#' then cursor.skipRun (! isBreak ·) else cursor

theorem reaches_behindComment (cursor : Cursor) : cursor.Reaches cursor.behindComment := by
  rw [behindComment]
  split
  · exact reaches_skipRun fun c hc => by simpa using hc
  · rfl

end Cursor

variable {cursor next : Cursor}

/-! ### White space and plain scalars -/

theorem reaches_of_readGap {indent fuel : Nat} {gap gap' : Gap}
    (h : readGap indent fuel cursor gap = some (gap', next)) : cursor.Reaches next := by
  induction fuel generalizing cursor gap with
  | zero =>
    rw [readGap] at h
    cases h
    rfl
  | succ fuel ih =>
    rw [readGap] at h
    split at h
    · cases h
      rfl
    · next c rest hrest =>
      split at h
      · next hc =>
        have hskip := Cursor.reaches_skip_one hrest (isBreak_of_isSpace hc)
        split at h
        · split at h
          · cases h
          · exact hskip.trans (ih h)
        · exact hskip.trans (ih h)
      · split at h
        · split at h <;> exact (Cursor.reaches_skipLine cursor).trans (ih h)
        · cases h
          rfl

theorem reaches_of_readPlainRun {inFlow : Bool} {fuel : Nat} {text text' : List Char}
    (h : readPlainRun inFlow fuel cursor text = some (text', next)) : cursor.Reaches next := by
  induction fuel generalizing cursor text with
  | zero =>
    rw [readPlainRun] at h
    cases h
    rfl
  | succ fuel ih =>
    rw [readPlainRun] at h
    split at h
    · cases h
      rfl
    · next c rest hrest =>
      split at h
      · cases h
        rfl
      · next hgap =>
        split at h
        · cases h
        · split at h
          · cases h
            rfl
          · exact (Cursor.reaches_skip_one hrest (isBreak_of_not_isGap hgap)).trans (ih h)

theorem reaches_of_readPlain {inFlow broken : Bool} {indent fuel : Nat} {text text' : List Char}
    {gap : Gap} (h : readPlain inFlow indent fuel cursor text gap = some (text', next, broken)) :
    cursor.Reaches next := by
  induction fuel generalizing cursor text gap with
  | zero => cases h
  | succ fuel ih =>
    rw [readPlain] at h
    split at h
    · cases h
      rfl
    · simp only [Option.bind_eq_bind, Option.bind_eq_some_iff, Prod.exists] at h
      obtain ⟨run, behind, hrun, h⟩ := h
      have hbehind := reaches_of_readPlainRun hrun
      split at h
      · simp only [Option.bind_eq_some_iff, Prod.exists] at h
        obtain ⟨gap', place, hgap, h⟩ := h
        have hplace := hbehind.trans (reaches_of_readGap hgap)
        split at h
        · cases h
          exact hplace
        · exact hplace.trans (ih h)
      · cases h
        exact hbehind

/-! ### Quoted scalars -/

/-- No line break stands for anything behind a backslash. -/
theorem isBreak_of_escaped? {c value : Char} (h : escaped? c = some value) :
    isBreak c = false :=
  isBreak_eq_false (p := fun c => (escaped? c).isSome) (by simp [h]) (by decide)

theorem isBreak_of_escapeDigits? {c : Char} {count : Nat} (h : escapeDigits? c = some count) :
    isBreak c = false :=
  isBreak_eq_false (p := fun c => (escapeDigits? c).isSome) (by simp [h]) (by decide)

theorem reaches_of_readEscape {value : Char} {rest : List Char} (hrest : cursor.rest = '\\' :: rest)
    (h : readEscape cursor = some (value, next)) : cursor.Reaches next := by
  rw [readEscape, hrest] at h
  cases rest with
  | nil => cases h
  | cons letter rest =>
    simp only [List.getElem?_cons_succ, List.getElem?_cons_zero, Option.bind_eq_bind,
      Option.bind_some] at h
    split at h
    · next count hcount =>
      split at h
      · cases h
      · simp only [Option.bind_eq_some_iff] at h
        obtain ⟨code, hcode, c, -, h⟩ := h
        cases h
        refine Cursor.reaches_skip fun d hd => ?_
        rw [hrest, Nat.add_comm] at hd
        simp only [List.take_succ_cons, List.mem_cons] at hd
        rcases hd with rfl | rfl | hd
        · decide
        · exact isBreak_of_escapeDigits? hcount
        · exact isBreak_of_hexNumber? hcode d hd
    · obtain ⟨c, hc, hnext⟩ := Option.map_eq_some_iff.1 h
      cases hnext
      refine Cursor.reaches_skip fun d hd => ?_
      rw [hrest] at hd
      simp only [List.take_succ_cons, List.take_zero, List.mem_cons, List.not_mem_nil,
        or_false] at hd
      rcases hd with rfl | rfl
      · decide
      · exact isBreak_of_escaped? hc

theorem reaches_of_readQuotedRun {single broken : Bool} {fuel : Nat} {text text' : List Char}
    (h : readQuotedRun single fuel cursor text = some (text', next, broken)) :
    cursor.Reaches next := by
  induction fuel generalizing cursor text with
  | zero => cases h
  | succ fuel ih =>
    rw [readQuotedRun] at h
    split at h
    · cases h
      rfl
    · next c rest hrest =>
      split at h
      · cases h
        rfl
      · next hgap =>
        have hc := isBreak_of_not_isGap hgap
        have hskip := Cursor.reaches_skip_one hrest hc
        split at h
        · split at h
          · split at h
            · next hquote hquotes =>
              -- a quote written twice
              refine Cursor.Reaches.trans (Cursor.reaches_skip fun d hd => ?_) (ih h)
              obtain ⟨more, rfl⟩ := List.head?_eq_some_iff.1 hquotes
              rw [hrest, beq_iff_eq.1 hquote] at hd
              simp only [List.take_succ_cons, List.take_zero, List.mem_cons, List.not_mem_nil,
                or_false, or_self] at hd
              exact hd ▸ by decide
            · cases h
              rfl
          · exact hskip.trans (ih h)
        · split at h
          · cases h
            rfl
          · split at h
            · next hslash =>
              split at h
              · cases h
                exact hskip.trans (Cursor.reaches_skipLine _)
              · simp only [Option.bind_eq_bind, Option.bind_eq_some_iff, Prod.exists] at h
                obtain ⟨value, place, hescape, h⟩ := h
                rw [beq_iff_eq.1 hslash] at hrest
                exact (reaches_of_readEscape hrest hescape).trans (ih h)
            · exact hskip.trans (ih h)

theorem reaches_of_readQuoted {single : Bool} {fuel : Nat} {text text' : List Char}
    (h : readQuoted single fuel cursor text = some (text', next)) : cursor.Reaches next := by
  induction fuel generalizing cursor text with
  | zero => cases h
  | succ fuel ih =>
    rw [readQuoted] at h
    split at h
    · cases h
    · simp only [Option.bind_eq_bind, Option.bind_eq_some_iff, Prod.exists] at h
      obtain ⟨run, behind, broken, hrun, h⟩ := h
      have hbehind := reaches_of_readQuotedRun hrun
      have hquote : isBreak (if single then '\x27' else '\x22') = false := by
        split <;> decide
      generalize (if single then '\x27' else '\x22') = quote at h hquote
      split at h
      · next hclose =>
        cases h
        exact hbehind.trans (Cursor.reaches_skip_of_sees hclose hquote)
      · simp only [Option.bind_eq_some_iff, Prod.exists] at h
        obtain ⟨gap, place, hgap, h⟩ := h
        exact hbehind.trans ((reaches_of_readGap hgap).trans (ih h))

/-! ### Block scalars -/

theorem reaches_of_readBlockBreaks {indent? : Option Nat} {fuel reached reached' : Nat}
    {breaks breaks' : List Char}
    (h : readBlockBreaks indent? fuel cursor breaks reached = some (breaks', next, reached')) :
    cursor.Reaches next := by
  induction fuel generalizing cursor breaks reached with
  | zero =>
    rw [readBlockBreaks] at h
    cases h
    rfl
  | succ fuel ih =>
    unfold readBlockBreaks at h
    extract_lets spaces count place far at h
    have hcount : count ≤ (cursor.run (· == ' ')).length := by
      cases indent? with
      | none => exact Nat.le_refl _
      | some indent => exact Nat.min_le_left _ _
    have hspaces : cursor.Reaches place :=
      Cursor.reaches_skip_run hcount fun c hc =>
        isBreak_eq_false (p := (· == ' ')) hc (by decide)
    split at h
    · cases h
    · split at h
      · exact hspaces.trans ((Cursor.reaches_skipLine _).trans (ih h))
      · simp only [Option.some.injEq, Prod.mk.injEq] at h
        exact h.2.1 ▸ hspaces

theorem reaches_of_readBlockLines {folded leadingBlank : Bool} {indent fuel : Nat}
    {text text' lastBreak lastBreak' breaks breaks' : List Char}
    (h : readBlockLines folded indent fuel cursor text lastBreak breaks leadingBlank =
      some (text', lastBreak', breaks', next)) : cursor.Reaches next := by
  induction fuel generalizing cursor text lastBreak breaks leadingBlank with
  | zero => cases h
  | succ fuel ih =>
    rw [readBlockLines] at h
    split at h
    · simp only [Option.bind_eq_bind, Option.bind_eq_some_iff, Prod.exists] at h
      obtain ⟨more, place, reached, hbreaks, h⟩ := h
      have hline : cursor.Reaches (cursor.skipRun (! isBreak ·)) :=
        Cursor.reaches_skipRun fun c hc => by simpa using hc
      exact hline.trans ((Cursor.reaches_skipLine _).trans
        ((reaches_of_readBlockBreaks hbreaks).trans (ih h)))
    · cases h
      rfl

theorem reaches_of_readBlockHeader {chomping : Chomping} {increment? : Option Nat}
    (h : readBlockHeader cursor = some (chomping, increment?, next)) : cursor.Reaches next := by
  unfold readBlockHeader at h
  extract_lets chomping? digit? at h
  have hsign : ∀ {place : Cursor} {sign : Chomping}, chomping? place = some sign →
      place.Reaches (place.skip 1) := by
    intro place sign hsign
    simp only [chomping?] at hsign
    split at hsign
    · next hsees => exact Cursor.reaches_skip_of_sees hsees (by decide)
    · split at hsign
      · next hsees => exact Cursor.reaches_skip_of_sees hsees (by decide)
      · cases hsign
  have hdigit : ∀ {place : Cursor} {digit : Nat}, digit? place = some digit →
      place.Reaches (place.skip 1) := by
    intro place digit hdigit
    obtain ⟨c, hc, -⟩ := Option.map_eq_some_iff.1 hdigit
    obtain ⟨hhead, hc⟩ := Option.filter_eq_some_iff.1 hc
    obtain ⟨rest, hrest⟩ := List.head?_eq_some_iff.1 hhead
    exact Cursor.reaches_skip_one hrest (isBreak_of_isDigit hc)
  clear_value chomping? digit?
  split at h
  · next hchomping =>
    split at h
    · cases h
    · next hincrement =>
      simp only [Option.some.injEq, Prod.mk.injEq] at h
      exact h.2.2 ▸ (hsign hchomping).trans (hdigit hincrement)
    · simp only [Option.some.injEq, Prod.mk.injEq] at h
      exact h.2.2 ▸ hsign hchomping
  · cases h
  · next hincrement =>
    split at h
    · next hchomping =>
      simp only [Option.some.injEq, Prod.mk.injEq] at h
      exact h.2.2 ▸ (hdigit hincrement).trans (hsign hchomping)
    · simp only [Option.some.injEq, Prod.mk.injEq] at h
      exact h.2.2 ▸ hdigit hincrement
  · cases h
    rfl

theorem reaches_of_readBlock {folded : Bool} {least : Nat} {text : List Char}
    (h : readBlock folded least cursor = some (text, next)) : cursor.Reaches next := by
  unfold readBlock at h
  simp only [Option.bind_eq_bind, Option.bind_eq_some_iff, Prod.exists] at h
  obtain ⟨chomping, increment?, place, hheader, h⟩ := h
  have hplace := (reaches_of_readBlockHeader hheader).trans
    ((Cursor.reaches_skipRun fun c hc => isBreak_of_isSpace hc).trans
      (Cursor.reaches_behindComment _))
  rw [← Cursor.behindComment] at h
  generalize (place.skipRun isSpace).behindComment = lineEnd at h hplace
  split at h
  · cases h
  · simp only [Option.bind_eq_some_iff, Prod.exists] at h
    obtain ⟨breaks, behind, reached, hbreaks, text', lastBreak, breaks', stop, hlines, h⟩ := h
    have hstop := hplace.trans ((Cursor.reaches_skipLine _).trans
      ((reaches_of_readBlockBreaks hbreaks).trans (reaches_of_readBlockLines hlines)))
    split at h <;> · cases h; exact hstop

end Unreferenced.Yaml
