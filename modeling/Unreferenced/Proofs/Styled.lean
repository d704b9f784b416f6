import Mathlib.Data.List.Basic
import Unreferenced.Styled.Signal

/-!
# What a terminal makes of styled text

Lines written in colour are read back as a terminal reads them, one signal at a time. When
no text has the character in it that begins a sequence, the only sequences are those that
were written (`Unreferenced.signals_writeLines`), and everything that a terminal makes of
the lines can be said span by span:

* what is shown is what is written without colours (`Unreferenced.shownText_writeLines`);
* the sequences are an opening, a reset, an opening, a reset, and so on to a last reset
  (`Unreferenced.alternates_writeLines`);
* each character is shown in the style of its span, and in none when the span has none
  (`Unreferenced.paint_writeLines`).

The last says more than that the sequences alternate: a terminal adds up the styles that
are opened, and so it is that at every span nothing is left over from the one before.
-/

namespace Unreferenced

/-! ### Sequences in force -/

/-- Whether a sequence ends all styles: it has no parameter but zero. -/
def resets (parameters : List Char) : Bool :=
  parameters.all (· == '0')

/-- **Openings and resets alternate**, and a reset comes last. -/
inductive Alternates : List (List Char) → Prop
  /-- No sequence at all. -/
  | nil : Alternates []
  /-- An opening and its reset in front of others. -/
  | cons {opening reset : List Char} {rest : List (List Char)} (hopening : resets opening = false)
    (hreset : resets reset = true) (hrest : Alternates rest) :
    Alternates (opening :: reset :: rest)

theorem Alternates.append {sequences more : List (List Char)} (h : Alternates sequences)
    (hmore : Alternates more) : Alternates (sequences ++ more) := by
  induction h with
  | nil => exact hmore
  | cons hopening hreset _ ih => exact .cons hopening hreset ih

/-- The characters that are shown, each with the sequences in force: those since the last
reset. -/
def paint : List (List Char) → List Signal → List (Char × List (List Char))
  | _, [] => []
  | active, .shown c :: rest => (c, active) :: paint active rest
  | active, .sequence parameters :: rest =>
    paint (if resets parameters then [] else active ++ [parameters]) rest

/-! ### The signals of a text -/

namespace Signal

/-- Characters that are passed over. -/
theorem after_length (cs rest : List Char) : after cs.length (cs ++ rest) = after 0 rest := by
  induction cs with
  | nil => rfl
  | cons c cs ih =>
    rw [List.length_cons, List.cons_append, after]
    exact ih

theorem parametersAt?_cons {c : Char} (h : c ≠ '\x1b') (rest : List Char) :
    parametersAt? (c :: rest) = none := by
  unfold parametersAt?
  split
  · next heq =>
    rw [List.cons.injEq] at heq
    exact absurd heq.1 h
  · rfl

/-- Where no sequence begins, every character is shown. -/
theorem after_append {cs : List Char} (h : '\x1b' ∉ cs) (rest : List Char) :
    after 0 (cs ++ rest) = cs.map .shown ++ after 0 rest := by
  induction cs with
  | nil => rfl
  | cons c cs ih =>
    simp only [List.mem_cons, not_or] at h
    rw [List.cons_append, after, parametersAt?_cons (Ne.symm h.1), List.map_cons, List.cons_append,
      ih h.2]

/-- A sequence is read as a whole. -/
theorem after_sequence {parameters : List Char} (h : ∀ c ∈ parameters, isParameter c = true)
    (rest : List Char) :
    after 0 ('\x1b' :: '[' :: parameters ++ 'm' :: rest) =
      .sequence parameters :: after 0 rest := by
  have hend : ¬isParameter 'm' = true := by decide
  have hread : parametersAt? ('\x1b' :: '[' :: (parameters ++ 'm' :: rest)) = some parameters := by
    rw [parametersAt?, List.dropWhile_append_of_pos h, List.takeWhile_append_of_pos h,
      List.dropWhile_cons_of_neg hend, List.takeWhile_cons_of_neg hend]
    simp
  -- behind the character that begins it, a sequence has a bracket, its parameters and an `m`
  have hskip := after_length ('[' :: parameters ++ ['m']) rest
  simp only [List.length_append, List.length_cons, List.length_nil, List.append_assoc,
    List.cons_append, List.nil_append] at hskip
  rw [List.cons_append, List.cons_append, after, hread]
  exact congrArg (Signal.sequence parameters :: ·) hskip

end Signal

theorem isParameter_of_mem_parameters (style : Style) :
    ∀ c ∈ style.parameters, Signal.isParameter c = true := by
  refine List.all_eq_true.1 ?_
  cases style <;> decide

theorem resets_parameters (style : Style) : resets style.parameters = false := by
  cases style <;> decide

/-- A text without a reset is not changed by the rule for resets inside a span. -/
theorem reopen_eq {opening cs : List Char} (h : '\x1b' ∉ cs) : reopen opening cs = cs := by
  fun_induction reopen opening cs with
  | case1 rest _ => exact absurd List.mem_cons_self h
  | case2 c rest _ ih => rw [ih (List.not_mem_of_not_mem_cons h)]
  | case3 => rfl

/-! ### Spans -/

/-- The signals of a span: its characters, in a style between the opening and the reset. -/
def Span.signals (span : Span) : List Signal :=
  match span.style? with
  | some style =>
    .sequence style.parameters :: span.text.toList.map .shown ++ [.sequence ['0']]
  | none => span.text.toList.map .shown

/-- The characters of a span, each with the opening of its style, if it has one. -/
def Span.painted (span : Span) : List (Char × List (List Char)) :=
  span.text.toList.map fun c => (c, span.style?.toList.map Style.parameters)

namespace Span

variable {span : Span}

/-- **A span is read as it was written.** -/
theorem after_write (h : '\x1b' ∉ span.text.toList) (rest : List Char) :
    Signal.after 0 (span.write true ++ rest) = span.signals ++ Signal.after 0 rest := by
  obtain ⟨style?, text⟩ := span
  cases style? with
  | none => exact Signal.after_append h rest
  | some style =>
    have hopening := Signal.after_sequence (isParameter_of_mem_parameters style)
      (text.toList ++ (styleReset ++ rest))
    have hreset : Signal.after 0 (styleReset ++ rest) = .sequence ['0'] :: Signal.after 0 rest :=
      Signal.after_sequence (List.forall_mem_singleton.2 (by decide)) rest
    simp only [write, signals, Style.opening, reopen_eq h, List.append_assoc, List.cons_append,
      List.nil_append] at hopening ⊢
    rw [hopening, Signal.after_append h, hreset]

theorem filterMap_char?_signals : span.signals.filterMap Signal.char? = span.text.toList := by
  have hshown : (span.text.toList.map Signal.shown).filterMap Signal.char? = span.text.toList := by
    rw [List.filterMap_map]
    exact List.filterMap_some
  rw [signals]
  split
  · rw [List.cons_append, List.filterMap_cons, List.filterMap_append, hshown]
    exact List.append_nil _
  · exact hshown

theorem alternates_signals : Alternates (span.signals.filterMap Signal.parameters?) := by
  have hshown : (span.text.toList.map Signal.shown).filterMap Signal.parameters? = [] := by
    rw [List.filterMap_map, List.filterMap_eq_nil_iff]
    exact fun _ _ => rfl
  rw [signals]
  split
  · next style _ =>
    rw [List.cons_append, List.filterMap_cons, List.filterMap_append, hshown]
    exact .cons (resets_parameters style) rfl .nil
  · rw [hshown]
    exact .nil

end Span

theorem paint_append (active : List (List Char)) (cs : List Char) (rest : List Signal) :
    paint active (cs.map .shown ++ rest) = cs.map (·, active) ++ paint active rest := by
  induction cs with
  | nil => rfl
  | cons c cs ih =>
    rw [List.map_cons, List.cons_append, paint, ih]
    rfl

/-- **A span leaves no style behind**: with none in force it is shown in its own, and none is
in force behind it. -/
theorem Span.paint_signals (span : Span) (rest : List Signal) :
    paint [] (span.signals ++ rest) = span.painted ++ paint [] rest := by
  obtain ⟨style?, text⟩ := span
  cases style? with
  | none => exact paint_append [] text.toList rest
  | some style =>
    simp only [signals, painted, List.cons_append, List.append_assoc, paint, resets_parameters,
      paint_append]
    rfl

/-! ### Lines -/

/-- The spans of some lines, with a line break in no style behind each line. -/
def spansOf (lines : List StyledLine) : List Span :=
  lines.flatMap (· ++ [unstyled "\n"])

theorem toList_writeLines (coloured : Bool) (lines : List StyledLine) :
    (writeLines coloured lines).toList = (spansOf lines).flatMap (Span.write coloured) := by
  have hbreak : Span.write coloured (unstyled "\n") = ['\n'] := by
    cases coloured <;> rfl
  rw [writeLines, String.toList_ofList, spansOf, List.flatMap_assoc]
  refine List.flatMap_congr fun line _ => ?_
  rw [StyledLine.write, List.flatMap_append, List.flatMap_singleton, hbreak]

theorem forall_mem_spansOf {p : Span → Prop} {lines : List StyledLine}
    (h : ∀ line ∈ lines, ∀ span ∈ line, p span) (hbreak : p (unstyled "\n")) :
    ∀ span ∈ spansOf lines, p span := by
  simp only [spansOf, List.forall_mem_flatMap, List.forall_mem_append, List.forall_mem_singleton]
  exact fun line hline => ⟨h line hline, hbreak⟩

section Lines

variable {lines : List StyledLine}

theorem toList_writeLines_false :
    (writeLines false lines).toList = (spansOf lines).flatMap (·.text.toList) :=
  toList_writeLines false lines

variable (h : ∀ line ∈ lines, ∀ span ∈ line, '\x1b' ∉ span.text.toList)

include h

/-- **The signals of lines in colour** are those of their spans. -/
theorem signals_writeLines :
    signals (writeLines true lines).toList = (spansOf lines).flatMap Span.signals := by
  have hspans := forall_mem_spansOf h (by decide : '\x1b' ∉ (unstyled "\n").text.toList)
  rw [toList_writeLines, Unreferenced.signals]
  generalize spansOf lines = spans at hspans
  induction spans with
  | nil => rfl
  | cons span more ih =>
    obtain ⟨hspan, hmore⟩ := List.forall_mem_cons.1 hspans
    rw [List.flatMap_cons, Span.after_write hspan, ih hmore, List.flatMap_cons]

/-- **What is shown is what is written without colours.** -/
theorem shownText_writeLines :
    shownText (writeLines true lines).toList = (writeLines false lines).toList := by
  rw [shownText, signals_writeLines h, List.filterMap_flatMap, toList_writeLines_false]
  exact List.flatMap_congr fun span _ => span.filterMap_char?_signals

/-- **Openings and resets alternate.** -/
theorem alternates_writeLines : Alternates (sequencesIn (writeLines true lines).toList) := by
  rw [sequencesIn, signals_writeLines h, List.filterMap_flatMap]
  generalize spansOf lines = spans
  induction spans with
  | nil => exact .nil
  | cons span more ih => exact span.alternates_signals.append ih

/-- **Every character is shown in the style of its span**, and in none outside of them. -/
theorem paint_writeLines :
    paint [] (signals (writeLines true lines).toList) = (spansOf lines).flatMap Span.painted := by
  rw [signals_writeLines h]
  generalize spansOf lines = spans
  induction spans with
  | nil => rfl
  | cons span more ih => rw [List.flatMap_cons, span.paint_signals, ih, List.flatMap_cons]

/-- Nothing written without colours begins a sequence. -/
theorem not_mem_writeLines : '\x1b' ∉ (writeLines false lines).toList := by
  have hspans := forall_mem_spansOf h (by decide : '\x1b' ∉ (unstyled "\n").text.toList)
  rw [toList_writeLines_false, List.mem_flatMap]
  rintro ⟨span, hspan, hmem⟩
  exact hspans span hspan hmem

end Lines

end Unreferenced
