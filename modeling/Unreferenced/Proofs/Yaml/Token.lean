import Mathlib.Data.List.Basic
import Unreferenced.Proofs.Yaml.Cursor
import Unreferenced.Yaml.Token

/-!
# What a step of the lexer can do

`Lexer.takeToken` tries one kind of token after the other. `Lexer.Takes` has one constructor for
each kind, with what is known when it is tried, and every step is one of them
(`Lexer.takes_of_takeToken`), so that what a step keeps is proved by cases on it. In front of it
stand the readers of names, tags and directives, each of which reaches the position that it
answers with.
-/

namespace Unreferenced.Yaml

namespace Lexer

variable {cursor next : Cursor} {token : Token}

/-! ### Names, tags and directives -/

theorem reaches_of_readWord {word : List Char} (h : readWord cursor = some (word, next)) :
    cursor.Reaches next := by
  unfold readWord at h
  extract_lets run at h
  split at h
  · cases h
  · simp only [Option.some.injEq, Prod.mk.injEq] at h
    exact h.2 ▸ Cursor.reaches_skip_run (Nat.le_refl _) fun c hc => isBreak_of_isWordChar hc

theorem reaches_of_readAnchor {name : String} (h : readAnchor cursor = some (name, next)) :
    cursor.Reaches next := by
  unfold readAnchor at h
  simp only [Option.bind_eq_bind, Option.bind_eq_some_iff, Prod.exists] at h
  obtain ⟨word, place, hword, h⟩ := h
  split at h
  · cases h
    exact reaches_of_readWord hword
  · cases h

theorem reaches_of_readOctet {octet : Nat} (h : readOctet cursor = some (octet, next)) :
    cursor.Reaches next := by
  rw [readOctet] at h
  split at h
  · next high low rest hrest =>
    simp only [Option.bind_eq_bind, Option.bind_eq_some_iff] at h
    obtain ⟨value, hvalue, h⟩ := h
    cases h
    have hdigits := isBreak_of_hexNumber? hvalue
    refine Cursor.reaches_skip fun c hc => ?_
    rw [hrest] at hc
    simp only [List.take_succ_cons, List.take_zero, List.mem_cons (b := '%')] at hc
    rcases hc with rfl | hc
    · decide
    · exact hdigits c hc
  · cases h

theorem reaches_of_readMoreOctets {count code code' : Nat}
    (h : readMoreOctets count code cursor = some (code', next)) : cursor.Reaches next := by
  induction count generalizing code cursor with
  | zero =>
    cases h
    rfl
  | succ count ih =>
    simp only [readMoreOctets, Option.bind_eq_bind, Option.bind_eq_some_iff, Prod.exists] at h
    obtain ⟨octet, place, hoctet, h⟩ := h
    split at h
    · exact (reaches_of_readOctet hoctet).trans (ih h)
    · cases h

theorem reaches_of_readOctets {c : Char} (h : readOctets cursor = some (c, next)) :
    cursor.Reaches next := by
  unfold readOctets at h
  simp only [Option.bind_eq_bind, Option.bind_eq_some_iff, Prod.exists] at h
  obtain ⟨first, place, hfirst, count, -, code, behind, hmore, h⟩ := h
  cases h
  exact (reaches_of_readOctet hfirst).trans (reaches_of_readMoreOctets hmore)

theorem isBreak_of_isTagChar {verbatim : Bool} {c : Char} (h : isTagChar verbatim c = true) :
    isBreak c = false := by
  cases verbatim <;> exact isBreak_eq_false h (by decide)

theorem reaches_of_readTagChars {verbatim : Bool} {fuel : Nat} {text text' : List Char}
    (h : readTagChars verbatim fuel cursor text = some (text', next)) : cursor.Reaches next := by
  induction fuel generalizing cursor text with
  | zero =>
    cases h
    rfl
  | succ fuel ih =>
    rw [readTagChars] at h
    split at h
    · cases h
      rfl
    · next c rest hrest =>
      split at h
      · simp only [Option.bind_eq_bind, Option.bind_eq_some_iff, Prod.exists] at h
        obtain ⟨value, place, hoctets, h⟩ := h
        exact (reaches_of_readOctets hoctets).trans (ih h)
      · split at h
        · next hc =>
          exact (Cursor.reaches_skip_one hrest (isBreak_of_isTagChar hc)).trans (ih h)
        · cases h
          rfl

theorem reaches_of_readTagSuffix {verbatim mayBeEmpty : Bool} {text : List Char}
    (h : readTagSuffix verbatim mayBeEmpty cursor = some (text, next)) :
    cursor.Reaches next := by
  unfold readTagSuffix at h
  simp only [Option.bind_eq_bind, Option.bind_eq_some_iff, Prod.exists] at h
  obtain ⟨chars, place, hchars, h⟩ := h
  split at h
  · cases h
  · cases h
    exact reaches_of_readTagChars hchars

theorem reaches_of_readTagHandle {directive : Bool} {handle : List Char}
    (h : readTagHandle directive cursor = some (handle, next)) : cursor.Reaches next := by
  unfold readTagHandle at h
  split at h
  · next hsees =>
    extract_lets word behind at h
    have hbehind : cursor.Reaches behind := by
      have hword : (cursor.skip 1).Reaches ((cursor.skip 1).skip word.length) :=
        Cursor.reaches_skip_run (Nat.le_refl _) fun c hc => isBreak_of_isWordChar hc
      have hskip : (cursor.skip 1).skip word.length = behind := by
        simp only [behind, Cursor.skip, List.drop_drop, Nat.add_assoc]
      exact hskip ▸ (Cursor.reaches_skip_of_sees hsees (by decide)).trans hword
    clear_value word behind
    split at h
    · next hmark =>
      cases h
      exact hbehind.trans (Cursor.reaches_skip_of_sees hmark (by decide))
    · split at h
      · cases h
      · cases h
        exact hbehind
  · cases h

theorem reaches_of_readTag (hsees : cursor.sees '!' = true)
    (h : readTag cursor = some (token, next)) : cursor.Reaches next := by
  unfold readTag at h
  split at h
  · next hbracket =>
    have hskip : cursor.Reaches (cursor.skip 2) := by
      obtain ⟨rest, hrest⟩ := Cursor.sees_iff.1 hsees
      refine Cursor.reaches_skip fun c hc => ?_
      rw [Cursor.seesAt, hrest] at hbracket
      rw [hrest] at hc
      cases rest with
      | nil => cases hbracket
      | cons d rest =>
        simp only [List.getElem?_cons_succ, List.getElem?_cons_zero, Option.any_some,
          beq_iff_eq] at hbracket
        simp only [hbracket, List.take_succ_cons, List.take_zero, List.mem_cons,
          List.not_mem_nil, or_false] at hc
        rcases hc with rfl | rfl <;> decide
    simp only [Option.bind_eq_bind, Option.bind_eq_some_iff, Prod.exists] at h
    obtain ⟨suffix, place, hsuffix, h⟩ := h
    split at h
    · next hclose =>
      cases h
      exact hskip.trans ((reaches_of_readTagSuffix hsuffix).trans
        (Cursor.reaches_skip_of_sees hclose (by decide)))
    · cases h
  · simp only [Option.bind_eq_bind, Option.bind_eq_some_iff, Prod.exists] at h
    obtain ⟨handle, place, hhandle, h⟩ := h
    have hplace := reaches_of_readTagHandle hhandle
    split at h
    · simp only [Option.bind_eq_some_iff, Prod.exists] at h
      obtain ⟨suffix, behind, hsuffix, h⟩ := h
      cases h
      exact hplace.trans (reaches_of_readTagSuffix hsuffix)
    · simp only [Option.bind_eq_some_iff, Prod.exists] at h
      obtain ⟨more, behind, hmore, h⟩ := h
      have hbehind := hplace.trans (reaches_of_readTagSuffix hmore)
      split at h <;> · cases h; exact hbehind

theorem reaches_of_readVersionPart {value : Nat}
    (h : readVersionPart cursor = some (value, next)) : cursor.Reaches next := by
  unfold readVersionPart at h
  extract_lets digits at h
  split at h
  · cases h
  · simp only [Option.some.injEq, Prod.mk.injEq] at h
    exact h.2 ▸ Cursor.reaches_skip_run (Nat.le_refl _) fun c hc => isBreak_of_isDigit hc

theorem reaches_skipRun_isSpace (cursor : Cursor) : cursor.Reaches (cursor.skipRun isSpace) :=
  Cursor.reaches_skipRun fun _ hc => isBreak_of_isSpace hc

theorem reaches_of_readDirectiveValue {name : String}
    (h : readDirectiveValue name cursor = some (token, next)) : cursor.Reaches next := by
  unfold readDirectiveValue at h
  refine (reaches_skipRun_isSpace cursor).trans ?_
  generalize cursor.skipRun isSpace = cursor at h
  split at h
  · simp only [Option.bind_eq_bind, Option.bind_eq_some_iff, Prod.exists] at h
    obtain ⟨major, place, hmajor, h⟩ := h
    split at h
    · next hpoint =>
      simp only [Option.bind_eq_some_iff, Prod.exists] at h
      obtain ⟨minor, behind, hminor, h⟩ := h
      cases h
      exact (reaches_of_readVersionPart hmajor).trans
        ((Cursor.reaches_skip_of_sees hpoint (by decide)).trans
          (reaches_of_readVersionPart hminor))
    · cases h
  · split at h
    · simp only [Option.bind_eq_bind, Option.bind_eq_some_iff, Prod.exists] at h
      obtain ⟨handle, place, hhandle, h⟩ := h
      split at h
      · simp only [Option.bind_eq_some_iff, Prod.exists] at h
        obtain ⟨expansion, behind, hexpansion, h⟩ := h
        split at h
        · cases h
          exact (reaches_of_readTagHandle hhandle).trans
            ((reaches_skipRun_isSpace _).trans (reaches_of_readTagSuffix hexpansion))
        · cases h
      · cases h
    · cases h

theorem reaches_of_readDirective (hsees : cursor.sees '%' = true)
    (h : readDirective cursor = some (token, next)) : cursor.Reaches next := by
  unfold readDirective at h
  simp only [Option.bind_eq_bind, Option.bind_eq_some_iff, Prod.exists] at h
  obtain ⟨name, place, hname, h⟩ := h
  split at h
  · simp only [Option.bind_eq_some_iff, Prod.exists] at h
    obtain ⟨token, behind, hvalue, h⟩ := h
    have hbehind := (Cursor.reaches_skip_of_sees hsees (by decide)).trans
      ((reaches_of_readWord hname).trans ((reaches_of_readDirectiveValue hvalue).trans
        ((reaches_skipRun_isSpace _).trans (Cursor.reaches_behindComment _))))
    rw [← Cursor.behindComment] at h
    generalize (behind.skipRun isSpace).behindComment = lineEnd at h hbehind
    split at h
    · cases h
      exact hbehind.trans (Cursor.reaches_skipLine _)
    · cases h
  · cases h

/-! ### Readers of whole tokens -/

theorem reaches_of_readQuotedToken {style : ScalarStyle} {quote : Char}
    (hsees : cursor.sees quote = true) (hquote : isBreak quote = false)
    (h : readQuotedToken style cursor = some (token, next)) : cursor.Reaches next := by
  rw [readQuotedToken, Option.map_eq_some_iff] at h
  obtain ⟨⟨text, place⟩, hread, h⟩ := h
  cases h
  exact (Cursor.reaches_skip_of_sees hsees hquote).trans (reaches_of_readQuoted hread)

theorem reaches_of_readTagToken {inFlow : Bool} (hsees : cursor.sees '!' = true)
    (h : readTagToken inFlow cursor = some (token, next)) : cursor.Reaches next := by
  unfold readTagToken at h
  simp only [Option.bind_eq_bind, Option.bind_eq_some_iff, Prod.exists] at h
  obtain ⟨tag, place, htag, h⟩ := h
  split at h
  · cases h
    exact reaches_of_readTag hsees htag
  · cases h

/-! ### What a step can do -/

/-- The ways to take the token that starts with a character. -/
inductive Takes (lexer : Lexer) : Char → Lexer → Prop where
  /-- A directive at the margin. -/
  | directive {closed : Lexer} {token : Token} {cursor : Cursor}
      (hcolumn : lexer.cursor.column = 0) (hclosed : lexer.atMargin = some closed)
      (hread : readDirective closed.cursor = some (token, cursor)) :
      Takes lexer '%' ({ closed with cursor }.emit token)
  /-- A mark in front of a document or behind one. -/
  | documentMark {c : Char} {closed : Lexer} (hmark : lexer.cursor.atDocumentMark = true)
      (hclosed : lexer.atMargin = some closed) :
      Takes lexer c ((closed.skip 3).emit (if c == '-' then .documentStart else .documentEnd))
  /-- An opening bracket. -/
  | openSequence {lexer' : Lexer} (htake : lexer.openFlow .flowSequence = some lexer') :
      Takes lexer '[' lexer'
  /-- An opening brace. -/
  | openMapping {lexer' : Lexer} (htake : lexer.openFlow .flowMapping = some lexer') :
      Takes lexer '{' lexer'
  /-- A closing bracket. -/
  | closeSequence {lexer' : Lexer} (htake : lexer.closeFlow .flowSequenceEnd = some lexer') :
      Takes lexer ']' lexer'
  /-- A closing brace. -/
  | closeMapping {lexer' : Lexer} (htake : lexer.closeFlow .flowMappingEnd = some lexer') :
      Takes lexer '}' lexer'
  /-- A comma. -/
  | flowEntry {lexer' : Lexer} (htake : lexer.takeFlowEntry = some lexer') :
      Takes lexer ',' lexer'
  /-- The dash of a list item. -/
  | blockEntry {lexer' : Lexer} (hends : lexer.cursor.endsAt 1 = true)
      (htake : lexer.takeBlockEntry = some lexer') : Takes lexer '-' lexer'
  /-- The indicator of a key. -/
  | key {lexer' : Lexer} (hindicates : (lexer.inFlow || lexer.cursor.endsAt 1) = true)
      (htake : lexer.takeKey = some lexer') : Takes lexer '?' lexer'
  /-- The colon in front of a value. -/
  | value {lexer' : Lexer} (hindicates : (lexer.inFlow || lexer.cursor.endsAt 1) = true)
      (htake : lexer.takeValue = some lexer') : Takes lexer ':' lexer'
  /-- A reference to an anchor. -/
  | reference {lexer' : Lexer} (htake : (lexer.takeWith fun cursor =>
      (readAnchor (cursor.skip 1)).map fun (name, next) => (.alias name, next)) = some lexer') :
      Takes lexer '*' lexer'
  /-- An anchor. -/
  | anchor {lexer' : Lexer} (htake : (lexer.takeWith fun cursor =>
      (readAnchor (cursor.skip 1)).map fun (name, next) => (.anchor name, next)) = some lexer') :
      Takes lexer '&' lexer'
  /-- A tag. -/
  | tag {lexer' : Lexer} (htake : lexer.takeWith (readTagToken lexer.inFlow) = some lexer') :
      Takes lexer '!' lexer'
  /-- A block whose line breaks count. -/
  | literal {lexer' : Lexer} (hflow : lexer.inFlow = false)
      (htake : lexer.takeBlock .literal = some lexer') : Takes lexer '|' lexer'
  /-- A block whose line breaks fold. -/
  | folded {lexer' : Lexer} (hflow : lexer.inFlow = false)
      (htake : lexer.takeBlock .folded = some lexer') : Takes lexer '>' lexer'
  /-- A scalar between single quotes. -/
  | singleQuoted {lexer' : Lexer}
      (htake : lexer.takeWith (readQuotedToken .singleQuoted) = some lexer') :
      Takes lexer '\x27' lexer'
  /-- A scalar between double quotes. -/
  | doubleQuoted {lexer' : Lexer}
      (htake : lexer.takeWith (readQuotedToken .doubleQuoted) = some lexer') :
      Takes lexer '\x22' lexer'
  /-- A scalar without quotes. -/
  | plain {c : Char} {lexer' : Lexer} (hmark : lexer.cursor.atDocumentMark = false)
      (hplain : lexer.startsPlain c = true) (htake : lexer.takePlain = some lexer') :
      Takes lexer c lexer'

/-- **A token is taken in one of these ways.** -/
theorem takes_of_takeToken {lexer lexer' : Lexer} {c : Char}
    (htake : lexer.takeToken c = some lexer') : Takes lexer c lexer' := by
  unfold Lexer.takeToken at htake
  dsimp only at htake
  obtain ⟨hc, htake⟩ | ⟨-, htake⟩ := ite_eq_iff.1 htake
  · obtain ⟨hcolumn, hc⟩ := Bool.and_eq_true_iff.1 hc
    simp only [Option.bind_eq_bind, Option.bind_eq_some_iff, Prod.exists] at htake
    obtain ⟨closed, hclosed, token, next, hread, htake⟩ := htake
    cases htake
    rw [beq_iff_eq.1 hc]
    exact .directive (beq_iff_eq.1 hcolumn) hclosed hread
  obtain ⟨hmark, htake⟩ | ⟨hmark, htake⟩ := ite_eq_iff.1 htake
  · simp only [Option.bind_eq_bind, Option.bind_eq_some_iff] at htake
    obtain ⟨closed, hclosed, htake⟩ := htake
    cases htake
    exact .documentMark hmark hclosed
  obtain ⟨hc, htake⟩ | ⟨-, htake⟩ := ite_eq_iff.1 htake
  · exact beq_iff_eq.1 hc ▸ .openSequence htake
  obtain ⟨hc, htake⟩ | ⟨-, htake⟩ := ite_eq_iff.1 htake
  · exact beq_iff_eq.1 hc ▸ .openMapping htake
  obtain ⟨hc, htake⟩ | ⟨-, htake⟩ := ite_eq_iff.1 htake
  · exact beq_iff_eq.1 hc ▸ .closeSequence htake
  obtain ⟨hc, htake⟩ | ⟨-, htake⟩ := ite_eq_iff.1 htake
  · exact beq_iff_eq.1 hc ▸ .closeMapping htake
  obtain ⟨hc, htake⟩ | ⟨-, htake⟩ := ite_eq_iff.1 htake
  · exact beq_iff_eq.1 hc ▸ .flowEntry htake
  obtain ⟨hc, htake⟩ | ⟨-, htake⟩ := ite_eq_iff.1 htake
  · obtain ⟨hc, hends⟩ := Bool.and_eq_true_iff.1 hc
    exact beq_iff_eq.1 hc ▸ .blockEntry hends htake
  obtain ⟨hc, htake⟩ | ⟨-, htake⟩ := ite_eq_iff.1 htake
  · obtain ⟨hc, hindicates⟩ := Bool.and_eq_true_iff.1 hc
    exact beq_iff_eq.1 hc ▸ .key hindicates htake
  obtain ⟨hc, htake⟩ | ⟨-, htake⟩ := ite_eq_iff.1 htake
  · obtain ⟨hc, hindicates⟩ := Bool.and_eq_true_iff.1 hc
    exact beq_iff_eq.1 hc ▸ .value hindicates htake
  obtain ⟨hc, htake⟩ | ⟨-, htake⟩ := ite_eq_iff.1 htake
  · exact beq_iff_eq.1 hc ▸ .reference htake
  obtain ⟨hc, htake⟩ | ⟨-, htake⟩ := ite_eq_iff.1 htake
  · exact beq_iff_eq.1 hc ▸ .anchor htake
  obtain ⟨hc, htake⟩ | ⟨-, htake⟩ := ite_eq_iff.1 htake
  · exact beq_iff_eq.1 hc ▸ .tag htake
  obtain ⟨hc, htake⟩ | ⟨-, htake⟩ := ite_eq_iff.1 htake
  · obtain ⟨hc, hflow⟩ := Bool.and_eq_true_iff.1 hc
    exact beq_iff_eq.1 hc ▸ .literal (by simpa using hflow) htake
  obtain ⟨hc, htake⟩ | ⟨-, htake⟩ := ite_eq_iff.1 htake
  · obtain ⟨hc, hflow⟩ := Bool.and_eq_true_iff.1 hc
    exact beq_iff_eq.1 hc ▸ .folded (by simpa using hflow) htake
  obtain ⟨hc, htake⟩ | ⟨-, htake⟩ := ite_eq_iff.1 htake
  · exact beq_iff_eq.1 hc ▸ .singleQuoted htake
  obtain ⟨hc, htake⟩ | ⟨-, htake⟩ := ite_eq_iff.1 htake
  · exact beq_iff_eq.1 hc ▸ .doubleQuoted htake
  obtain ⟨hplain, htake⟩ | ⟨-, htake⟩ := ite_eq_iff.1 htake
  · exact .plain (Bool.eq_false_iff.2 hmark) hplain htake
  · cases htake

end Lexer

end Unreferenced.Yaml
