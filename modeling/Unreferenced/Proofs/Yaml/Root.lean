import Unreferenced.Proofs.Yaml.Content
import Unreferenced.Proofs.Yaml.Lead
import Unreferenced.Settings.Reading

/-!
# YAML texts whose root is no mapping

The first token decides what the root of a document is, once it is known to stay the first. A
lexer that has no open blocks and no possible keys is *fresh*, at the start of a text as well as
behind the mark in front of a document. From there it goes to the content, and when that starts
a list or a scalar on a line without a colon that makes a key, the token taken there is put in
front for good. A document like that has no keys, so that no settings are read from it.
-/

namespace Unreferenced.Yaml

/-! ### What the first characters tell -/

/-- Whether the characters start with a mark around documents. -/
def hasMark (cs : List Char) : Bool :=
  (['-', '-', '-'].isPrefixOf cs || ['.', '.', '.'].isPrefixOf cs) && (cs[3]?).all isGap

/-- Whether a list or a scalar starts with the character, wherever it is no mark. -/
def isNodeStart (c : Char) : Bool :=
  isWordChar c || ['[', '\x22', '\x27', '=', '.'].contains c

/-- A list or a scalar starts with the characters. -/
structure StartsNode (cs : List Char) : Prop where
  /-- The first character starts a list or a scalar. -/
  head : cs.head?.any isNodeStart = true
  /-- The characters start with no mark around documents. -/
  mark : hasMark cs = false

/-- A list or a scalar starts with the characters, or behind three dashes on their line, which
may be the mark in front of a document. -/
def StartsRoot (cs : List Char) : Prop :=
  StartsNode cs ∨ ∃ rest, cs = '-' :: '-' :: '-' :: rest ∧ StartsNode (rest.dropWhile isSpace)

/-- Whether the token is the start of a list, or a scalar that is not blank. -/
def Token.startsListOrText : Token → Bool
  | .flowSequence => true
  | .blockSequence => true
  | .scalar style text => style != .plain || text != ""
  | _ => false

/-- A mark that does not start with a point is three dashes. -/
theorem exists_dashes_of_hasMark {cs : List Char} (h : hasMark cs = true)
    (hpoint : cs.head? ≠ some '.') :
    ∃ rest, cs = '-' :: '-' :: '-' :: rest ∧ rest.head?.all isGap = true := by
  simp only [hasMark, Bool.and_eq_true, Bool.or_eq_true, List.isPrefixOf_iff_prefix] at h
  obtain ⟨⟨rest, rfl⟩ | ⟨rest, rfl⟩, hends⟩ := h
  · refine ⟨rest, rfl, ?_⟩
    rw [List.head?_eq_getElem?]
    exact hends
  · exact absurd rfl hpoint

theorem hasMark_cons_of_ne {c : Char} {rest : List Char} (hdash : c ≠ '-') (hpoint : c ≠ '.') :
    hasMark (c :: rest) = false := by
  rw [Bool.eq_false_iff]
  intro h
  obtain ⟨more, hdashes, -⟩ := exists_dashes_of_hasMark h (by simpa using hpoint)
  cases hdashes
  exact hdash rfl

theorem atDocumentMark_eq (cursor : Cursor) :
    cursor.atDocumentMark = (cursor.column == 0 && hasMark cursor.rest) := by
  rw [Cursor.atDocumentMark, hasMark, Cursor.endsAt, Bool.and_assoc]

theorem isGap_of_isNodeStart {c : Char} (h : isNodeStart c = true) : isGap c = false := by
  rw [isGap, isBreak_eq_false h (by decide), Bool.or_false, isSpace, Bool.or_eq_false_iff]
  constructor <;>
  · rw [beq_eq_false_iff_ne]
    rintro rfl
    cases h

theorem contentFrom_of_startsNode {cs : List Char} (h : StartsNode cs) :
    contentFrom false cs = cs := by
  cases cs with
  | nil => cases h.head
  | cons c rest =>
    have hc : isNodeStart c = true := h.head
    refine contentFrom_of_not (isBreak_eq_false hc (by decide)) ?_ ?_
    · exact (Bool.or_eq_false_iff.1 (isGap_of_isNodeStart hc)).1
    · rintro rfl
      exact absurd hc (by decide)

theorem contentFrom_of_startsRoot {cs : List Char} (h : StartsRoot cs) :
    contentFrom false cs = cs := by
  obtain h | ⟨rest, rfl, -⟩ := h
  · exact contentFrom_of_startsNode h
  · exact contentFrom_of_not (by decide) (by decide) (by decide)

/-! ### Plain scalars are not empty -/

theorem length_le_of_readPlainRun {inFlow : Bool} {fuel : Nat} {cursor next : Cursor}
    {text text' : List Char} (h : readPlainRun inFlow fuel cursor text = some (text', next)) :
    text.length ≤ text'.length := by
  induction fuel generalizing cursor text with
  | zero =>
    rw [readPlainRun] at h
    cases h
    exact Nat.le_refl _
  | succ fuel ih =>
    rw [readPlainRun] at h
    split at h
    · cases h
      exact Nat.le_refl _
    · split at h
      · cases h
        exact Nat.le_refl _
      · split at h
        · cases h
        · split at h
          · cases h
            exact Nat.le_refl _
          · have hmore := ih h
            rw [List.length_append] at hmore
            exact Nat.le_of_add_right_le hmore

theorem length_le_of_readPlain {inFlow broken : Bool} {indent fuel : Nat} {cursor next : Cursor}
    {text text' : List Char} {gap : Gap}
    (h : readPlain inFlow indent fuel cursor text gap = some (text', next, broken)) :
    text.length ≤ text'.length := by
  induction fuel generalizing cursor text gap with
  | zero => cases h
  | succ fuel ih =>
    rw [readPlain] at h
    split at h
    · cases h
      exact Nat.le_refl _
    · simp only [Option.bind_eq_bind, Option.bind_eq_some_iff, Prod.exists] at h
      obtain ⟨run, behind, -, h⟩ := h
      have hlonger : text.length ≤
          (if run.isEmpty then (text, gap) else (text ++ gap.fold ++ run, {})).1.length := by
        split
        · exact Nat.le_refl _
        · simp only [List.length_append]
          omega
      refine Nat.le_trans hlonger ?_
      split at h
      · simp only [Option.bind_eq_some_iff, Prod.exists] at h
        obtain ⟨gap', place, -, h⟩ := h
        split at h
        · cases h
          exact Nat.le_refl _
        · exact ih h
      · cases h
        exact Nat.le_refl _

/-- Outside of flow collections a scalar is not empty when its first character belongs to it. -/
theorem ne_nil_of_readPlain {broken : Bool} {indent fuel : Nat} {cursor next : Cursor}
    {text : List Char} {c : Char} {rest : List Char} (hrest : cursor.rest = c :: rest)
    (hmark : cursor.atDocumentMark = false) (hgap : isGap c = false) (hhash : c ≠ '#')
    (hcolon : c ≠ ':')
    (h : readPlain false indent fuel cursor [] {} = some (text, next, broken)) : text ≠ [] := by
  cases fuel with
  | zero => cases h
  | succ fuel =>
    have hsees : cursor.sees '#' = false := by simpa [Cursor.sees, hrest] using hhash
    rw [readPlain, if_neg (by simp [hmark, hsees])] at h
    simp only [Option.bind_eq_bind, Option.bind_eq_some_iff, Prod.exists] at h
    obtain ⟨run, behind, hrun, h⟩ := h
    -- the first character neither ends the run nor is it the start of a comment
    have hpos : 0 < run.length := by
      rw [readPlainRun, hrest] at hrun
      simp only [hgap, Bool.false_and, beq_eq_false_iff_ne.2 hcolon, Bool.or_self,
        Bool.false_eq_true, if_false, List.nil_append] at hrun
      exact length_le_of_readPlainRun hrun
    have hne : run.isEmpty = false := by simpa using List.ne_nil_of_length_pos hpos
    simp only [hne, Bool.false_eq_true, if_false] at h
    refine List.ne_nil_of_length_pos (Nat.lt_of_lt_of_le hpos ?_)
    have hbegun : run.length ≤ ([] ++ Gap.fold {} ++ run).length := by
      simp
    refine Nat.le_trans hbegun ?_
    split at h
    · simp only [Option.bind_eq_some_iff, Prod.exists] at h
      obtain ⟨gap', place, -, h⟩ := h
      split at h
      · cases h
        exact Nat.le_refl _
      · exact length_le_of_readPlain h
    · cases h
      exact Nat.le_refl _

namespace Lexer

/-! ### Fresh lexers -/

/-- The lexer has no open blocks or collections and no possible keys. -/
structure IsFresh (lexer : Lexer) : Prop where
  /-- No blocks are open. -/
  blocks : lexer.blocks = []
  /-- No collection is open, and no key is possible. -/
  keys : lexer.keys = [none]
  /-- The tokens are counted. -/
  count_eq : lexer.count = lexer.tokens.length

variable {lexer lexer' final : Lexer} {c : Char} {rest : List Char} {token : Token}

theorem IsFresh.inFlow_eq (h : IsFresh lexer) : lexer.inFlow = false := by
  rw [inFlow, h.keys]
  rfl

theorem IsFresh.skipToToken (h : IsFresh lexer) (fuel : Nat) :
    IsFresh (skipToToken fuel lexer) := by
  obtain ⟨htokens, hcount, hblocks, hkeys⟩ := skipToToken_fields fuel lexer
  exact ⟨hblocks.trans h.blocks, hkeys.trans h.keys,
    hcount.trans (h.count_eq.trans (congrArg List.length htokens.symm))⟩

theorem IsFresh.expireKeys_eq (h : IsFresh lexer) : lexer.expireKeys = some lexer := by
  unfold expireKeys
  rw [h.keys]
  exact congrArg (fun keys => some { lexer with keys }) h.keys.symm

theorem IsFresh.closeBlocks_eq (h : IsFresh lexer) (condition : Nat → Bool) :
    lexer.closeBlocks condition = lexer := by
  rw [closeBlocks, if_neg (by simp [h.inFlow_eq])]
  obtain ⟨cursor, tokens, count, blocks, keys, allowed⟩ := lexer
  obtain rfl : blocks = [] := h.blocks
  rfl

theorem IsFresh.dropKey_eq (h : IsFresh lexer) : lexer.dropKey = some lexer := by
  unfold dropKey
  rw [h.keys]

theorem IsFresh.atMargin_eq (h : IsFresh lexer) :
    lexer.atMargin = some (lexer.allowKey false) := by
  rw [atMargin, h.closeBlocks_eq, h.dropKey_eq, Option.map_some]

/-- The possible key that a fresh lexer notes is on the line of the position. -/
theorem IsFresh.noteKey (h : IsFresh lexer) {noted : Lexer}
    (hnote : lexer.noteKey = some noted) :
    ∃ key? : Option PendingKey, noted = { lexer with keys := [key?] } ∧
      ∀ key ∈ key?, key.line = lexer.cursor.line := by
  rw [Lexer.noteKey] at hnote
  split at hnote
  · rw [h.dropKey_eq] at hnote
    cases hnote
    rw [h.keys]
    exact ⟨_, rfl, fun key hkey => Option.some.inj hkey ▸ rfl⟩
  · cases hnote
    refine ⟨none, ?_, by simp⟩
    rw [← h.keys]

/-! ### The first token -/

theorem keysBehind_singleton {count line : Nat} {key? : Option PendingKey}
    (h : ∀ key ∈ key?, key.line = line) : KeysBehind count line [key?] :=
  fun key hkey => .inr (Nat.le_of_eq (h key hkey))

theorem IsFresh.openFlow (h : IsFresh lexer) (hrest : lexer.cursor.rest = c :: rest)
    (hc : isBreak c = false) (hquiet : lexer.cursor.IsQuiet lexer.cursor.line)
    (hopen : lexer.openFlow token = some lexer') :
    IsLed (token :: lexer.tokens) lexer.cursor.line lexer' := by
  unfold Lexer.openFlow at hopen
  simp only [Option.bind_eq_bind, Option.bind_eq_some_iff] at hopen
  obtain ⟨noted, hnote, hopen⟩ := hopen
  cases hopen
  obtain ⟨key?, rfl, hline⟩ := h.noteKey hnote
  exact ⟨List.suffix_rfl, congrArg (· + 1) h.count_eq, (keysBehind_singleton hline).cons_none,
    hquiet.of_reaches (Cursor.reaches_skip_one hrest hc)⟩

theorem IsFresh.takeWith (h : IsFresh lexer) {read : Cursor → Option (Token × Cursor)}
    (hread : ∀ {token : Token} {next : Cursor}, read lexer.cursor = some (token, next) →
      lexer.cursor.Reaches next)
    (hquiet : lexer.cursor.IsQuiet lexer.cursor.line)
    (htake : lexer.takeWith read = some lexer') :
    ∃ token next, read lexer.cursor = some (token, next) ∧
      IsLed (token :: lexer.tokens) lexer.cursor.line lexer' := by
  unfold Lexer.takeWith at htake
  simp only [Option.bind_eq_bind, Option.bind_eq_some_iff, Prod.exists] at htake
  obtain ⟨noted, hnote, token, next, hnext, htake⟩ := htake
  cases htake
  obtain ⟨key?, rfl, hline⟩ := h.noteKey hnote
  exact ⟨token, next, hnext, List.suffix_rfl, congrArg (· + 1) h.count_eq,
    keysBehind_singleton hline, hquiet.of_reaches (hread hnext)⟩

theorem IsFresh.takeQuoted (h : IsFresh lexer) {style : ScalarStyle}
    (hrest : lexer.cursor.rest = c :: rest) (hc : isBreak c = false) (hstyle : style ≠ .plain)
    (hquiet : lexer.cursor.IsQuiet lexer.cursor.line)
    (htake : lexer.takeWith (readQuotedToken style) = some lexer') :
    ∃ token, token.startsListOrText = true ∧
      IsLed (token :: lexer.tokens) lexer.cursor.line lexer' := by
  have hsees : lexer.cursor.sees c = true := Cursor.sees_iff.2 ⟨rest, hrest⟩
  obtain ⟨token, next, hread, hled⟩ :=
    h.takeWith (fun hread => reaches_of_readQuotedToken hsees hc hread) hquiet htake
  obtain ⟨⟨text, place⟩, -, htoken⟩ := Option.map_eq_some_iff.1 hread
  cases htoken
  exact ⟨_, by simp [Token.startsListOrText, hstyle], hled⟩

theorem IsFresh.takeBlockEntry (h : IsFresh lexer) (hrest : lexer.cursor.rest = c :: rest)
    (hc : isBreak c = false) (hquiet : lexer.cursor.IsQuiet lexer.cursor.line)
    (htake : lexer.takeBlockEntry = some lexer') :
    IsLed (.blockSequence :: lexer.tokens) lexer.cursor.line lexer' := by
  unfold Lexer.takeBlockEntry at htake
  simp only [Option.bind_eq_bind, Option.bind_eq_some_iff] at htake
  obtain ⟨started, hstart, dropped, hdrop, htake⟩ := htake
  cases htake
  have hblock : started = { lexer with
      tokens := .blockSequence :: lexer.tokens
      count := lexer.count + 1
      blocks := [lexer.cursor.column] } := by
    rw [startBlock, if_neg (by simp [h.inFlow_eq])] at hstart
    split at hstart
    · cases hstart
      rw [openBlock, if_neg (by simp [h.inFlow_eq, h.blocks]), h.blocks, insert, Nat.sub_self,
        List.insertIdx_zero]
    · cases hstart
  subst hblock
  unfold dropKey at hdrop
  simp only [h.keys] at hdrop
  cases hdrop
  have hkeys : KeysBehind (lexer.tokens.length + 1) lexer.cursor.line [none] :=
    keysBehind_singleton (by simp)
  exact ⟨List.suffix_cons _ _, congrArg (· + 2) h.count_eq, hkeys,
    hquiet.of_reaches (Cursor.reaches_skip_one hrest hc)⟩

theorem IsFresh.takePlain (h : IsFresh lexer) (hrest : lexer.cursor.rest = c :: rest)
    (hmark : lexer.cursor.atDocumentMark = false) (hgap : isGap c = false) (hhash : c ≠ '#')
    (hcolon : c ≠ ':') (hquiet : lexer.cursor.IsQuiet lexer.cursor.line)
    (htake : lexer.takePlain = some lexer') :
    ∃ token, token.startsListOrText = true ∧
      IsLed (token :: lexer.tokens) lexer.cursor.line lexer' := by
  unfold Lexer.takePlain at htake
  simp only [Option.bind_eq_bind, Option.bind_eq_some_iff, Prod.exists] at htake
  obtain ⟨noted, hnote, text, next, broken, hread, htake⟩ := htake
  cases htake
  obtain ⟨key?, rfl, hline⟩ := h.noteKey hnote
  have hne : text ≠ [] := ne_nil_of_readPlain hrest hmark hgap hhash hcolon hread
  refine ⟨.scalar .plain (String.ofList text), ?_, List.suffix_rfl,
    congrArg (· + 1) h.count_eq, keysBehind_singleton hline,
    hquiet.of_reaches (reaches_of_readPlain hread)⟩
  simpa [Token.startsListOrText] using hne

/-- **The first token of a list or a scalar stays the first** when no colon of its line makes a
key. -/
theorem IsFresh.takeToken (h : IsFresh lexer) (hrest : lexer.cursor.rest = c :: rest)
    (hc : isNodeStart c = true) (hmark : lexer.cursor.atDocumentMark = false)
    (hquiet : lexer.cursor.IsQuiet lexer.cursor.line)
    (htake : lexer.takeToken c = some lexer') :
    ∃ token, token.startsListOrText = true ∧
      IsLed (token :: lexer.tokens) lexer.cursor.line lexer' := by
  cases takes_of_takeToken htake with
  | documentMark hat => simp [hmark] at hat
  | openSequence htake => exact ⟨_, rfl, h.openFlow hrest (by decide) hquiet htake⟩
  | blockEntry hends htake => exact ⟨_, rfl, h.takeBlockEntry hrest (by decide) hquiet htake⟩
  | singleQuoted htake => exact h.takeQuoted hrest (by decide) (by decide) hquiet htake
  | doubleQuoted htake => exact h.takeQuoted hrest (by decide) (by decide) hquiet htake
  | plain hmark hplain htake =>
    refine h.takePlain hrest hmark (isGap_of_isNodeStart hc) ?_ ?_ hquiet htake <;>
    · rintro rfl
      exact absurd hc (by decide)
  | _ => exact absurd hc (by decide)

theorem takeToken_tab (hrest : lexer.cursor.rest = '\t' :: rest) :
    lexer.takeToken '\t' = none := by
  rw [Option.eq_none_iff_forall_ne_some]
  intro lexer' htake
  cases takes_of_takeToken htake with
  | documentMark hmark =>
    rw [atDocumentMark_eq, hrest, hasMark_cons_of_ne (by decide) (by decide), Bool.and_false]
      at hmark
    cases hmark
  | plain hmark hplain => simp [startsPlain, isGap, isSpace] at hplain

/-- **The run of a fresh lexer goes to the content**: the run ends where there is none, and
otherwise takes a token there. -/
theorem IsFresh.takeAll {fuel : Nat} (h : IsFresh lexer)
    (hrun : takeAll fuel lexer = some final) :
    (contentFrom false lexer.cursor.behindMark.rest = [] ∧ final.tokens = lexer.tokens) ∨
      ∃ (placed taken : Lexer) (fuel' : Nat) (c : Char) (rest : List Char),
        IsFresh placed ∧ placed.tokens = lexer.tokens ∧ placed.cursor.rest = c :: rest ∧
          contentFrom false lexer.cursor.behindMark.rest = c :: rest ∧
            placed.takeToken c = some taken ∧ Lexer.takeAll fuel' taken = some final := by
  cases fuel with
  | zero => cases hrun
  | succ fuel =>
    -- the way to the content is all that happens in front of the first token
    have hplaced := h.skipToToken (lexer.cursor.rest.length + 1)
    have hcontent := rest_skipToToken h.inFlow_eq (Nat.lt_succ_self lexer.cursor.rest.length)
    have htokens := (skipToToken_fields (lexer.cursor.rest.length + 1) lexer).1
    rw [Lexer.takeAll] at hrun
    generalize Lexer.skipToToken (lexer.cursor.rest.length + 1) lexer = placed at *
    simp only [Option.bind_eq_bind, Option.bind_eq_some_iff, hplaced.expireKeys_eq,
      Option.some.injEq, exists_eq_left', hplaced.closeBlocks_eq] at hrun
    split at hrun
    · next hrest =>
      rw [hplaced.atMargin_eq] at hrun
      cases hrun
      rw [hrest] at hcontent
      exact .inl ⟨(hcontent.resolve_right (by simp)).symm, htokens⟩
    · next c rest hrest =>
      simp only [Option.bind_eq_some_iff] at hrun
      obtain ⟨taken, htake, hrun⟩ := hrun
      rw [hrest] at hcontent
      refine .inr ⟨placed, taken, fuel, c, rest, hplaced, htokens, hrest, ?_, htake, hrun⟩
      refine (hcontent.resolve_right fun htab => ?_).symm
      obtain rfl : c = '\t' := Option.some.inj htab
      rw [takeToken_tab hrest] at htake
      cases htake

/-- **The token at the content stays in front** when it starts a list or a scalar and no colon
of its line makes a key. -/
theorem IsFresh.exists_token (h : IsFresh lexer) {fuel : Nat} {cs : List Char}
    (hcontent : contentFrom false lexer.cursor.behindMark.rest = cs) (hcs : StartsNode cs)
    (hcolon : ¬HasKeyColon (cs.takeWhile (! isBreak ·)))
    (hrun : Lexer.takeAll fuel lexer = some final) :
    ∃ token, token.startsListOrText = true ∧ token :: lexer.tokens <:+ final.tokens := by
  obtain ⟨hnil, -⟩ |
    ⟨placed, taken, fuel', c, rest, hplaced, htokens, hrest, hsame, htake, hmore⟩ := h.takeAll hrun
  · rw [hcontent] at hnil
    subst hnil
    cases hcs.head
  · rw [hcontent] at hsame
    subst hsame
    have hmark : placed.cursor.atDocumentMark = false := by
      rw [atDocumentMark_eq, hrest, hcs.mark, Bool.and_false]
    have hquiet : placed.cursor.IsQuiet placed.cursor.line :=
      .inr ⟨rfl, by rwa [Cursor.run, hrest]⟩
    obtain ⟨token, htoken, hled⟩ := hplaced.takeToken hrest hcs.head hmark hquiet htake
    exact ⟨token, htoken, htokens ▸ hled.takeAll hmore⟩

/-- A mark in front of a document leaves the lexer fresh. -/
theorem IsFresh.takeMark (h : IsFresh lexer) (hrest : lexer.cursor.rest = '-' :: '-' :: '-' :: rest)
    (hmark : lexer.cursor.atDocumentMark = true) (htake : lexer.takeToken '-' = some lexer') :
    IsFresh lexer' ∧ lexer'.tokens = .documentStart :: lexer.tokens ∧
      lexer'.cursor.behindMark.rest = rest := by
  cases takes_of_takeToken htake with
  | documentMark _ hclosed =>
    rw [h.atMargin_eq] at hclosed
    cases hclosed
    refine ⟨⟨h.blocks, h.keys, congrArg (· + 1) h.count_eq⟩, rfl, ?_⟩
    rw [Cursor.behindMark_of_ne (Nat.succ_ne_zero _)]
    exact congrArg (List.drop 3) hrest
  | blockEntry hends =>
    rw [Cursor.endsAt, hrest] at hends
    cases hends
  | plain hnone => simp [hmark] at hnone

/-- Behind three dashes the line has no colon either. -/
theorem not_hasKeyColon_dashes
    (hcolon : ¬HasKeyColon (('-' :: '-' :: '-' :: rest).takeWhile (! isBreak ·))) :
    ¬HasKeyColon ((rest.dropWhile isSpace).takeWhile (! isBreak ·)) := by
  refine fun h => hcolon ?_
  have hdashes : ('-' :: '-' :: '-' :: rest).takeWhile (! isBreak ·) =
      ('-' :: '-' :: '-' :: rest.takeWhile isSpace) ++
        (rest.dropWhile isSpace).takeWhile (! isBreak ·) := by
    rw [← List.takeWhile_append_of_pos, List.cons_append, List.cons_append, List.cons_append,
      List.takeWhile_append_dropWhile]
    intro c hc
    simp only [List.mem_cons] at hc
    obtain rfl | rfl | rfl | hc := hc
    · rfl
    · rfl
    · rfl
    · simp [isBreak_of_isSpace (List.all_eq_true.1 List.all_takeWhile c hc)]
  rw [hdashes]
  exact h.append_left _

/-- **The first tokens of a text that starts a list or a scalar**, on a line without a colon that
makes a key. -/
theorem IsFresh.exists_root (h : IsFresh lexer) {fuel : Nat} {cs : List Char}
    (hcontent : contentFrom false lexer.cursor.behindMark.rest = cs) (hcs : StartsRoot cs)
    (hcolon : ¬HasKeyColon (cs.takeWhile (! isBreak ·)))
    (hrun : Lexer.takeAll fuel lexer = some final) :
    ∃ token, token.startsListOrText = true ∧
      (token :: lexer.tokens <:+ final.tokens ∨
        token :: .documentStart :: lexer.tokens <:+ final.tokens) := by
  obtain hcs | ⟨rest, rfl, hcs⟩ := hcs
  · obtain ⟨token, htoken, hsuffix⟩ := h.exists_token hcontent hcs hcolon hrun
    exact ⟨token, htoken, .inl hsuffix⟩
  obtain ⟨hnil, -⟩ |
    ⟨placed, taken, fuel', c, rest', hplaced, htokens, hrest, hsame, htake, hmore⟩ := h.takeAll hrun
  · rw [hcontent] at hnil
    cases hnil
  · rw [hcontent] at hsame
    cases hsame
    -- the dashes are a mark only at the margin, and a scalar anywhere else
    cases hmark : placed.cursor.atDocumentMark with
    | true =>
      obtain ⟨htaken, hstart, hbehind⟩ := hplaced.takeMark hrest hmark htake
      have hspaces : contentFrom false taken.cursor.behindMark.rest = rest.dropWhile isSpace := by
        rw [hbehind, ← contentFrom_dropWhile fun _ hc => hc, contentFrom_of_startsNode hcs]
      obtain ⟨token, htoken, hsuffix⟩ :=
        htaken.exists_token hspaces hcs (not_hasKeyColon_dashes hcolon) hmore
      rw [hstart, htokens] at hsuffix
      exact ⟨token, htoken, .inr hsuffix⟩
    | false =>
      have hquiet : placed.cursor.IsQuiet placed.cursor.line :=
        .inr ⟨rfl, by rwa [Cursor.run, hrest]⟩
      obtain ⟨token, htoken, hled⟩ := hplaced.takeToken hrest (by decide) hmark hquiet htake
      exact ⟨token, htoken, .inl (htokens ▸ hled.takeAll hmore)⟩

theorem isFresh_start (cursor : Cursor) : IsFresh { cursor } :=
  ⟨rfl, rfl, rfl⟩

end Lexer

/-! ### The tokens of a text -/

theorem content_eq (cs : List Char) :
    contentFrom false (Cursor.behindMark { rest := cs }).rest = content cs := by
  rw [content, Cursor.behindMark]
  simp only [Cursor.sees, beq_iff_eq, Bool.and_eq_true, true_and]
  split <;> rfl

variable {text : String} {tokens : List Token}

/-- A text without content has no tokens. -/
theorem tokens_eq_nil_of_content (hcontent : content text.toList = [])
    (htokens : tokens? text.toList = some tokens) : tokens = [] := by
  rw [tokens?] at htokens
  split at htokens
  · obtain ⟨final, hrun, rfl⟩ := Option.map_eq_some_iff.1 htokens
    obtain ⟨-, hfinal⟩ | ⟨placed, taken, fuel', c, rest, -, -, -, hsame, -⟩ :=
      (Lexer.isFresh_start _).takeAll hrun
    · rw [hfinal]
      rfl
    · rw [content_eq, hcontent] at hsame
      cases hsame
  · cases htokens

theorem exists_token_of_startsRoot (hcontent : StartsRoot (content text.toList))
    (hcolon : ¬HasKeyColon (contentLine text)) (htokens : tokens? text.toList = some tokens) :
    ∃ token more, token.startsListOrText = true ∧
      (tokens = token :: more ∨ tokens = .documentStart :: token :: more) := by
  rw [tokens?] at htokens
  split at htokens
  · obtain ⟨final, hrun, rfl⟩ := Option.map_eq_some_iff.1 htokens
    obtain ⟨token, htoken, ⟨more, hmore⟩ | ⟨more, hmore⟩⟩ :=
      (Lexer.isFresh_start _).exists_root (content_eq _) hcontent hcolon hrun
    · exact ⟨token, more.reverse, htoken, .inl (by simp [← hmore])⟩
    · exact ⟨token, more.reverse, htoken, .inr (by simp [← hmore])⟩
  · cases htokens

/-! ### The root of a document -/

/-- The node has no keys: it is a list, or a scalar that is not blank. -/
def Node.isListOrText : Node → Bool
  | .sequence _ _ => true
  | .scalar _ _ style text => style != .plain || text != ""
  | _ => false

theorem fields?_of_isListOrText (document : Document) {node : Node}
    (h : node.isListOrText = true) : document.view.fields? node = none := by
  cases node with
  | sequence => rfl
  | scalar anchor? tag? style text =>
    have hnothing : (Node.scalar anchor? tag? style text).isNothing = false := by
      cases style with
      | plain => simpa [Node.isListOrText, Node.isNothing] using h
      | _ => rfl
    simp [Document.view, Document.resolve, hnothing]
  | _ => cases h

theorem readNode_of_startsListOrText {handles : TagHandles} {fuel : Nat} {token : Token}
    {more : List Token} {node : Node} {reading : Reading} (h : token.startsListOrText = true)
    (hread : readNode handles true false (fuel + 1) { tokens := token :: more } =
      some (node, reading)) : node.isListOrText = true := by
  rw [readNode] at hread
  cases token with
  | scalar style text =>
    cases hread
    exact h
  | flowSequence =>
    have hproperties : readProperties handles { tokens := .flowSequence :: more } =
        some (none, none, { tokens := .flowSequence :: more }) := rfl
    simp only [Reading.token?, List.head?_cons, hproperties, Option.bind_eq_bind,
      Option.bind_some, Option.bind_eq_some_iff, Prod.exists] at hread
    obtain ⟨items, place, -, hread⟩ := hread
    cases hread
    rfl
  | blockSequence =>
    have hproperties : readProperties handles { tokens := .blockSequence :: more } =
        some (none, none, { tokens := .blockSequence :: more }) := rfl
    simp only [Reading.token?, List.head?_cons, hproperties, Option.bind_eq_bind,
      Option.bind_some, Option.bind_eq_some_iff, Prod.exists] at hread
    obtain ⟨items, place, -, hread⟩ := hread
    cases hread
    rfl
  | _ => cases h

/-- Such a token belongs to a document. -/
theorem isOutside_of_startsListOrText {token : Token} (h : token.startsListOrText = true) :
    token.isOutside = false := by
  cases token with
  | flowSequence | blockSequence | scalar => rfl
  | _ => cases h

theorem readContent_of_startsListOrText {handles : TagHandles} {marked : Bool} {token : Token}
    {more : List Token} {node : Node} {reading : Reading} (h : token.startsListOrText = true)
    (hread : readContent handles marked (token :: more) = some (node, reading)) :
    node.isListOrText = true := by
  rw [readContent, List.head?_cons, Option.all_some, isOutside_of_startsListOrText h,
    Bool.and_false, if_neg Bool.false_ne_true] at hread
  exact readNode_of_startsListOrText h hread

/-- **The first token decides what the root is.** -/
theorem isListOrText_of_readDocument {token : Token} {more : List Token} {root? : Option Node}
    (h : token.startsListOrText = true)
    (htokens : tokens = token :: more ∨ tokens = .documentStart :: token :: more)
    (hread : readDocument tokens = some root?) :
    ∃ root, root? = some root ∧ root.isListOrText = true := by
  have hclosing : ∀ (handles : TagHandles) (marked : Bool),
      ((readContent handles marked (token :: more)).bind fun result =>
        if (result.2.tokens.dropWhile (· == .documentEnd)).isEmpty then some (some result.1)
        else none) = some root? → ∃ root, root? = some root ∧ root.isListOrText = true := by
    intro handles marked hread
    obtain ⟨⟨node, reading⟩, hcontent, hend⟩ := Option.bind_eq_some_iff.1 hread
    split at hend
    · exact ⟨node, (Option.some.inj hend).symm, readContent_of_startsListOrText h hcontent⟩
    · cases hend
  obtain rfl | rfl := htokens
  · rw [readDocument, if_neg (by simp)] at hread
    simp only [List.head?_cons, Option.any_some, isOutside_of_startsListOrText h,
      Bool.false_and, Bool.false_eq_true, if_false] at hread
    exact hclosing standardHandles false hread
  · exact hclosing standardHandles true hread

end Unreferenced.Yaml

namespace Unreferenced

open Yaml

variable {text : String} {settings : Settings}

/-- **A text that starts a list or a scalar gives no settings as YAML**, if no colon on the line
makes a key. -/
theorem Settings.ofYaml?_of_startsRoot (hcontent : StartsRoot (content text.toList))
    (hcolon : ¬HasKeyColon (contentLine text)) : Settings.ofYaml? text = none := by
  rw [Option.eq_none_iff_forall_ne_some]
  intro settings hread
  simp only [Settings.ofYaml?, document?, Option.bind_eq_bind, Option.bind_eq_some_iff] at hread
  obtain ⟨document, ⟨tokens, htokens, root?, hroot, hdocument⟩, hread⟩ := hread
  cases hdocument
  obtain ⟨token, more, htoken, hfirst⟩ := exists_token_of_startsRoot hcontent hcolon htokens
  obtain ⟨root, rfl, hnode⟩ := isListOrText_of_readDocument htoken hfirst hroot
  simp only [fields?_of_isListOrText _ hnode, Option.bind_none] at hread
  cases hread

/-- A text without content gives the defaults as YAML, if it gives settings. -/
theorem Settings.eq_of_content_eq_nil (hcontent : content text.toList = [])
    (hread : Settings.ofYaml? text = some settings) : settings = {} := by
  simp only [Settings.ofYaml?, document?, Option.bind_eq_bind, Option.bind_eq_some_iff] at hread
  obtain ⟨document, ⟨tokens, htokens, root?, hroot, hdocument⟩, hread⟩ := hread
  cases hdocument
  rw [tokens_eq_nil_of_content hcontent htokens] at hroot
  cases hroot
  cases hread
  rfl

end Unreferenced
