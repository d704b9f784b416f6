import Mathlib.Data.List.Basic
import Unreferenced.Proofs.Yaml.Token

/-!
# Tokens that stay in front

The lexer puts tokens in front of others for one reason: a colon makes a key of a token that
could be one. A possible key is given up as soon as its line ends, so the tokens in front of all
possible keys stay in front, and so do those on a line that has no colon with white space behind
it. `IsLed` says this of the first tokens of a text. One condition bounds all possible keys
(`KeysBehind`): those of flow collections stand behind the first tokens, and that of the blocks
around them stands behind them too or on a line without such colons.

Every way of taking a token keeps this (`IsLed.takeToken`), so a run does (`IsLed.takeAll`). The
one case with an argument of its own is the colon (`IsLed.takeValue`): the key that it meets is on
the line of the position, so that the line has no colon left if the key were one of the first
tokens (`IsLed.le_of_head?`).
-/

namespace Unreferenced.Yaml

/-! ### Colons that make keys -/

/-- A colon of the line makes a key of what is in front of it: white space follows it, or
the end of the line. -/
def HasKeyColon (line : List Char) : Prop :=
  ∃ before after, line = before ++ ':' :: after ∧ after.head?.all isSpace = true

theorem HasKeyColon.append_left {cs : List Char} (h : HasKeyColon cs) (passed : List Char) :
    HasKeyColon (passed ++ cs) := by
  obtain ⟨before, after, rfl, hafter⟩ := h
  exact ⟨passed ++ before, after, by rw [List.append_assoc], hafter⟩

theorem not_hasKeyColon_nil : ¬HasKeyColon [] := by
  rintro ⟨before, after, h, -⟩
  simp at h

theorem hasKeyColon_cons {c : Char} {cs : List Char} :
    HasKeyColon (c :: cs) ↔ (c = ':' ∧ cs.head?.all isSpace = true) ∨ HasKeyColon cs := by
  constructor
  · rintro ⟨_ | ⟨b, before⟩, after, h, hafter⟩
    · cases h
      exact .inl ⟨rfl, hafter⟩
    · cases h
      exact .inr ⟨before, after, rfl, hafter⟩
  · rintro (⟨rfl, hafter⟩ | h)
    · exact ⟨[], cs, rfl, hafter⟩
    · exact h.append_left [c]

instance instDecidableHasKeyColon : DecidablePred HasKeyColon
  | [] => .isFalse not_hasKeyColon_nil
  | _ :: cs =>
    have := instDecidableHasKeyColon cs
    decidable_of_iff' _ hasKeyColon_cons

namespace Cursor

/-- The position has left a line, or no colon that makes a key is left on it. -/
def IsQuiet (line : Nat) (cursor : Cursor) : Prop :=
  line < cursor.line ∨ cursor.line = line ∧ ¬HasKeyColon (cursor.run (! isBreak ·))

variable {line : Nat} {cursor next : Cursor}

theorem IsQuiet.of_reaches (h : cursor.IsQuiet line) (hnext : cursor.Reaches next) :
    next.IsQuiet line := by
  rcases hnext with hlt | ⟨heq, passed, hrest, hbreak⟩
  · rcases h with hline | ⟨rfl, -⟩
    · exact .inl (Nat.lt_trans hline hlt)
    · exact .inl hlt
  · rcases h with hline | ⟨rfl, hcolon⟩
    · exact .inl (heq ▸ hline)
    · refine .inr ⟨heq.symm, fun hmore => hcolon ?_⟩
      have hrun : cursor.run (! isBreak ·) = passed ++ next.run (! isBreak ·) := by
        rw [run, hrest, List.takeWhile_append_of_pos (by simpa using hbreak), run]
      exact hrun ▸ hmore.append_left passed

/-- On the line there is no colon in front of white space or the end of the line. -/
theorem IsQuiet.endsAt_eq_false (h : cursor.IsQuiet line) (hline : cursor.line ≤ line)
    {rest : List Char} (hrest : cursor.rest = ':' :: rest) : cursor.endsAt 1 = false := by
  rcases h with hlt | ⟨-, hcolon⟩
  · omega
  · rw [Bool.eq_false_iff]
    intro hends
    refine hcolon ⟨[], rest.takeWhile (! isBreak ·), ?_, ?_⟩
    · rw [run, hrest, List.takeWhile_cons_of_pos (by decide), List.nil_append]
    · rw [endsAt, hrest, List.getElem?_cons_succ] at hends
      cases rest with
      | nil => rfl
      | cons d rest =>
        by_cases hd : isBreak d = true
        · rw [List.takeWhile_cons_of_neg (by simpa using hd)]
          rfl
        · rw [List.takeWhile_cons_of_pos (by simpa using hd)]
          simpa [isGap, hd] using hends

end Cursor

namespace Lexer

/-! ### Possible keys -/

/-- The possible keys stand behind so many tokens, those of flow collections in any case,
and that of the blocks around them unless it stands on the given line or before it. -/
def KeysBehind (count line : Nat) : List (Option PendingKey) → Prop
  | [] => True
  | [outer] => ∀ key ∈ outer, count ≤ key.token ∨ key.line ≤ line
  | inner :: keys => (∀ key ∈ inner, count ≤ key.token) ∧ KeysBehind count line keys

variable {count line : Nat} {key? : Option PendingKey} {keys : List (Option PendingKey)}

theorem KeysBehind.tail (h : KeysBehind count line (key? :: keys)) :
    KeysBehind count line keys := by
  cases keys with
  | nil => trivial
  | cons => exact h.2

/-- A key behind so many tokens can take the place of the innermost one. -/
theorem KeysBehind.replace (h : KeysBehind count line (key? :: keys)) {new? : Option PendingKey}
    (hnew : ∀ key ∈ new?, count ≤ key.token) : KeysBehind count line (new? :: keys) := by
  cases keys with
  | nil => exact fun key hkey => .inl (hnew key hkey)
  | cons => exact ⟨hnew, h.2⟩

theorem KeysBehind.cons_none (h : KeysBehind count line keys) :
    KeysBehind count line (none :: keys) := by
  cases keys with
  | nil => simp [KeysBehind]
  | cons => exact ⟨by simp, h⟩

/-- Possible keys may be given up. -/
theorem KeysBehind.of_forall₂ {left : List (Option PendingKey)} (h : KeysBehind count line keys)
    (hleft : List.Forall₂ (fun key? left? => ∀ key ∈ left?, key ∈ key?) keys left) :
    KeysBehind count line left := by
  induction hleft with
  | nil => trivial
  | cons hhead htail ih =>
    cases htail with
    | nil => exact fun key hkey => h key (hhead key hkey)
    | cons => exact ⟨fun key hkey => h.1 key (hhead key hkey), ih h.tail⟩

/-! ### Blocks have no part in positions and possible keys -/

@[simp]
theorem cursor_openBlock (lexer : Lexer) (column place : Nat) (token : Token) :
    (lexer.openBlock column place token).cursor = lexer.cursor := by
  rw [openBlock]
  split <;> rfl

@[simp]
theorem cursor_closeBlocks (lexer : Lexer) (condition : Nat → Bool) :
    (lexer.closeBlocks condition).cursor = lexer.cursor := by
  rw [closeBlocks]
  split <;> rfl

@[simp]
theorem keys_closeBlocks (lexer : Lexer) (condition : Nat → Bool) :
    (lexer.closeBlocks condition).keys = lexer.keys := by
  rw [closeBlocks]
  split <;> rfl

/-! ### Lexers that keep their first tokens -/

/-- The lexer has some tokens in front of all others, the last of them first, and will not
put anything before them: no possible key stands there that can still become one. -/
structure IsLed (lead : List Token) (line : Nat) (lexer : Lexer) : Prop where
  /-- The tokens are in front. -/
  suffix : lead <:+ lexer.tokens
  /-- The tokens are counted. -/
  count_eq : lexer.count = lexer.tokens.length
  /-- Possible keys stand behind them, or on a line without colons. -/
  keys : KeysBehind lead.length line lexer.keys
  /-- The line has no colon that makes a key, from the position on. -/
  quiet : lexer.cursor.IsQuiet line

variable {lead : List Token} {lexer lexer' : Lexer} {token : Token} {c : Char} {rest : List Char}

theorem IsLed.length_le (h : IsLed lead line lexer) : lead.length ≤ lexer.count :=
  h.count_eq ▸ h.suffix.length_le

theorem IsLed.emit (h : IsLed lead line lexer) (token : Token) :
    IsLed lead line (lexer.emit token) :=
  ⟨h.suffix.trans (List.suffix_cons _ _), congrArg (· + 1) h.count_eq, h.keys, h.quiet⟩

theorem IsLed.allowKey (h : IsLed lead line lexer) (allowed : Bool) :
    IsLed lead line (lexer.allowKey allowed) :=
  ⟨h.suffix, h.count_eq, h.keys, h.quiet⟩

theorem IsLed.move (h : IsLed lead line lexer) {cursor : Cursor}
    (hreach : lexer.cursor.Reaches cursor) : IsLed lead line { lexer with cursor } :=
  ⟨h.suffix, h.count_eq, h.keys, h.quiet.of_reaches hreach⟩

theorem IsLed.withKeys (h : IsLed lead line lexer) (hkeys : KeysBehind lead.length line keys) :
    IsLed lead line { lexer with keys } :=
  ⟨h.suffix, h.count_eq, hkeys, h.quiet⟩

theorem IsLed.withBlocks (h : IsLed lead line lexer) (blocks : List Nat) :
    IsLed lead line { lexer with blocks } :=
  ⟨h.suffix, h.count_eq, h.keys, h.quiet⟩

/-- What is put in behind the first tokens leaves them first. -/
theorem IsLed.insert (h : IsLed lead line lexer) {place : Nat} (hplace : lead.length ≤ place)
    (token : Token) : IsLed lead line (lexer.insert place token) := by
  -- the place counts from the first token, and the list starts with the last one
  have hle : lexer.count - place ≤ lexer.tokens.length := h.count_eq ▸ Nat.sub_le _ _
  obtain ⟨front, back, hcut, hfront, hinsert⟩ :=
    List.exists_of_modifyTailIdx (List.cons token) hle
  have hback : lead <:+ back := by
    refine List.suffix_of_suffix_length_le (hcut ▸ h.suffix) (List.suffix_append _ _) ?_
    have hlength := congrArg List.length hcut
    have hlead := h.length_le
    rw [List.length_append, hfront, ← h.count_eq] at hlength
    omega
  refine ⟨?_, ?_, h.keys, h.quiet⟩
  · have hsuffix : lead <:+ front ++ token :: back :=
      (hback.trans (List.suffix_cons token back)).trans (List.suffix_append front _)
    rw [← hinsert] at hsuffix
    exact hsuffix
  · rw [Lexer.insert, List.length_insertIdx_of_le_length hle, h.count_eq]

theorem IsLed.openBlock (h : IsLed lead line lexer) {column place : Nat}
    (hplace : lead.length ≤ place) (token : Token) :
    IsLed lead line (lexer.openBlock column place token) := by
  rw [Lexer.openBlock]
  split
  · exact h
  · exact (h.insert hplace token).withBlocks _

theorem IsLed.closeBlocks (h : IsLed lead line lexer) (condition : Nat → Bool) :
    IsLed lead line (lexer.closeBlocks condition) := by
  rw [Lexer.closeBlocks]
  split
  · exact h
  · refine ⟨h.suffix.trans (List.suffix_append _ _), ?_, h.keys, h.quiet⟩
    rw [List.length_append, List.length_replicate, h.count_eq, Nat.add_comm]

/-- Giving up the innermost possible key changes nothing else. -/
theorem IsLed.dropKey (h : IsLed lead line lexer) (hdrop : lexer.dropKey = some lexer') :
    IsLed lead line lexer' ∧ lexer'.cursor = lexer.cursor := by
  rw [Lexer.dropKey] at hdrop
  split at hdrop
  · next key outer hkeys =>
    split at hdrop
    · cases hdrop
    · cases hdrop
      have hbehind := h.keys
      rw [hkeys] at hbehind
      exact ⟨h.withKeys (hbehind.replace (by simp)), rfl⟩
  · cases hdrop
    exact ⟨h, rfl⟩

/-- A possible key that is noted stands behind all tokens so far. -/
theorem IsLed.noteKey (h : IsLed lead line lexer) (hnote : lexer.noteKey = some lexer') :
    IsLed lead line lexer' ∧ lexer'.cursor = lexer.cursor := by
  rw [Lexer.noteKey] at hnote
  split at hnote
  · simp only [Option.bind_eq_bind, Option.bind_eq_some_iff] at hnote
    obtain ⟨dropped, hdrop, hnote⟩ := hnote
    cases hnote
    obtain ⟨hdropped, hcursor⟩ := h.dropKey hdrop
    refine ⟨hdropped.withKeys ?_, hcursor⟩
    have hbehind := hdropped.keys
    cases hkeys : dropped.keys with
    | nil => exact fun key hkey => .inl (Option.some.inj hkey ▸ h.length_le)
    | cons key? outer =>
      rw [hkeys] at hbehind
      exact hbehind.replace fun key hkey => Option.some.inj hkey ▸ h.length_le
  · cases hnote
    exact ⟨h, rfl⟩

/-- Each possible key is left or given up, and those that are left are on the line of the
position. -/
theorem forall₂_of_expireKeys (hexpire : lexer.expireKeys = some lexer') :
    ∃ left, lexer' = { lexer with keys := left } ∧
      List.Forall₂ (fun key? left? => ∀ key ∈ left?, key ∈ key?) lexer.keys left ∧
        ∀ key, some key ∈ left → lexer.cursor.line ≤ key.line := by
  unfold Lexer.expireKeys at hexpire
  extract_lets expire at hexpire
  have hone : ∀ key? left? : Option PendingKey, expire key? = some left? →
      ∀ key ∈ left?, key ∈ key? ∧ lexer.cursor.line ≤ key.line := by
    intro key? left? hkey key hmem
    cases key? with
    | none =>
      cases hkey
      cases hmem
    | some old =>
      simp only [expire] at hkey
      split at hkey
      · split at hkey
        · cases hkey
        · cases hkey
          cases hmem
      · next hold =>
        cases hkey
        obtain rfl := Option.some.inj hmem
        simp only [Bool.or_eq_true, decide_eq_true_eq, not_or, Nat.not_lt] at hold
        exact ⟨rfl, hold.1⟩
  clear_value expire
  simp only [Option.bind_eq_bind, Option.bind_eq_some_iff] at hexpire
  obtain ⟨left, hleft, hexpire⟩ := hexpire
  cases hexpire
  refine ⟨left, rfl, ?_⟩
  generalize lexer.keys = keys at hleft
  induction keys generalizing left with
  | nil =>
    cases hleft
    exact ⟨.nil, by simp⟩
  | cons key? keys ih =>
    simp only [List.mapM_cons, Option.bind_eq_bind, Option.bind_eq_some_iff, Option.pure_def,
      Option.some.injEq] at hleft
    obtain ⟨left?, hhead, more, hmore, rfl⟩ := hleft
    obtain ⟨hkept, hline⟩ := ih more hmore
    refine ⟨.cons (fun key hkey => (hone key? left? hhead key hkey).1) hkept,
      fun key hkey => ?_⟩
    rcases List.mem_cons.1 hkey with heq | hkey
    · exact (hone key? left? hhead key heq.symm).2
    · exact hline key hkey

/-- Giving up possible keys leaves the others behind the first tokens. -/
theorem IsLed.expireKeys (h : IsLed lead line lexer) (hexpire : lexer.expireKeys = some lexer') :
    IsLed lead line lexer' ∧ lexer'.cursor = lexer.cursor ∧
      ∀ key, some key ∈ lexer'.keys → lexer'.cursor.line ≤ key.line := by
  obtain ⟨left, rfl, hkept, hline⟩ := forall₂_of_expireKeys hexpire
  exact ⟨h.withKeys (h.keys.of_forall₂ hkept), rfl, hline⟩

/-! ### Taking tokens -/

theorem IsLed.skip (h : IsLed lead line lexer) (hrest : lexer.cursor.rest = c :: rest)
    (hc : isBreak c = false) : IsLed lead line (lexer.skip 1) :=
  h.move (Cursor.reaches_skip_one hrest hc)

theorem IsLed.atMargin (h : IsLed lead line lexer) (hmargin : lexer.atMargin = some lexer') :
    IsLed lead line lexer' ∧ lexer'.cursor = lexer.cursor := by
  rw [Lexer.atMargin, Option.map_eq_some_iff] at hmargin
  obtain ⟨dropped, hdrop, rfl⟩ := hmargin
  obtain ⟨hdropped, hcursor⟩ := (h.closeBlocks _).dropKey hdrop
  exact ⟨hdropped.allowKey false, hcursor.trans (cursor_closeBlocks _ _)⟩

/-- Takes a bracket or brace that opens a collection. -/
theorem IsLed.openFlow (h : IsLed lead line lexer) (hrest : lexer.cursor.rest = c :: rest)
    (hc : isBreak c = false) (hopen : lexer.openFlow token = some lexer') :
    IsLed lead line lexer' := by
  unfold Lexer.openFlow at hopen
  simp only [Option.bind_eq_bind, Option.bind_eq_some_iff] at hopen
  obtain ⟨noted, hnote, hopen⟩ := hopen
  cases hopen
  obtain ⟨hnoted, hcursor⟩ := h.noteKey hnote
  rw [← hcursor] at hrest
  exact (((hnoted.withKeys hnoted.keys.cons_none).allowKey true).skip hrest hc).emit token

theorem IsLed.closeFlow (h : IsLed lead line lexer) (hrest : lexer.cursor.rest = c :: rest)
    (hc : isBreak c = false) (hclose : lexer.closeFlow token = some lexer') :
    IsLed lead line lexer' := by
  unfold Lexer.closeFlow at hclose
  simp only [Option.bind_eq_bind, Option.bind_eq_some_iff] at hclose
  obtain ⟨dropped, hdrop, hclose⟩ := hclose
  cases hclose
  obtain ⟨hdropped, hcursor⟩ := h.dropKey hdrop
  rw [← hcursor] at hrest
  have hkeys : KeysBehind lead.length line
      (if dropped.inFlow then dropped.keys.tail else dropped.keys) := by
    have hbehind := hdropped.keys
    split
    · cases hkeys : dropped.keys with
      | nil => trivial
      | cons => exact (hkeys ▸ hbehind).tail
    · exact hbehind
  exact (((hdropped.withKeys hkeys).allowKey false).skip hrest hc).emit token

theorem IsLed.takeFlowEntry (h : IsLed lead line lexer) (hrest : lexer.cursor.rest = c :: rest)
    (hc : isBreak c = false) (htake : lexer.takeFlowEntry = some lexer') :
    IsLed lead line lexer' := by
  unfold Lexer.takeFlowEntry at htake
  simp only [Option.bind_eq_bind, Option.bind_eq_some_iff] at htake
  obtain ⟨dropped, hdrop, htake⟩ := htake
  cases htake
  obtain ⟨hdropped, hcursor⟩ := h.dropKey hdrop
  rw [← hcursor] at hrest
  exact ((hdropped.allowKey true).skip hrest hc).emit .flowEntry

theorem IsLed.startBlock (h : IsLed lead line lexer)
    (hstart : lexer.startBlock token = some lexer') :
    IsLed lead line lexer' ∧ lexer'.cursor = lexer.cursor := by
  rw [Lexer.startBlock] at hstart
  split at hstart
  · cases hstart
    exact ⟨h, rfl⟩
  · split at hstart
    · cases hstart
      exact ⟨h.openBlock h.length_le token, cursor_openBlock _ _ _ _⟩
    · cases hstart

theorem IsLed.takeBlockEntry (h : IsLed lead line lexer) (hrest : lexer.cursor.rest = c :: rest)
    (hc : isBreak c = false) (htake : lexer.takeBlockEntry = some lexer') :
    IsLed lead line lexer' := by
  unfold Lexer.takeBlockEntry at htake
  simp only [Option.bind_eq_bind, Option.bind_eq_some_iff] at htake
  obtain ⟨started, hstart, dropped, hdrop, htake⟩ := htake
  cases htake
  obtain ⟨hstarted, hcursor⟩ := h.startBlock hstart
  obtain ⟨hdropped, hcursor'⟩ := hstarted.dropKey hdrop
  rw [← hcursor, ← hcursor'] at hrest
  exact ((hdropped.allowKey true).skip hrest hc).emit .blockEntry

theorem IsLed.takeKey (h : IsLed lead line lexer) (hrest : lexer.cursor.rest = c :: rest)
    (hc : isBreak c = false) (htake : lexer.takeKey = some lexer') : IsLed lead line lexer' := by
  unfold Lexer.takeKey at htake
  simp only [Option.bind_eq_bind, Option.bind_eq_some_iff] at htake
  obtain ⟨started, hstart, dropped, hdrop, htake⟩ := htake
  cases htake
  obtain ⟨hstarted, hcursor⟩ := h.startBlock hstart
  obtain ⟨hdropped, hcursor'⟩ := hstarted.dropKey hdrop
  rw [← hcursor, ← hcursor'] at hrest
  exact ((hdropped.allowKey !dropped.inFlow).skip hrest hc).emit .key

/-- **A colon puts a key where a possible one stands**, which has to be behind the first
tokens. -/
theorem IsLed.takeValue (h : IsLed lead line lexer) (hrest : lexer.cursor.rest = c :: rest)
    (hc : isBreak c = false)
    (hkey : ∀ key, lexer.keys.head? = some (some key) → lead.length ≤ key.token)
    (htake : lexer.takeValue = some lexer') : IsLed lead line lexer' := by
  unfold Lexer.takeValue at htake
  split at htake
  · next key outer hkeys =>
    cases htake
    have hplace : lead.length ≤ key.token := hkey key (by rw [hkeys]; rfl)
    have hbehind := h.keys
    rw [hkeys] at hbehind
    have hdropped : KeysBehind lead.length line (none :: outer) := hbehind.replace (by simp)
    have hopened : IsLed lead line ((Lexer.insert { lexer with keys := none :: outer } key.token
        .key).openBlock key.column key.token .blockMapping) :=
      ((h.withKeys hdropped).insert hplace .key).openBlock hplace .blockMapping
    have hcursor : ((Lexer.insert { lexer with keys := none :: outer } key.token .key).openBlock
        key.column key.token .blockMapping).cursor = lexer.cursor :=
      cursor_openBlock _ _ _ _
    rw [← hcursor] at hrest
    exact ((hopened.allowKey false).skip hrest hc).emit .value
  · simp only [Option.bind_eq_bind, Option.bind_eq_some_iff] at htake
    obtain ⟨started, hstart, htake⟩ := htake
    cases htake
    obtain ⟨hstarted, hcursor⟩ := h.startBlock hstart
    rw [← hcursor] at hrest
    exact ((hstarted.allowKey !started.inFlow).skip hrest hc).emit .value

theorem IsLed.takeWith (h : IsLed lead line lexer) {read : Cursor → Option (Token × Cursor)}
    (hread : ∀ {token : Token} {next : Cursor}, read lexer.cursor = some (token, next) →
      lexer.cursor.Reaches next)
    (htake : lexer.takeWith read = some lexer') : IsLed lead line lexer' := by
  unfold Lexer.takeWith at htake
  simp only [Option.bind_eq_bind, Option.bind_eq_some_iff, Prod.exists] at htake
  obtain ⟨noted, hnote, token, next, hnext, htake⟩ := htake
  cases htake
  obtain ⟨hnoted, hcursor⟩ := h.noteKey hnote
  have hreach : (noted.allowKey false).cursor.Reaches next := by
    have hplace : (noted.allowKey false).cursor = lexer.cursor := hcursor
    rw [hplace] at hnext ⊢
    exact hread hnext
  exact ((hnoted.allowKey false).move hreach).emit token

theorem IsLed.takePlain (h : IsLed lead line lexer) (htake : lexer.takePlain = some lexer') :
    IsLed lead line lexer' := by
  unfold Lexer.takePlain at htake
  simp only [Option.bind_eq_bind, Option.bind_eq_some_iff, Prod.exists] at htake
  obtain ⟨noted, hnote, text, next, broken, hread, htake⟩ := htake
  cases htake
  obtain ⟨hnoted, -⟩ := h.noteKey hnote
  exact ((((hnoted.allowKey false).move (reaches_of_readPlain hread)).allowKey broken).emit _)

theorem IsLed.takeBlock (h : IsLed lead line lexer) (hrest : lexer.cursor.rest = c :: rest)
    (hc : isBreak c = false) {style : ScalarStyle}
    (htake : lexer.takeBlock style = some lexer') : IsLed lead line lexer' := by
  unfold Lexer.takeBlock at htake
  simp only [Option.bind_eq_bind, Option.bind_eq_some_iff, Prod.exists] at htake
  obtain ⟨dropped, hdrop, text, next, hread, htake⟩ := htake
  cases htake
  obtain ⟨hdropped, hcursor⟩ := h.dropKey hdrop
  rw [← hcursor] at hrest
  exact ((hdropped.allowKey true).move ((Cursor.reaches_skip_one hrest hc).trans
    (reaches_of_readBlock hread))).emit _

/-! ### The step and the run -/

/-- The possible key that a colon meets stands behind the first tokens: in a flow collection
all do, and outside of them the colon would have to be on the line that has none. -/
theorem IsLed.le_of_head? (h : IsLed lead line lexer) (hrest : lexer.cursor.rest = ':' :: rest)
    (hindicates : (lexer.inFlow || lexer.cursor.endsAt 1) = true)
    (hline : ∀ key, some key ∈ lexer.keys → lexer.cursor.line ≤ key.line) {key : PendingKey}
    (hkey : lexer.keys.head? = some (some key)) : lead.length ≤ key.token := by
  obtain ⟨outer, hkeys⟩ := List.head?_eq_some_iff.1 hkey
  have hbehind := h.keys
  rw [hkeys] at hbehind
  cases outer with
  | cons => exact hbehind.1 key rfl
  | nil =>
    -- the key has not been given up, so the position is still on its line
    refine (hbehind key rfl).resolve_right fun hle => ?_
    have hcursor : lexer.cursor.line ≤ line :=
      Nat.le_trans (hline key (hkeys ▸ List.mem_cons_self)) hle
    have hflow : lexer.inFlow = false := by rw [inFlow, hkeys]; rfl
    rw [hflow, h.quiet.endsAt_eq_false hcursor hrest] at hindicates
    cases hindicates

/-- The mark around a document can be passed over. -/
theorem reaches_skip_documentMark {cursor : Cursor} (h : cursor.atDocumentMark = true) :
    cursor.Reaches (cursor.skip 3) := by
  simp only [Cursor.atDocumentMark, Bool.and_eq_true, Bool.or_eq_true, List.isPrefixOf_iff_prefix]
    at h
  refine Cursor.reaches_skip fun c hc => ?_
  obtain ⟨⟨-, ⟨rest, hrest⟩ | ⟨rest, hrest⟩⟩, -⟩ := h <;>
  · rw [← hrest] at hc
    simp only [List.cons_append, List.take_succ_cons, List.take_zero, List.mem_cons,
      List.not_mem_nil, or_false, or_self] at hc
    exact hc ▸ by decide

/-- **A step keeps the first tokens in front**, once possible keys of earlier lines have been
given up. -/
theorem IsLed.takeToken (h : IsLed lead line lexer) (hrest : lexer.cursor.rest = c :: rest)
    (hline : ∀ key, some key ∈ lexer.keys → lexer.cursor.line ≤ key.line)
    (htake : lexer.takeToken c = some lexer') : IsLed lead line lexer' := by
  have hsees : lexer.cursor.sees c = true := Cursor.sees_iff.2 ⟨rest, hrest⟩
  cases takes_of_takeToken htake with
  | directive hcolumn hclosed hread =>
    obtain ⟨hled, hcursor⟩ := h.atMargin hclosed
    rw [← hcursor] at hsees
    exact (hled.move (reaches_of_readDirective hsees hread)).emit _
  | documentMark hmark hclosed =>
    obtain ⟨hled, hcursor⟩ := h.atMargin hclosed
    exact (hled.move (reaches_skip_documentMark (hcursor ▸ hmark))).emit _
  | openSequence htake => exact h.openFlow hrest (by decide) htake
  | openMapping htake => exact h.openFlow hrest (by decide) htake
  | closeSequence htake => exact h.closeFlow hrest (by decide) htake
  | closeMapping htake => exact h.closeFlow hrest (by decide) htake
  | flowEntry htake => exact h.takeFlowEntry hrest (by decide) htake
  | blockEntry hends htake => exact h.takeBlockEntry hrest (by decide) htake
  | key hindicates htake => exact h.takeKey hrest (by decide) htake
  | value hindicates htake =>
    exact h.takeValue hrest (by decide) (fun _ => h.le_of_head? hrest hindicates hline) htake
  | reference htake =>
    refine h.takeWith (fun hread => ?_) htake
    obtain ⟨⟨name, place⟩, hname, hread⟩ := Option.map_eq_some_iff.1 hread
    cases hread
    exact (Cursor.reaches_skip_one hrest (by decide)).trans (reaches_of_readAnchor hname)
  | anchor htake =>
    refine h.takeWith (fun hread => ?_) htake
    obtain ⟨⟨name, place⟩, hname, hread⟩ := Option.map_eq_some_iff.1 hread
    cases hread
    exact (Cursor.reaches_skip_one hrest (by decide)).trans (reaches_of_readAnchor hname)
  | tag htake => exact h.takeWith (reaches_of_readTagToken hsees) htake
  | literal hflow htake => exact h.takeBlock hrest (by decide) htake
  | folded hflow htake => exact h.takeBlock hrest (by decide) htake
  | singleQuoted htake =>
    exact h.takeWith (reaches_of_readQuotedToken hsees (by decide)) htake
  | doubleQuoted htake =>
    exact h.takeWith (reaches_of_readQuotedToken hsees (by decide)) htake
  | plain hmark hplain htake => exact h.takePlain htake

/-- The way to the next token changes nothing but the position. -/
theorem IsLed.skipToToken (h : IsLed lead line lexer) (fuel : Nat) :
    IsLed lead line (skipToToken fuel lexer) := by
  induction fuel generalizing lexer with
  | zero => exact h
  | succ fuel ih =>
    unfold Lexer.skipToToken
    extract_lets start behindMark tabs behindSpaces behindComment
    have hmark : start.Reaches behindMark := Cursor.reaches_behindMark start
    have hspaces : behindMark.Reaches behindSpaces := by
      refine Cursor.reaches_skipRun fun c hc => isBreak_of_isSpace ?_
      simp only [Bool.or_eq_true, Bool.and_eq_true] at hc
      rw [isSpace, Bool.or_eq_true]
      exact hc.imp_right And.right
    have hcomment : start.Reaches behindComment :=
      (hmark.trans hspaces).trans (Cursor.reaches_behindComment _)
    split
    · refine ih ?_
      exact (h.move (hcomment.trans (Cursor.reaches_skipLine _))).allowKey _
    · exact h.move hcomment

/-- **A run keeps the first tokens in front.** -/
theorem IsLed.takeAll {fuel : Nat} (h : IsLed lead line lexer)
    (hrun : takeAll fuel lexer = some lexer') : lead <:+ lexer'.tokens := by
  induction fuel generalizing lexer with
  | zero => cases hrun
  | succ fuel ih =>
    unfold Lexer.takeAll at hrun
    simp only [Option.bind_eq_bind, Option.bind_eq_some_iff] at hrun
    obtain ⟨expired, hexpire, hrun⟩ := hrun
    -- the keys of earlier lines are given up first, which is what the colon relies on
    obtain ⟨hexpired, -, hline⟩ := (h.skipToToken _).expireKeys hexpire
    have hclosed := hexpired.closeBlocks (expired.cursor.column < ·)
    rw [← cursor_closeBlocks expired (expired.cursor.column < ·),
      ← keys_closeBlocks expired (expired.cursor.column < ·)] at hline
    split at hrun
    · exact (hclosed.atMargin hrun).1.suffix
    · next c rest hrest =>
      simp only [Option.bind_eq_some_iff] at hrun
      obtain ⟨taken, htake, hrun⟩ := hrun
      exact ih (hclosed.takeToken hrest hline htake) hrun

end Lexer

end Unreferenced.Yaml
