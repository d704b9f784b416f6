import Mathlib.Data.List.Infix
import Unreferenced.Text.Bytes
import Unreferenced.Text.LowerCase
import Unreferenced.Text.Search

/-!
# Lower case in its surroundings

The lower case of a text is put together character by character, and of all characters only
the capital sigma looks around. So a part of a text is lower-cased by itself, once it is said
what stands before it and behind it (`Unreferenced.Text.lowerWithin`), and the parts are put
side by side (`Unreferenced.Text.lowerWithin_append`). What surrounds a part chooses between
two letters with as many bytes, so the *length* of its lower case in bytes is its own
(`Unreferenced.Text.byteCount_lowerWithin`).

That length need not be the length of the part: of the characters outside ASCII some become
shorter and some longer. Where the lower case of a text ends in ASCII, though, what it was
made from is nearly known. The dotted capital `I` leaves a mark behind its letter, and only
the Kelvin sign becomes a letter of ASCII alone; with the letter `k` set aside, the end of
the lower case comes from an end of the text that is ASCII itself
(`Unreferenced.Text.exists_tail_of_suffix_lowerWithin`).
-/

namespace Unreferenced.Text

/-! ### A part of a text -/

/-- The lower case of some characters, between those `before`, given nearest first, and those
`after`. -/
def lowerWithin : List Char → List Char → List Char → List Char
  | _, [], _ => []
  | before, c :: rest, after =>
    (if c = 'Σ' then [lowerSigma before (rest ++ after)] else lowerChar c) ++
      lowerWithin (c :: before) rest after

variable {before after cs ds : List Char}

/-- The rest of a text has nothing behind it. -/
theorem lowerAfter_eq_lowerWithin (before cs : List Char) :
    lowerAfter before cs = lowerWithin before cs [] := by
  induction cs generalizing before with
  | nil => rfl
  | cons c rest ih => rw [lowerAfter, lowerWithin, ih, List.append_nil]

theorem toList_lower (text : String) : (lower text).toList = lowerWithin [] text.toList [] := by
  rw [lower, String.toList_ofList, lowerAfter_eq_lowerWithin]

/-- **The lower case of two parts**, each with the other beside it. -/
theorem lowerWithin_append (before cs ds after : List Char) :
    lowerWithin before (cs ++ ds) after =
      lowerWithin before cs (ds ++ after) ++ lowerWithin (cs.reverse ++ before) ds after := by
  induction cs generalizing before with
  | nil => rfl
  | cons c rest ih =>
    rw [List.cons_append, lowerWithin, lowerWithin, ih, List.reverse_cons, List.append_assoc,
      List.append_assoc, List.append_assoc]
    rfl

theorem utf8Size_lowerSigma (before after : List Char) : (lowerSigma before after).utf8Size = 2 := by
  rw [lowerSigma]
  split <;> decide

/-- **The surroundings of a text do not change the length of its lower case.** -/
theorem byteCount_lowerWithin (before before' cs after after' : List Char) :
    byteCount (lowerWithin before cs after) = byteCount (lowerWithin before' cs after') := by
  induction cs generalizing before before' with
  | nil => rfl
  | cons c rest ih =>
    rw [lowerWithin, lowerWithin, byteCount_append, byteCount_append, ih (c :: before) (c :: before')]
    split
    · simp only [byteCount, utf8Size_lowerSigma]
    · rfl

/-- Where the capital sigmas have the same forms, the lower case is the same. -/
theorem lowerWithin_congr {before before' cs after after' : List Char}
    (h : ∀ u v, cs = u ++ 'Σ' :: v →
      lowerSigma (u.reverse ++ before) (v ++ after) =
        lowerSigma (u.reverse ++ before') (v ++ after')) :
    lowerWithin before cs after = lowerWithin before' cs after' := by
  induction cs generalizing before before' with
  | nil => rfl
  | cons c rest ih =>
    have hrest : lowerWithin (c :: before) rest after = lowerWithin (c :: before') rest after' := by
      refine ih fun u v hsplit => ?_
      have hform := h (c :: u) v (by rw [hsplit, List.cons_append])
      rwa [List.reverse_cons, List.append_assoc, List.append_assoc] at hform
    rw [lowerWithin, lowerWithin, hrest]
    by_cases hsigma : c = 'Σ'
    · have hform : lowerSigma before (rest ++ after) = lowerSigma before' (rest ++ after') :=
        h [] rest (by rw [hsigma, List.nil_append])
      rw [if_pos hsigma, if_pos hsigma, hform]
    · rw [if_neg hsigma, if_neg hsigma]

/-- **Surroundings count only for the capital sigmas**: the lower case of a text between two
pairs of surroundings is the same exactly when each capital sigma has the same form. -/
theorem lowerWithin_eq_iff {before before' cs after after' : List Char} :
    lowerWithin before cs after = lowerWithin before' cs after' ↔
      ∀ u v, cs = u ++ 'Σ' :: v →
        lowerSigma (u.reverse ++ before) (v ++ after) =
          lowerSigma (u.reverse ++ before') (v ++ after') := by
  constructor
  · rintro h u v rfl
    rw [lowerWithin_append, lowerWithin_append] at h
    -- What stands before the sigma takes as many bytes on both sides.
    have hfront := eq_of_prefix_of_byteCount (List.prefix_append _ _) ⟨_, h.symm⟩
      (byteCount_lowerWithin before before' u ('Σ' :: v ++ after) ('Σ' :: v ++ after'))
    rw [hfront, List.append_cancel_left_eq, lowerWithin, lowerWithin, if_pos rfl, if_pos rfl] at h
    exact (List.cons.inj h).1
  · exact lowerWithin_congr

/-- No character is lower-cased to nothing. -/
theorem lowerChar_ne_nil (c : Char) : lowerChar c ≠ [] := by
  unfold lowerChar
  split
  · simp
  · split <;> simp

/-- Only the empty text is lower-cased to the empty text. -/
theorem lower_eq_empty_iff {text : String} : lower text = "" ↔ text = "" := by
  constructor
  · intro h
    cases hcs : text.toList with
    | nil => simpa using hcs
    | cons c rest =>
      rw [lower, hcs, lowerAfter] at h
      split at h
      · simp at h
      · simp [lowerChar_ne_nil] at h
  · rintro rfl
    rfl

/-! ### What decides the form of a sigma -/

/-- The first character that is not ignorable for case lies in the nearer of two stretches,
unless that has none. -/
theorem meetsCased_append (cs ds : List Char) :
    meetsCased (cs ++ ds) =
      if cs.all caseIgnorableRanges.has then meetsCased ds else meetsCased cs := by
  induction cs with
  | nil => simp
  | cons c rest ih =>
    rw [List.cons_append, meetsCased, meetsCased, List.all_cons, ih]
    by_cases hc : caseIgnorableRanges.has c = true <;> simp [hc]

/-- Behind ignorable characters alone no letter is met. -/
theorem meetsCased_of_all_ignorable {cs : List Char}
    (h : cs.all caseIgnorableRanges.has = true) : meetsCased cs = false := by
  have happend := meetsCased_append cs []
  rwa [List.append_nil, if_pos h] at happend

/-! ### What becomes ASCII -/

/-- Where a run moves a character that it covers, when it stays among the characters. -/
theorem CaseRun.toNat_image {run : CaseRun} {c : Char} (hcovers : run.covers c = true)
    (hvalid : run.last - run.first + run.target < 0xd800 ∨
      0xdfff < run.target ∧ run.last - run.first + run.target < 0x110000) :
    (run.image c).toNat = c.toNat - run.first + run.target := by
  simp only [CaseRun.covers, Bool.and_eq_true, decide_eq_true_eq] at hcovers
  have hchar : (c.toNat - run.first + run.target).isValidChar := by
    rw [Nat.isValidChar]
    omega
  rw [CaseRun.image, Char.ofNat, dif_pos hchar]
  rfl

/-- Every run of the table stays among the characters. -/
theorem isValid_lowerRuns : ∀ run ∈ lowerRuns, run.last - run.first + run.target < 0xd800 ∨
    0xdfff < run.target ∧ run.last - run.first + run.target < 0x110000 := by
  decide +kernel

/-- A run leads into ASCII from ASCII, or it moves a single character to `k`. -/
theorem ascii_lowerRuns : ∀ run ∈ lowerRuns, run.last < 0x80 ∨ 0x80 ≤ run.target ∨
    run.first = run.last ∧ run.target = 'k'.toNat := by
  decide +kernel

/-- **What lower case has in ASCII** comes from ASCII, from the dotted capital `I` or from the
Kelvin sign. -/
theorem ascii_of_mem_lowerChar {c d : Char} (hmem : d ∈ lowerChar c) (hd : d.toNat < 0x80) :
    c.toNat < 0x80 ∨ c = '\u0130' ∧ d = 'i' ∨ d = 'k' := by
  rw [lowerChar] at hmem
  split at hmem
  · next hdotted =>
    rcases List.mem_pair.1 hmem with rfl | rfl
    · exact .inr (.inl ⟨hdotted, rfl⟩)
    · exact absurd hd (by decide)
  · split at hmem
    · next run hrun =>
      obtain rfl := List.mem_singleton.1 hmem
      have hin := List.mem_of_find?_eq_some hrun
      have hcovers : run.covers c = true := by simpa using List.find?_some hrun
      have himage := CaseRun.toNat_image hcovers (isValid_lowerRuns run hin)
      simp only [CaseRun.covers, Bool.and_eq_true, decide_eq_true_eq] at hcovers
      rcases ascii_lowerRuns run hin with hlast | htarget | ⟨hsingle, htarget⟩
      · exact .inl (by omega)
      · omega
      · refine .inr (.inr (Char.toNat_inj.1 ?_))
        omega
    · obtain rfl := List.mem_singleton.1 hmem
      exact .inl hd

/-! ### Texts that keep their length -/

/-- A character that is lower-cased in one way wherever it stands, and to as many bytes as it
has itself. -/
def IsSteady (c : Char) : Prop :=
  c ≠ 'Σ' ∧ byteCount (lowerChar c) = c.utf8Size

instance (c : Char) : Decidable (IsSteady c) :=
  inferInstanceAs (Decidable (_ ∧ _))

theorem isSteady_of_ascii {c : Char} (h : c.toNat < 0x80) : IsSteady c :=
  forall_ascii (P := IsSteady) (by decide +kernel) h

/-- The lower case of steady characters has as many bytes as they have. -/
theorem byteCount_lowerWithin_of_isSteady (h : ∀ c ∈ cs, IsSteady c) (before after : List Char) :
    byteCount (lowerWithin before cs after) = byteCount cs := by
  induction cs generalizing before with
  | nil => rfl
  | cons c rest ih =>
    obtain ⟨hc, hrest⟩ := List.forall_mem_cons.1 h
    rw [lowerWithin, if_neg hc.1, byteCount_append, ih hrest, hc.2, byteCount]

/-- Behind `front` the text is lower-cased as it is alone, and to as many bytes as it has
itself. -/
def LowersInPlace (front text : String) : Prop :=
  (lower text).utf8ByteSize = text.utf8ByteSize ∧
    endsWith (lower (front ++ text)) (lower text) = true

instance (front text : String) : Decidable (LowersInPlace front text) :=
  inferInstanceAs (Decidable (_ ∧ _))

/-- **A text of steady characters is lower-cased in place**, whatever stands before it. -/
theorem lowersInPlace_of_isSteady {text : String} (h : ∀ c ∈ text.toList, IsSteady c)
    (front : String) : LowersInPlace front text := by
  constructor
  · rw [← byteCount_toList, ← byteCount_toList, toList_lower, byteCount_lowerWithin_of_isSteady h]
  · have hin : lowerWithin (front.toList.reverse ++ []) text.toList [] =
        lowerWithin [] text.toList [] := by
      refine lowerWithin_congr fun u v hsplit => absurd rfl (h 'Σ' ?_).1
      rw [hsplit]
      exact List.mem_append_right _ List.mem_cons_self
    rw [endsWith_iff, toList_lower, toList_lower, String.toList_append, lowerWithin_append, hin]
    exact List.suffix_append _ _

/-! ### Texts of ASCII -/

/-- A character of ASCII other than `k`, whose lower case no character outside ASCII has. -/
def IsPlain (c : Char) : Prop :=
  c.toNat < 0x80 ∧ c ≠ 'k' ∧ c ≠ 'K'

instance (c : Char) : Decidable (IsPlain c) :=
  inferInstanceAs (Decidable (_ ∧ _))

/-- The small letter of a plain character is plain. -/
theorem IsPlain.toLower {c : Char} (h : IsPlain c) : IsPlain c.toLower :=
  forall_ascii (P := fun c => IsPlain c → IsPlain c.toLower) (by decide +kernel) h.1 h

/-- Only characters of ASCII have small letters in ASCII. -/
theorem ascii_of_toLower {c : Char} (h : c.toLower.toNat < 0x80) : c.toNat < 0x80 := by
  by_contra hc
  have hsame : c.toLower = c := dif_neg fun hcapital => by
    have hlast : c.toNat ≤ 'Z'.toNat := hcapital.2
    exact hc (Nat.lt_of_le_of_lt hlast (by decide))
  exact hc (hsame ▸ h)

/-- In ASCII the surroundings do not count, and only the capital letters change. -/
theorem lowerWithin_of_ascii (h : ∀ c ∈ cs, c.toNat < 0x80) (before after : List Char) :
    lowerWithin before cs after = cs.map Char.toLower := by
  induction cs generalizing before with
  | nil => rfl
  | cons c rest ih =>
    obtain ⟨hc, hrest⟩ := List.forall_mem_cons.1 h
    have hsigma : c ≠ 'Σ' := by
      rintro rfl
      exact absurd hc (by decide)
    rw [lowerWithin, if_neg hsigma, lowerChar_of_ascii hc, ih hrest, List.map_cons,
      List.singleton_append]

/-- A plain end of what one character becomes is all of it, and the character is ASCII. -/
theorem ascii_of_plain_suffix {c : Char} {ys : List Char} (hne : ys ≠ [])
    (hys : ∀ y ∈ ys, IsPlain y)
    (h : ys <:+ if c = 'Σ' then [lowerSigma before after] else lowerChar c) :
    c.toNat < 0x80 ∧ ys = [c.toLower] := by
  obtain ⟨y, hy⟩ := List.exists_mem_of_ne_nil ys hne
  have hplain := hys y hy
  split at h
  · -- neither form of the sigma is ASCII
    obtain rfl := List.mem_singleton.1 (h.subset hy)
    have hascii := hplain.1
    rw [lowerSigma] at hascii
    split at hascii <;> exact absurd hascii (by decide)
  · rcases ascii_of_mem_lowerChar (h.subset hy) hplain.1 with hc | ⟨rfl, -⟩ | hk
    · rw [lowerChar_of_ascii hc, List.suffix_cons_iff] at h
      exact ⟨hc, h.resolve_right fun hnil => hne (List.suffix_nil.1 hnil)⟩
    · -- the dotted capital leaves its mark behind, which is not ASCII
      have hmark : '\u0307' ∈ ys := by
        obtain ⟨front, hsplit⟩ := h
        have hlast := congrArg List.getLast? hsplit
        rw [List.getLast?_append_of_ne_nil _ hne] at hlast
        exact List.mem_of_getLast? (hlast.trans (by decide +kernel))
      exact absurd (hys _ hmark).1 (by decide)
    · exact absurd hk hplain.2.1

/-- A text whose lower case is plain is ASCII itself. -/
theorem ascii_of_plain_lowerWithin (h : ∀ y ∈ lowerWithin before cs after, IsPlain y) :
    ∀ c ∈ cs, c.toNat < 0x80 := by
  induction cs generalizing before with
  | nil => simp
  | cons c rest ih =>
    rw [lowerWithin, List.forall_mem_append] at h
    refine List.forall_mem_cons.2 ⟨(ascii_of_plain_suffix ?_ h.1 List.suffix_rfl).1, ih h.2⟩
    split
    · simp
    · exact lowerChar_ne_nil c

/-- **A plain end of a lower-cased text** is what an end of the text becomes that is ASCII
itself. -/
theorem exists_tail_of_suffix_lowerWithin {ys : List Char} (hys : ∀ y ∈ ys, IsPlain y)
    (h : ys <:+ lowerWithin before cs after) :
    ∃ front tail, cs = front ++ tail ∧ (∀ c ∈ tail, c.toNat < 0x80) ∧
      tail.map Char.toLower = ys := by
  induction cs generalizing before with
  | nil =>
    rw [lowerWithin, List.suffix_nil] at h
    exact ⟨[], [], rfl, by simp, h.symm⟩
  | cons c rest ih =>
    rw [lowerWithin] at h
    obtain ⟨front, hsplit⟩ := h
    rcases List.append_eq_append_iff.1 hsplit with ⟨part, hpart, rfl⟩ | ⟨skipped, -, hrest⟩
    · obtain ⟨hpart', hrest'⟩ := List.forall_mem_append.1 hys
      have hascii := ascii_of_plain_lowerWithin hrest'
      rw [lowerWithin_of_ascii hascii]
      by_cases hne : part = []
      · exact ⟨[c], rest, rfl, hascii, by rw [hne, List.nil_append]⟩
      · obtain ⟨hc, rfl⟩ := ascii_of_plain_suffix hne hpart' ⟨front, hpart.symm⟩
        exact ⟨[], c :: rest, rfl, List.forall_mem_cons.2 ⟨hc, hascii⟩, rfl⟩
    · obtain ⟨front', tail, rfl, htail⟩ := ih ⟨skipped, hrest.symm⟩
      exact ⟨c :: front', tail, rfl, htail⟩

end Unreferenced.Text
