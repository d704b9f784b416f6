import Mathlib.Logic.Basic
import Unreferenced.Corpus

/-!
# What a corpus gives back

A corpus is one text with spans; what was put into it is a list of files with their texts.
This file goes from the one to the other. A span is *sound* when it cuts the text at
characters, and adding a file keeps the old spans sound, since it only adds text behind
them. So the spans give back every text as it was added
(`Unreferenced.Corpus.pushed_ofPushes`).

The search of the whole text needs no spans. A text without a line feed that occurs in it
cannot reach across a border, as there is a line feed on every border, or nothing at all
on one side of it; it occurs in one of the files
(`Unreferenced.Corpus.contains_ofPushes_iff`).
-/

namespace Unreferenced

/-! ### Occurrences and separators -/

namespace Text

/-- A beginning without the separator lies before the separator. -/
theorem prefix_of_prefix_append {sep : Char} {pattern cs ds : List Char} (hsep : sep ∉ pattern)
    (h : pattern <+: cs ++ sep :: ds) : pattern <+: cs := by
  induction cs generalizing pattern with
  | nil =>
    cases pattern with
    | nil => exact List.nil_prefix
    | cons c pattern =>
      obtain ⟨rfl, -⟩ := List.cons_prefix_cons.1 h
      exact absurd List.mem_cons_self hsep
  | cons d cs ih =>
    cases pattern with
    | nil => exact List.nil_prefix
    | cons c pattern =>
      obtain ⟨rfl, hrest⟩ := List.cons_prefix_cons.1 h
      exact List.cons_prefix_cons.2 ⟨rfl, ih (fun hc => hsep (List.mem_cons_of_mem _ hc)) hrest⟩

/-- **An occurrence without the separator lies on one side of it.** -/
theorem infix_append_iff {sep : Char} {pattern cs ds : List Char} (hsep : sep ∉ pattern) :
    pattern <:+: cs ++ sep :: ds ↔ pattern <:+: cs ∨ pattern <:+: ds := by
  constructor
  · intro h
    induction cs with
    | nil =>
      rcases List.infix_cons_iff.1 h with hstart | hrest
      · exact .inl (prefix_of_prefix_append hsep hstart).isInfix
      · exact .inr hrest
    | cons c cs ih =>
      rcases List.infix_cons_iff.1 h with hstart | hrest
      · have hcs : pattern <+: c :: cs := prefix_of_prefix_append hsep hstart
        exact .inl hcs.isInfix
      · rcases ih hrest with hcs | hds
        · exact .inl (List.infix_cons_iff.2 (.inr hcs))
        · exact .inr hds
  · rintro (hcs | hds)
    · exact List.infix_append_of_infix_left hcs
    · exact List.infix_append_of_infix_right (List.infix_cons_iff.2 (.inr hds))

end Text

/-! ### Spans -/

/-- A file as it is added to a corpus. -/
structure Pushed where
  /-- The path of the file. -/
  path : FilePath
  /-- The kind of the file. -/
  kind : FileKind
  /-- The text of the file. -/
  text : String
deriving DecidableEq

namespace Corpus

/-- The corpus after adding files to an empty one, in order. -/
def ofPushes (pushes : List Pushed) : Corpus :=
  pushes.foldl (fun corpus file => corpus.push file.path file.kind file.text) {}

/-- The files of a corpus with the texts that their spans give. -/
def pushed (corpus : Corpus) : List Pushed :=
  corpus.files.map fun file => ⟨file.path, file.kind, corpus.contents file⟩

/-- The bytes from `start` to `stop` of the searched text are the given characters, and
whole characters stand on both sides of them. -/
def HasStretch (corpus : Corpus) (start stop : Nat) (stretch : List Char) : Prop :=
  ∃ before after, corpus.text.toList = before ++ stretch ++ after ∧
    Text.byteCount before = start ∧ Text.byteCount (before ++ stretch) = stop

/-- The span of a file cuts a stretch out of the text. -/
def IsSpan (corpus : Corpus) (file : CorpusFile) (stretch : List Char) : Prop :=
  corpus.HasStretch file.start file.stop stretch

/-- Every span of the corpus cuts its text at characters. -/
def IsSound (corpus : Corpus) : Prop :=
  ∀ file ∈ corpus.files, ∃ stretch, corpus.IsSpan file stretch

/-- A span can be cut out, and gives its stretch. -/
theorem IsSpan.contents?_eq {corpus : Corpus} {file : CorpusFile} {stretch : List Char}
    (h : corpus.IsSpan file stretch) : corpus.contents? file = some (String.ofList stretch) := by
  obtain ⟨before, after, htext, hstart, hstop⟩ := h
  have hlength : file.stop - file.start = Text.byteCount stretch := by
    rw [← hstop, ← hstart, Text.byteCount_append]
    omega
  have hdrop : Text.dropBytes? file.start corpus.text.toList = some (stretch ++ after) :=
    Text.dropBytes?_eq_some_iff.2 ⟨before, hstart, by rw [htext, List.append_assoc]⟩
  have htake : Text.takeBytes? (file.stop - file.start) (stretch ++ after) = some stretch :=
    Text.takeBytes?_eq_some_iff.2 ⟨hlength.symm, List.prefix_append _ _⟩
  rw [contents?, hdrop, Option.bind_some, htake, Option.map_some]

theorem IsSpan.contents_eq {corpus : Corpus} {file : CorpusFile} {stretch : List Char}
    (h : corpus.IsSpan file stretch) : corpus.contents file = String.ofList stretch := by
  rw [contents, h.contents?_eq, Option.getD_some]

/-- What stands before the text of the next file. -/
def front (corpus : Corpus) : String :=
  if corpus.text.isEmpty then "" else corpus.text ++ "\n"

theorem prefix_front (corpus : Corpus) : corpus.text.toList <+: corpus.front.toList := by
  rw [front]
  split
  · next h => simp [String.isEmpty_iff.1 h]
  · rw [String.toList_append]
    exact List.prefix_append _ _

theorem push_eq (corpus : Corpus) (path : FilePath) (kind : FileKind) (text : String) :
    corpus.push path kind text =
      { text := corpus.front ++ text
        files := corpus.files ++ [⟨path, kind, corpus.front.utf8ByteSize,
          corpus.front.utf8ByteSize + text.utf8ByteSize⟩] } :=
  rfl

/-- A span keeps its stretch when a file is added. -/
theorem IsSpan.push {corpus : Corpus} {file : CorpusFile} {stretch : List Char}
    (h : corpus.IsSpan file stretch) (path : FilePath) (kind : FileKind) (text : String) :
    (corpus.push path kind text).IsSpan file stretch := by
  obtain ⟨before, after, htext, hstart, hstop⟩ := h
  obtain ⟨more, hmore⟩ := corpus.prefix_front
  refine ⟨before, after ++ more ++ text.toList, ?_, hstart, hstop⟩
  rw [push_eq, String.toList_append, ← hmore, htext]
  simp

/-- The span of the file that is added last gives its text. -/
theorem isSpan_push (corpus : Corpus) (path : FilePath) (kind : FileKind) (text : String) :
    (corpus.push path kind text).IsSpan ⟨path, kind, corpus.front.utf8ByteSize,
      corpus.front.utf8ByteSize + text.utf8ByteSize⟩ text.toList := by
  refine ⟨corpus.front.toList, [], ?_, Text.byteCount_toList _, ?_⟩
  · rw [push_eq, String.toList_append, List.append_nil]
  · rw [Text.byteCount_append, Text.byteCount_toList, Text.byteCount_toList]

theorem IsSound.push {corpus : Corpus} (h : corpus.IsSound) (path : FilePath) (kind : FileKind)
    (text : String) : (corpus.push path kind text).IsSound := by
  intro file hmem
  rw [push_eq, List.mem_append, List.mem_singleton] at hmem
  rcases hmem with hold | rfl
  · obtain ⟨stretch, hspan⟩ := h file hold
    exact ⟨stretch, hspan.push path kind text⟩
  · exact ⟨text.toList, isSpan_push corpus path kind text⟩

/-- **Adding a file adds it to what the spans give back**, and changes nothing before
it. -/
theorem pushed_push {corpus : Corpus} (h : corpus.IsSound) (path : FilePath) (kind : FileKind)
    (text : String) :
    (corpus.push path kind text).pushed = corpus.pushed ++ [⟨path, kind, text⟩] := by
  have hold : ∀ file ∈ corpus.files,
      (corpus.push path kind text).contents file = corpus.contents file := by
    intro file hmem
    obtain ⟨stretch, hspan⟩ := h file hmem
    rw [hspan.contents_eq, (hspan.push path kind text).contents_eq]
  have hnew := (isSpan_push corpus path kind text).contents_eq
  rw [String.ofList_toList] at hnew
  have hfiles : (corpus.push path kind text).files = corpus.files ++
      [⟨path, kind, corpus.front.utf8ByteSize,
        corpus.front.utf8ByteSize + text.utf8ByteSize⟩] := rfl
  rw [pushed, pushed, hfiles, List.map_append, List.map_singleton, hnew]
  exact congrArg (· ++ _) (List.map_congr_left fun file hmem => by rw [hold file hmem])

theorem isSound_foldl_push {pushes : List Pushed} {corpus : Corpus} (h : corpus.IsSound) :
    (pushes.foldl (fun corpus file => corpus.push file.path file.kind file.text) corpus).IsSound ∧
      (pushes.foldl (fun corpus file => corpus.push file.path file.kind file.text)
        corpus).pushed = corpus.pushed ++ pushes := by
  induction pushes generalizing corpus with
  | nil => exact ⟨h, (List.append_nil _).symm⟩
  | cons file rest ih =>
    obtain ⟨hsound, hpushed⟩ := ih (h.push file.path file.kind file.text)
    refine ⟨hsound, ?_⟩
    rw [List.foldl_cons, hpushed, pushed_push h, List.append_assoc, List.singleton_append]

/-- **The spans of a corpus give back what was added**, file by file and in order. -/
theorem pushed_ofPushes (pushes : List Pushed) : (ofPushes pushes).pushed = pushes := by
  have hempty : ({} : Corpus).IsSound := fun file hmem => absurd hmem List.not_mem_nil
  exact (isSound_foldl_push hempty).2

/-! ### Occurrences in the whole text -/

variable {pattern : String}

/-- A search without a line feed finds in the new text what it finds in the old one or in
the added file. -/
theorem contains_push_iff (corpus : Corpus) (path : FilePath) (kind : FileKind) (text : String)
    (hne : pattern ≠ "") (hline : '\n' ∉ pattern.toList) :
    (corpus.push path kind text).contains pattern = true ↔
      corpus.contains pattern = true ∨ Text.contains text pattern = true := by
  rw [contains, contains, Text.contains_iff, Text.contains_iff, Text.contains_iff, push_eq, front]
  split
  · -- Behind an empty text there is no border.
    next hempty =>
    have hnil : ¬pattern.toList <:+: ([] : List Char) := by
      rw [List.infix_nil]
      simpa using hne
    simp [String.isEmpty_iff.1 hempty, hnil]
  · have hborder : (corpus.text ++ "\n" ++ text).toList =
        corpus.text.toList ++ '\n' :: text.toList := by
      simp [String.toList_append]
    rw [hborder]
    exact Text.infix_append_iff hline

/-- **Searching the whole text is searching each file.** -/
theorem contains_ofPushes_iff (pushes : List Pushed) (hne : pattern ≠ "")
    (hline : '\n' ∉ pattern.toList) :
    (ofPushes pushes).contains pattern = true ↔
      ∃ file ∈ pushes, Text.contains file.text pattern = true := by
  have hrun : ∀ corpus : Corpus,
      (pushes.foldl (fun corpus file => corpus.push file.path file.kind file.text)
        corpus).contains pattern = true ↔
      corpus.contains pattern = true ∨ ∃ file ∈ pushes, Text.contains file.text pattern = true := by
    induction pushes with
    | nil => simp
    | cons file rest ih =>
      intro corpus
      rw [List.foldl_cons, ih, contains_push_iff corpus _ _ _ hne hline, or_assoc]
      simp
  have hempty : ¬({} : Corpus).contains pattern = true := by
    rw [contains, Text.contains_iff]
    simpa using hne
  rw [ofPushes, hrun]
  exact or_iff_right hempty

end Corpus

end Unreferenced
