import Unreferenced.Proofs.Verdict

/-!
# The borders of files in the searched text

The searched text is one text that only grows: each file puts its own text behind what is
there, and a line feed between the two unless there is nothing yet. So the text of the
first files is a beginning of the whole (`Unreferenced.Corpus.prefix_text_ofPushes`), and where a
file stands is decided by the files before it alone
(`Unreferenced.Corpus.getElem?_files_ofPushes`): its span starts where their text and the
line feed end, and the next border is where its own text ends.

From this follows all that the spans are relied on for (`Unreferenced.Corpus.spans_ofPushes`):
one for each file and in the same order, each at borders of characters, one behind the
other with a line feed between, none moved or changed by what is added later. And since
there is a line feed on every border that has text on both sides, a search without one
finds in the whole text what it finds in the files, and every text in which a name is
looked for is such a search (`Unreferenced.Corpus.search_of_files`).
-/

namespace Unreferenced.Corpus

/-! ### Stretches -/

variable {corpus : Corpus} {start stop : Nat} {stretch : List Char}

/-- A stretch ends so many bytes behind its start as it has. -/
theorem HasStretch.stop_eq (h : corpus.HasStretch start stop stretch) :
    stop = start + Text.byteCount stretch := by
  obtain ⟨before, after, htext, rfl, rfl⟩ := h
  exact Text.byteCount_append before stretch

/-- A stretch ends inside the text. -/
theorem HasStretch.stop_le (h : corpus.HasStretch start stop stretch) :
    stop ≤ corpus.text.utf8ByteSize := by
  obtain ⟨before, after, htext, rfl, rfl⟩ := h
  rw [← Text.byteCount_toList, htext, Text.byteCount_append (before ++ stretch)]
  exact Nat.le_add_right _ _

/-- What a beginning of the text ends in is a stretch. -/
theorem hasStretch_of_prefix {before : List Char} (h : before ++ stretch <+: corpus.text.toList) :
    corpus.HasStretch (Text.byteCount before) (Text.byteCount (before ++ stretch)) stretch := by
  obtain ⟨after, hafter⟩ := h
  exact ⟨before, after, hafter.symm, rfl, rfl⟩

/-! ### The text grows at its end -/

/-- The place that a file gets when it is added. -/
def place (corpus : Corpus) (push : Pushed) : CorpusFile :=
  ⟨push.path, push.kind, corpus.front.utf8ByteSize,
    corpus.front.utf8ByteSize + push.text.utf8ByteSize⟩

theorem ofPushes_concat (pushes : List Pushed) (push : Pushed) :
    ofPushes (pushes ++ [push]) = (ofPushes pushes).push push.path push.kind push.text := by
  rw [ofPushes, List.foldl_concat, ← ofPushes]

theorem text_ofPushes_concat (pushes : List Pushed) (push : Pushed) :
    (ofPushes (pushes ++ [push])).text.toList =
      (ofPushes pushes).front.toList ++ push.text.toList := by
  rw [ofPushes_concat, push_eq, String.toList_append]

theorem files_ofPushes_concat (pushes : List Pushed) (push : Pushed) :
    (ofPushes (pushes ++ [push])).files =
      (ofPushes pushes).files ++ [(ofPushes pushes).place push] := by
  rw [ofPushes_concat, push_eq]
  rfl

/-- **The text of the first files is a beginning of the whole text.** -/
theorem prefix_text_ofPushes {pushes all : List Pushed} (h : pushes <+: all) :
    (ofPushes pushes).text.toList <+: (ofPushes all).text.toList := by
  obtain ⟨more, rfl⟩ := h
  induction more using List.reverseRecOn with
  | nil => rw [List.append_nil]
  | append_singleton more push ih =>
    rw [← List.append_assoc, text_ofPushes_concat]
    exact ih.trans ((prefix_front _).trans (List.prefix_append _ _))

theorem length_files_ofPushes (pushes : List Pushed) :
    (ofPushes pushes).files.length = pushes.length := by
  have hpushed := congrArg List.length (pushed_ofPushes pushes)
  rwa [pushed, List.length_map] at hpushed

/-- **Where a file stands is decided by the files before it.** -/
theorem getElem?_files_ofPushes (pushes : List Pushed) (i : Nat) :
    (ofPushes pushes).files[i]? = pushes[i]?.map (ofPushes (pushes.take i)).place := by
  induction pushes using List.reverseRecOn with
  | nil => rfl
  | append_singleton pushes push ih =>
    rw [files_ofPushes_concat]
    rcases lt_trichotomy i pushes.length with hlt | rfl | hgt
    · rw [List.getElem?_append_left (by rwa [length_files_ofPushes]),
        List.getElem?_append_left hlt, List.take_append_of_le_length (Nat.le_of_lt hlt), ih]
    · rw [← length_files_ofPushes pushes, List.getElem?_concat_length, length_files_ofPushes,
        List.getElem?_concat_length, List.take_left, Option.map_some]
    · rw [List.getElem?_eq_none (by simp [length_files_ofPushes]; omega),
        List.getElem?_eq_none (by simp; omega), Option.map_none]

/-! ### Spans and borders -/

section Places

variable {pushes : List Pushed} {i : Nat} {file : CorpusFile}

/-- A file of the corpus comes from the file that was added at its place. -/
theorem exists_push (h : (ofPushes pushes).files[i]? = some file) :
    ∃ push, pushes[i]? = some push ∧ file = (ofPushes (pushes.take i)).place push := by
  rw [getElem?_files_ofPushes, Option.map_eq_some_iff] at h
  obtain ⟨push, hpush, rfl⟩ := h
  exact ⟨push, hpush, rfl⟩

/-- The text of the files up to and with one of them. -/
theorem text_take_succ {push : Pushed} (h : pushes[i]? = some push) :
    (ofPushes (pushes.take (i + 1))).text.toList =
      (ofPushes (pushes.take i)).front.toList ++ push.text.toList := by
  rw [List.take_add_one, h, Option.toList_some, text_ofPushes_concat]

theorem start_eq (h : (ofPushes pushes).files[i]? = some file) :
    file.start = Text.byteCount (ofPushes (pushes.take i)).front.toList := by
  obtain ⟨push, -, rfl⟩ := exists_push h
  exact (Text.byteCount_toList _).symm

theorem stop_eq (h : (ofPushes pushes).files[i]? = some file) :
    file.stop = Text.byteCount (ofPushes (pushes.take (i + 1))).text.toList := by
  obtain ⟨push, hpush, rfl⟩ := exists_push h
  rw [text_take_succ hpush, Text.byteCount_append, Text.byteCount_toList, Text.byteCount_toList]
  rfl

/-- **The span of a file is its text.** -/
theorem hasStretch_span {push : Pushed} (hfile : (ofPushes pushes).files[i]? = some file)
    (hpush : pushes[i]? = some push) :
    (ofPushes pushes).HasStretch file.start file.stop push.text.toList := by
  rw [start_eq hfile, stop_eq hfile, text_take_succ hpush]
  refine hasStretch_of_prefix ?_
  rw [← text_take_succ hpush]
  exact prefix_text_ofPushes (List.take_prefix _ _)

/-- Nothing is written as long as all files are empty. -/
theorem text_ofPushes_eq_empty_iff (pushes : List Pushed) :
    (ofPushes pushes).text = "" ↔ ∀ push ∈ pushes, push.text = "" := by
  induction pushes using List.reverseRecOn with
  | nil => simp [ofPushes]
  | append_singleton pushes push ih =>
    have hfront : (ofPushes pushes).front = "" ↔ (ofPushes pushes).text = "" := by
      rw [front]
      split
      · next h => exact iff_of_true rfl (String.isEmpty_iff.1 h)
      · next h => simp [String.isEmpty_iff.not.1 h]
    rw [ofPushes_concat, push_eq, String.append_eq_empty_iff, hfront, ih]
    simp [or_imp, forall_and]

/-- **Between two files stands a line feed**, or nothing when all files so far are empty. -/
theorem hasStretch_border {next : CorpusFile} (hfile : (ofPushes pushes).files[i]? = some file)
    (hnext : (ofPushes pushes).files[i + 1]? = some next) :
    (ofPushes pushes).HasStretch file.stop next.start
      (if (ofPushes (pushes.take (i + 1))).text.isEmpty then [] else ['\n']) := by
  obtain ⟨push, hpush, -⟩ := exists_push hnext
  have hfront : (ofPushes (pushes.take (i + 1))).front.toList =
      (ofPushes (pushes.take (i + 1))).text.toList ++
        if (ofPushes (pushes.take (i + 1))).text.isEmpty then [] else ['\n'] := by
    rw [front]
    split
    · next h => simp [String.isEmpty_iff.1 h]
    · rw [String.toList_append]
      rfl
  have hprefix := prefix_text_ofPushes (List.take_prefix (i + 1 + 1) pushes)
  rw [text_take_succ hpush] at hprefix
  rw [stop_eq hfile, start_eq hnext, hfront]
  exact hasStretch_of_prefix (hfront ▸ (List.prefix_append _ _).trans hprefix)

/-- A file ends before every later one starts. -/
theorem stop_le_start {j : Nat} {next : CorpusFile} (hij : i < j)
    (hfile : (ofPushes pushes).files[i]? = some file)
    (hnext : (ofPushes pushes).files[j]? = some next) : file.stop ≤ next.start := by
  rw [stop_eq hfile, start_eq hnext]
  have hprefix := (prefix_text_ofPushes (List.take_prefix_take_left (l := pushes) hij)).trans
    (prefix_front _)
  obtain ⟨more, hmore⟩ := hprefix
  rw [← hmore, Text.byteCount_append]
  exact Nat.le_add_right _ _

/-- **A file has the text that was added**, and keeps it whatever is added later. -/
theorem contents?_ofPushes {push : Pushed} (hfile : (ofPushes pushes).files[i]? = some file)
    (hpush : pushes[i]? = some push) : (ofPushes pushes).contents? file = some push.text := by
  have hspan : (ofPushes pushes).IsSpan file push.text.toList := hasStretch_span hfile hpush
  rw [hspan.contents?_eq, String.ofList_toList]

end Places

theorem prefix_files_ofPushes (pushes more : List Pushed) :
    (ofPushes pushes).files <+: (ofPushes (pushes ++ more)).files := by
  induction more using List.reverseRecOn with
  | nil => rw [List.append_nil]
  | append_singleton more push ih =>
    rw [← List.append_assoc, files_ofPushes_concat]
    exact ih.trans (List.prefix_append _ _)

/-- **The spans give back what was added.** There is one file for each that was added, in
the same order and with its path and kind. Its span lies inside the text, on borders of
characters, so that its text can always be cut out, and the text is the one that was added.
Each span ends before the next ones start, and from the end of one to the start of the next
there is nothing while all files so far are empty, and just a line feed from then on. What
is added later leaves the files, their spans and their texts as they are. -/
theorem spans_ofPushes (pushes : List Pushed) :
    (ofPushes pushes).files.map (fun file => (file.path, file.kind)) =
        pushes.map (fun push => (push.path, push.kind)) ∧
      (∀ (i : Nat) (file : CorpusFile) (push : Pushed),
        (ofPushes pushes).files[i]? = some file → pushes[i]? = some push →
          file.start ≤ file.stop ∧ file.stop ≤ (ofPushes pushes).text.utf8ByteSize ∧
          (ofPushes pushes).HasStretch file.start file.stop push.text.toList ∧
          (ofPushes pushes).contents? file = some push.text) ∧
      (ofPushes pushes).files.Pairwise (fun file next => file.stop ≤ next.start) ∧
      (∀ (i : Nat) (file next : CorpusFile),
        (ofPushes pushes).files[i]? = some file → (ofPushes pushes).files[i + 1]? = some next →
          ((∀ push ∈ pushes.take (i + 1), push.text = "") → next.start = file.stop) ∧
          ((∃ push ∈ pushes.take (i + 1), push.text ≠ "") → next.start = file.stop + 1 ∧
            (ofPushes pushes).HasStretch file.stop next.start ['\n'])) ∧
      ∀ more : List Pushed, (ofPushes pushes).files <+: (ofPushes (pushes ++ more)).files ∧
        ∀ file ∈ (ofPushes pushes).files,
          (ofPushes (pushes ++ more)).contents? file = (ofPushes pushes).contents? file := by
  refine ⟨?_, fun i file push hfile hpush => ?_, ?_, fun i file next hfile hnext => ?_,
    fun more => ⟨prefix_files_ofPushes pushes more, fun file hmem => ?_⟩⟩
  · refine List.ext_getElem? fun i => ?_
    rw [List.getElem?_map, List.getElem?_map, getElem?_files_ofPushes, Option.map_map]
    rfl
  · have hspan := hasStretch_span hfile hpush
    exact ⟨hspan.stop_eq ▸ Nat.le_add_right _ _, hspan.stop_le, hspan,
      contents?_ofPushes hfile hpush⟩
  · rw [List.pairwise_iff_getElem]
    intro i j hi hj hij
    exact stop_le_start hij (List.getElem?_eq_getElem hi) (List.getElem?_eq_getElem hj)
  · have hborder := hasStretch_border hfile hnext
    have hempty : (ofPushes (pushes.take (i + 1))).text.isEmpty = true ↔
        ∀ push ∈ pushes.take (i + 1), push.text = "" := by
      rw [String.isEmpty_iff, text_ofPushes_eq_empty_iff]
    constructor
    · intro hall
      rw [if_pos (hempty.2 hall)] at hborder
      exact hborder.stop_eq
    · rintro ⟨push, hpush, hne⟩
      rw [if_neg fun h => hne (hempty.1 h push hpush)] at hborder
      exact ⟨hborder.stop_eq, hborder⟩
  · obtain ⟨i, hfile⟩ := List.getElem?_of_mem hmem
    obtain ⟨push, hpush, -⟩ := exists_push hfile
    have hlater : (ofPushes (pushes ++ more)).files[i]? = some file := by
      obtain ⟨later, hlater⟩ := prefix_files_ofPushes pushes more
      obtain ⟨hi, -⟩ := List.getElem?_eq_some_iff.1 hfile
      rw [← hlater, List.getElem?_append_left hi, hfile]
    have hpushLater : (pushes ++ more)[i]? = some push := by
      obtain ⟨hi, -⟩ := List.getElem?_eq_some_iff.1 hpush
      rw [List.getElem?_append_left hi, hpush]
    rw [contents?_ofPushes hfile hpush, contents?_ofPushes hlater hpushLater]

/-- Two empty files, one with a character of two bytes, and one that begins with a line
feed. -/
def unevenFiles : List Pushed :=
  [⟨⟨"Empty.swift"⟩, .source, ""⟩,
    ⟨⟨"Empty.xib"⟩, .markup, ""⟩,
    ⟨⟨"A.swift"⟩, .source, "é(\"ic"⟩,
    ⟨⟨"B.swift"⟩, .source, "\non\")"⟩]

/-- The empty files stand at the same place as the first one with a text, and the last one
begins behind two line feeds, the border and its own. -/
theorem uneven_files_given_back :
    (ofPushes unevenFiles).files.map (fun file => (file.start, file.stop)) =
        [(0, 0), (0, 0), (0, 6), (7, 12)] ∧
      (ofPushes unevenFiles).contents? ⟨⟨"A.swift"⟩, .source, 0, 6⟩ = some "é(\"ic" ∧
      (ofPushes unevenFiles).HasStretch 6 7 ['\n'] ∧
      (ofPushes (unevenFiles ++ unevenFiles)).contents? ⟨⟨"A.swift"⟩, .source, 0, 6⟩ =
        some "é(\"ic" := by
  obtain ⟨-, htexts, -, hborders, hlater⟩ := spans_ofPushes unevenFiles
  have hthird : (ofPushes unevenFiles).files[2]? = some ⟨⟨"A.swift"⟩, .source, 0, 6⟩ := by
    decide +kernel
  have hlast : (ofPushes unevenFiles).files[3]? = some ⟨⟨"B.swift"⟩, .source, 7, 12⟩ := by
    decide +kernel
  have hcontents := (htexts 2 _ _ hthird rfl).2.2.2
  have hwritten : ∃ push ∈ unevenFiles.take (2 + 1), push.text ≠ "" :=
    ⟨⟨⟨"A.swift"⟩, .source, "é(\"ic"⟩, by decide, by decide⟩
  exact ⟨by decide +kernel, hcontents, ((hborders 2 _ _ hthird hlast).2 hwritten).2,
    ((hlater unevenFiles).2 _ (List.mem_of_getElem? hthird)).trans hcontents⟩

/-! ### Searches -/

/-- **Searching the whole text is searching each file**, for every text that is not empty
and has no line feed, whatever files there are and however many of them are empty. All texts
in which a name is looked for are of this kind, once the name can be searched for at all. -/
theorem search_of_files :
    (∀ (pushes : List Pushed) (pattern : String), pattern ≠ "" → '\n' ∉ pattern.toList →
      ((ofPushes pushes).contains pattern = true ↔
        ∃ push ∈ pushes, Text.contains push.text pattern = true)) ∧
      ∀ name : String, nameFault? name = none → ∀ form : ReferenceForm,
        form.text name ≠ "" ∧ '\n' ∉ (form.text name).toList :=
  ⟨fun pushes _ hne hline => contains_ofPushes_iff pushes hne hline,
    fun name hname form => ⟨form.text_ne_empty name,
      form.newline_not_mem_text (newline_not_mem_of_nameFault? hname)⟩⟩

/-- What begins in one file and ends in the next is not found, and a name with a space in
it is looked for in texts without a line feed. -/
theorem uneven_files_searched :
    (ofPushes unevenFiles).contains "icon" = false ∧
      (ofPushes unevenFiles).contains "on\")" = true ∧
      nameFault? "app icon" = none ∧
      '\n' ∉ (ReferenceForm.nameAttribute.text "app icon").toList := by
  obtain ⟨hsearch, hforms⟩ := search_of_files
  have hname : nameFault? "app icon" = none := by decide +kernel
  have hicon := hsearch unevenFiles "icon" (by decide) (by decide)
  have hend := hsearch unevenFiles "on\")" (by decide) (by decide)
  refine ⟨Bool.eq_false_iff.2 fun h => ?_, hend.2 ?_, hname, (hforms _ hname _).2⟩
  · exact absurd (hicon.1 h) (by decide +kernel)
  · decide +kernel

/-- A text with a line feed can be found across a border. -/
example : (ofPushes [⟨⟨"A"⟩, .source, "a"⟩, ⟨⟨"B"⟩, .source, "b"⟩]).contains "a\nb" = true := by
  decide +kernel

end Unreferenced.Corpus
