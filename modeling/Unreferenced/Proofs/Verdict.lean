import Mathlib.Data.List.Basic
import Unreferenced.Asset.Search
import Unreferenced.Symbol.Search
import Unreferenced.Proofs.Asset.Registry
import Unreferenced.Proofs.Corpus
import Unreferenced.Proofs.Declaration

/-!
# Verdicts by file

The search for a name runs on one text, or on stretches of it. What it decides can be said
without either: an image is found in the one form that can be found, its name between
quotes, when some file has it (`Unreferenced.Pushed.imageForm?`), and a type in the first
of three forms that *any* of its files has (`Unreferenced.Pushed.typeForm?`): a call in a
source file at *another* path, a use as a value in such a file, a class of an interface
file. The verdicts are these forms (`Unreferenced.Corpus.assetVerdict_eq_imageForm?`,
`Unreferenced.Corpus.symbolVerdict_eq_typeForm?`), and from them follows when a name is
referenced (`Unreferenced.Corpus.isReferenced_assetVerdict_iff`,
`Unreferenced.Corpus.isReferenced_symbolVerdict_iff`).
-/

namespace Unreferenced

/-! ### The texts of references -/

theorem ReferenceForm.text_ne_empty (form : ReferenceForm) (name : String) :
    form.text name ≠ "" := by
  cases form <;> simp [text]

/-- A reference has a line feed only where the name has one. -/
theorem ReferenceForm.newline_not_mem_text (form : ReferenceForm) {name : String}
    (h : '\n' ∉ name.toList) : '\n' ∉ (form.text name).toList := by
  cases form <;> simp [text, String.toList_append, h]

/-- A name that can be searched for has no line feed. -/
theorem newline_not_mem_of_nameFault? {name : String} (h : nameFault? name = none) :
    '\n' ∉ name.toList := by
  intro hmem
  have hliteral := (nameFault?_eq_none_iff.1 h).2 _ hmem
  simp [endsLiteral] at hliteral

/-- The value of an attribute stands between quotes. -/
theorem quotedLiteral_infix_nameAttribute (name : String) :
    (ReferenceForm.quotedLiteral.text name).toList <:+:
      (ReferenceForm.nameAttribute.text name).toList := by
  have hsplit : ReferenceForm.nameAttribute.text name =
      "name=" ++ ReferenceForm.quotedLiteral.text name := by
    simp only [ReferenceForm.text, ← String.append_assoc]
    rfl
  rw [hsplit, String.toList_append]
  exact List.infix_append_right

/-! ### The forms that files have -/

namespace Pushed

/-- The form in which the files reference an image: some file has its name between quotes,
in whatever text that is. -/
def imageForm? (files : List Pushed) (name : String) : Option ReferenceForm :=
  if ∃ file ∈ files, Text.contains file.text ("\"" ++ name ++ "\"") = true then
    some .quotedLiteral
  else none

/-- The file is a source file, and not the one at the path. -/
def IsElsewhere (path : FilePath) (file : Pushed) : Prop :=
  file.kind = .source ∧ ¬file.path.Same path

instance (path : FilePath) (file : Pushed) : Decidable (file.IsElsewhere path) :=
  inferInstanceAs (Decidable (_ ∧ _))

/-- The first form in which the files reference a type that is declared at the path: a
call, a use as a value, a class of an interface file. -/
def typeForm? (files : List Pushed) (name : String) (path : FilePath) : Option ReferenceForm :=
  if ∃ file ∈ files, file.IsElsewhere path ∧ Text.contains file.text (name ++ "(") = true then
    some .call
  else if ∃ file ∈ files, file.IsElsewhere path ∧
      Text.contains file.text (name ++ ".self") = true then
    some .metatype
  else if ∃ file ∈ files, file.kind = .markup ∧
      Text.contains file.text ("customClass=\"" ++ name ++ "\"") = true then
    some .customClass
  else none

theorem isSome_imageForm?_iff {files : List Pushed} {name : String} :
    (imageForm? files name).isSome = true ↔
      ∃ file ∈ files, Text.contains file.text ("\"" ++ name ++ "\"") = true := by
  rw [imageForm?]
  split
  · next hquoted => exact iff_of_true rfl hquoted
  · next hquoted => exact iff_of_false Bool.false_ne_true hquoted

/-- Some form is found when a source file elsewhere has one of the first two, or an
interface file has the third. -/
theorem isSome_typeForm?_iff {files : List Pushed} {name : String} {path : FilePath} :
    (typeForm? files name path).isSome = true ↔
      (∃ file ∈ files, file.kind = .source ∧ ¬file.path.Same path ∧
        (Text.contains file.text (name ++ "(") = true ∨
          Text.contains file.text (name ++ ".self") = true)) ∨
      ∃ file ∈ files, file.kind = .markup ∧
        Text.contains file.text ("customClass=\"" ++ name ++ "\"") = true := by
  rw [typeForm?]
  split
  · next hcall =>
    obtain ⟨file, hmem, ⟨hkind, hpath⟩, hfound⟩ := hcall
    exact iff_of_true rfl (.inl ⟨file, hmem, hkind, hpath, .inl hfound⟩)
  · next hcall =>
    split
    · next hvalue =>
      obtain ⟨file, hmem, ⟨hkind, hpath⟩, hfound⟩ := hvalue
      exact iff_of_true rfl (.inl ⟨file, hmem, hkind, hpath, .inr hfound⟩)
    · next hvalue =>
      split
      · next hclass => exact iff_of_true rfl (.inr hclass)
      · next hclass =>
        refine iff_of_false Bool.false_ne_true ?_
        rintro (⟨file, hmem, hkind, hpath, hfound | hfound⟩ | hfound)
        · exact hcall ⟨file, hmem, ⟨hkind, hpath⟩, hfound⟩
        · exact hvalue ⟨file, hmem, ⟨hkind, hpath⟩, hfound⟩
        · exact hclass hfound

end Pushed

/-! ### Elements with their results -/

section Results

variable {α β ε : Type} {result : α → Except ε β}

/-- The elements of a list that have a result, each with its own. -/
def withResults (result : α → Except ε β) (as : List α) : List (α × β) :=
  as.filterMap fun a => (result a).toOption.map (a, ·)

theorem mem_withResults_iff {as : List α} {a : α} {b : β} :
    (a, b) ∈ withResults result as ↔ a ∈ as ∧ result a = .ok b := by
  rw [withResults, List.mem_filterMap]
  constructor
  · rintro ⟨known, hmem, h⟩
    cases hresult : result known with
    | error fault =>
      rw [hresult] at h
      cases h
    | ok found =>
      rw [hresult] at h
      obtain ⟨rfl, rfl⟩ := Prod.mk.inj (Option.some.inj h)
      exact ⟨hmem, hresult⟩
  · rintro ⟨hmem, hresult⟩
    exact ⟨a, hmem, by rw [hresult]; rfl⟩

/-- The elements are not repeated and stay in order. -/
theorem map_fst_withResults_sublist (result : α → Except ε β) (as : List α) :
    ((withResults result as).map (·.1)).Sublist as := by
  induction as with
  | nil => exact .slnil
  | cons a rest ih =>
    rw [withResults, List.filterMap_cons]
    cases result a with
    | error fault => exact ih.cons a
    | ok found => exact ih.cons_cons a

/-- When all have a result, all are there. -/
theorem map_fst_withResults {as : List α} (h : ∀ a ∈ as, ∃ b, result a = .ok b) :
    (withResults result as).map (·.1) = as := by
  rw [withResults, List.map_filterMap]
  refine (List.filterMap_congr fun a hmem => ?_).trans List.filterMap_some
  obtain ⟨b, hresult⟩ := h a hmem
  rw [hresult]
  rfl

end Results

namespace Corpus

variable {pushes : List Pushed} {name : String}

/-! ### Images -/

/-- **The verdict on an image** is an error for a name that cannot be searched for, and
else the form in which the files have it; the attribute form is never the one that is
found. -/
theorem assetVerdict_eq_imageForm? (pushes : List Pushed) (name : String) :
    (ofPushes pushes).assetVerdict name =
      match nameFault? name with
      | some fault => .error fault
      | none => .ok ⟨Pushed.imageForm? pushes name⟩ := by
  rw [assetVerdict]
  cases hname : nameFault? name with
  | some fault => rfl
  | none =>
    have hline := newline_not_mem_of_nameFault? hname
    have hsearch : ∀ form : ReferenceForm, (ofPushes pushes).contains (form.text name) = true ↔
        ∃ file ∈ pushes, Text.contains file.text (form.text name) = true := fun form =>
      contains_ofPushes_iff pushes (form.text_ne_empty name) (form.newline_not_mem_text hline)
    refine congrArg (fun form? => Except.ok (Verdict.mk form?)) ?_
    rw [Pushed.imageForm?]
    split
    · next hfile =>
      have hquoted := (hsearch .quotedLiteral).2 hfile
      simp only [assetForms, List.find?_cons, hquoted]
    · next hfile =>
      -- The attribute contains the literal, so it is not found without it.
      have hquoted := mt (hsearch .quotedLiteral).1 hfile
      have hattribute :
          ¬(ofPushes pushes).contains (ReferenceForm.nameAttribute.text name) = true := by
        intro hcontains
        obtain ⟨file, hmem, hfound⟩ := (hsearch .nameAttribute).1 hcontains
        refine hfile ⟨file, hmem, Text.contains_iff.2 ?_⟩
        exact (quotedLiteral_infix_nameAttribute name).trans (Text.contains_iff.1 hfound)
      rw [Bool.not_eq_true] at hquoted hattribute
      simp only [assetForms, List.find?_cons, hquoted, hattribute, List.find?_nil]

/-- An image is referenced when some file has its name between quotes. -/
theorem isReferenced_assetVerdict_iff {verdict : Verdict}
    (h : (ofPushes pushes).assetVerdict name = .ok verdict) :
    verdict.isReferenced = true ↔
      ∃ file ∈ pushes, Text.contains file.text (ReferenceForm.quotedLiteral.text name) = true := by
  rw [assetVerdict_eq_imageForm?] at h
  cases hname : nameFault? name with
  | some fault =>
    rw [hname] at h
    cases h
  | none =>
    rw [hname, Except.ok.injEq] at h
    subst h
    exact Pushed.isSome_imageForm?_iff

/-! ### Types -/

/-- Looking through files chosen by path and kind is looking through what was added under
them. -/
theorem anyContains_filter (pushes : List Pushed) (choice : FilePath → FileKind → Bool)
    (pattern : String) :
    (ofPushes pushes).anyContains
        ((ofPushes pushes).files.filter fun file => choice file.path file.kind) pattern = true ↔
      ∃ file ∈ pushes, choice file.path file.kind = true ∧
        Text.contains file.text pattern = true := by
  have hpushed : (ofPushes pushes).anyContains
      ((ofPushes pushes).files.filter fun file => choice file.path file.kind) pattern =
        (ofPushes pushes).pushed.any fun file =>
          choice file.path file.kind && Text.contains file.text pattern := by
    rw [anyContains, pushed, List.any_map, List.any_filter]
    rfl
  rw [hpushed, pushed_ofPushes]
  simp only [List.any_eq_true, Bool.and_eq_true]

theorem anyContains_sourcesBut_iff {path : FilePath} {pattern : String} :
    (ofPushes pushes).anyContains ((ofPushes pushes).sourcesBut path) pattern = true ↔
      ∃ file ∈ pushes, file.IsElsewhere path ∧ Text.contains file.text pattern = true := by
  have hfilter := anyContains_filter pushes (fun p kind => !p.Same path && kind == .source) pattern
  rw [sourcesBut, sources, filesOfKind, List.filter_filter, hfilter]
  simp only [Pushed.IsElsewhere, Bool.and_eq_true, Bool.not_eq_true', decide_eq_false_iff_not,
    beq_iff_eq, and_comm]

theorem anyContains_markup_iff {pattern : String} :
    (ofPushes pushes).anyContains (ofPushes pushes).markup pattern = true ↔
      ∃ file ∈ pushes, file.kind = .markup ∧ Text.contains file.text pattern = true := by
  have hfilter := anyContains_filter pushes (fun _ kind => kind == .markup) pattern
  rw [markup, filesOfKind, hfilter]
  simp only [beq_iff_eq]

/-- **The verdict on a type** is an error for a name that cannot be searched for, and else
the first form in which the files reference it. -/
theorem symbolVerdict_eq_typeForm? (pushes : List Pushed) (name : String) (path : FilePath) :
    (ofPushes pushes).symbolVerdict name path =
      match nameFault? name with
      | some fault => .error fault
      | none => .ok ⟨Pushed.typeForm? pushes name path⟩ := by
  rw [symbolVerdict]
  cases hname : nameFault? name with
  | some fault => rfl
  | none =>
    refine congrArg (fun form? => Except.ok (Verdict.mk form?)) ?_
    simp only [Pushed.typeForm?, symbolSourceForms, symbolMarkupForms, List.find?_cons,
      List.find?_nil, ReferenceForm.text, ← anyContains_sourcesBut_iff, ← anyContains_markup_iff]
    -- Both sides ask the same questions in the same order.
    split
    · next hcall => rw [if_pos hcall, Option.some_or]
    · next hcall =>
      rw [if_neg (Bool.eq_false_iff.1 hcall)]
      split
      · next hvalue => rw [if_pos hvalue, Option.some_or]
      · next hvalue =>
        rw [if_neg (Bool.eq_false_iff.1 hvalue), Option.none_or]
        split
        · next hclass => rw [if_pos hclass]
        · next hclass => rw [if_neg (Bool.eq_false_iff.1 hclass)]

/-- A type is referenced when a source file at another path calls it or uses it as a
value, or an interface file names it as a class. -/
theorem isReferenced_symbolVerdict_iff {path : FilePath} {verdict : Verdict}
    (h : (ofPushes pushes).symbolVerdict name path = .ok verdict) :
    verdict.isReferenced = true ↔
      (∃ file ∈ pushes, file.kind = .source ∧ ¬file.path.Same path ∧
        (Text.contains file.text (ReferenceForm.call.text name) = true ∨
          Text.contains file.text (ReferenceForm.metatype.text name) = true)) ∨
      ∃ file ∈ pushes, file.kind = .markup ∧
        Text.contains file.text (ReferenceForm.customClass.text name) = true := by
  rw [symbolVerdict_eq_typeForm?] at h
  cases hname : nameFault? name with
  | some fault =>
    rw [hname] at h
    cases h
  | none =>
    rw [hname, Except.ok.injEq] at h
    subst h
    exact Pushed.isSome_typeForm?_iff

/-! ### Lists of verdicts -/

theorem assetVerdicts_eq_withResults (corpus : Corpus) (registry : AssetRegistry) :
    corpus.assetVerdicts registry =
      withResults (fun entry => corpus.assetVerdict entry.name) registry.entries := by
  refine List.filterMap_congr fun entry _ => ?_
  dsimp only
  cases corpus.assetVerdict entry.name <;> rfl

theorem symbolVerdicts_eq_withResults (corpus : Corpus) (settings : SymbolSettings)
    (registry : SymbolRegistry) :
    corpus.symbolVerdicts settings registry =
      withResults (fun entry => corpus.symbolVerdict entry.name entry.path)
        (registry.entries.filter fun entry => !settings.isKnown entry.name) := by
  refine List.filterMap_congr fun entry _ => ?_
  dsimp only
  cases corpus.symbolVerdict entry.name entry.path <;> rfl

/-- The names that can be searched for are those that have a verdict. -/
theorem exists_assetVerdict_iff (corpus : Corpus) :
    (∃ verdict, corpus.assetVerdict name = .ok verdict) ↔ nameFault? name = none := by
  rw [assetVerdict]
  cases nameFault? name <;> simp

/-- A name that can be searched for has a verdict. -/
theorem exists_symbolVerdict (corpus : Corpus) (path : FilePath)
    (h : nameFault? name = none) :
    ∃ verdict, corpus.symbolVerdict name path = .ok verdict := by
  rw [symbolVerdict, h]
  exact ⟨_, rfl⟩

/-- Every image that can be searched for has its verdict in the list. -/
theorem mem_assetVerdicts_iff {corpus : Corpus} {registry : AssetRegistry} {entry : AssetEntry}
    {verdict : Verdict} :
    (entry, verdict) ∈ corpus.assetVerdicts registry ↔
      entry ∈ registry.entries ∧ corpus.assetVerdict entry.name = .ok verdict := by
  rw [assetVerdicts_eq_withResults, mem_withResults_iff]

/-- The list of verdicts leaves out the names that cannot be searched for, and keeps the
other entries in their order. -/
theorem assetVerdicts_eq_map (pushes : List Pushed) (registry : AssetRegistry) :
    (ofPushes pushes).assetVerdicts registry =
      (registry.entries.filter fun entry => nameFault? entry.name = none).map fun entry =>
        (entry, ⟨Pushed.imageForm? pushes entry.name⟩) := by
  rw [← List.filterMap_eq_map, List.filterMap_filter, assetVerdicts]
  refine List.filterMap_congr fun entry _ => ?_
  rw [assetVerdict_eq_imageForm?]
  cases nameFault? entry.name <;> rfl

/-- An image has at most one verdict, in the order of the entries. -/
theorem map_name_assetVerdicts_sublist (corpus : Corpus) (registry : AssetRegistry) :
    ((corpus.assetVerdicts registry).map fun p => p.1.name).Sublist registry.names := by
  have hentries := map_fst_withResults_sublist
    (fun entry : AssetEntry => corpus.assetVerdict entry.name) registry.entries
  rw [← assetVerdicts_eq_withResults] at hentries
  have hnames := hentries.map AssetEntry.name
  rw [List.map_map] at hnames
  exact hnames

/-- Every type that is not known and can be searched for has its verdict in the list. -/
theorem mem_symbolVerdicts_iff {corpus : Corpus} {settings : SymbolSettings}
    {registry : SymbolRegistry} {entry : SymbolEntry} {verdict : Verdict} :
    (entry, verdict) ∈ corpus.symbolVerdicts settings registry ↔
      entry ∈ registry.entries ∧ settings.isKnown entry.name = false ∧
        corpus.symbolVerdict entry.name entry.path = .ok verdict := by
  rw [symbolVerdicts_eq_withResults, mem_withResults_iff, List.mem_filter, Bool.not_eq_true',
    and_assoc]

/-- When all names can be searched for, the list has one verdict for each that is not
known. -/
theorem map_fst_symbolVerdicts {corpus : Corpus} {settings : SymbolSettings}
    {registry : SymbolRegistry}
    (h : ∀ entry ∈ registry.entries, nameFault? entry.name = none) :
    (corpus.symbolVerdicts settings registry).map (·.1) =
      registry.entries.filter fun entry => !settings.isKnown entry.name := by
  rw [symbolVerdicts_eq_withResults]
  refine map_fst_withResults fun entry hmem => ?_
  exact exists_symbolVerdict corpus entry.path (h entry (List.mem_filter.1 hmem).1)

end Corpus

end Unreferenced
