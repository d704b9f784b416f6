import Mathlib.Data.List.Perm.Basic
import Unreferenced.Proofs.Verdict

/-!
# What a verdict depends on

A corpus is more than a verdict needs. For an image only the texts count, of whatever
files they are; for a type only interface files and the source files elsewhere
(`Unreferenced.Pushed.CountsFor`). The rest plays no part: the order of the files, the
files at the type's own path, however that path is written, and all that are neither
sources nor interface files. Two lists of files in which the same files count have the
same verdict, although the two texts and all spans differ.

The main statements, `Unreferenced.Corpus.symbolVerdict_of_files` and
`Unreferenced.Corpus.assetVerdict_of_files`, say what the verdict is and what it does not
depend on, for every list of files: with repeated paths, empty texts, and kinds that are
never looked into.
-/

namespace Unreferenced

/-! ### What counts -/

namespace Pushed

/-- The file can reference a type that is declared at the path: it is a source file
elsewhere or an interface file. -/
def CountsFor (path : FilePath) (file : Pushed) : Prop :=
  file.IsElsewhere path ∨ file.kind = .markup

instance (path : FilePath) (file : Pushed) : Decidable (file.CountsFor path) :=
  inferInstanceAs (Decidable (_ ∨ _))

/-- Another way to write the path leaves the same files elsewhere. -/
theorem isElsewhere_congr {path path' : FilePath} (h : path.Same path') {file : Pushed} :
    file.IsElsewhere path ↔ file.IsElsewhere path' := by
  have hsame : file.path.Same path ↔ file.path.Same path' :=
    ⟨fun hpath => hpath.trans h, fun hpath => hpath.trans h.symm⟩
  rw [IsElsewhere, IsElsewhere, hsame]

/-- **The form of a type is found in the files that count**: lists in which the same files
count for the path have the same form. -/
theorem typeForm?_congr {files files' : List Pushed} {path path' : FilePath}
    (hpath : path.Same path')
    (hfiles : ∀ file : Pushed, file.CountsFor path → (file ∈ files ↔ file ∈ files'))
    (name : String) : typeForm? files name path = typeForm? files' name path' := by
  have helsewhere : ∀ p : Pushed → Prop,
      (∃ file ∈ files, file.IsElsewhere path ∧ p file) ↔
        ∃ file ∈ files', file.IsElsewhere path' ∧ p file := by
    intro p
    refine exists_congr fun file => ?_
    rw [← isElsewhere_congr hpath]
    exact and_congr_left fun hfile => hfiles file (.inl hfile.1)
  have hmarkup : ∀ p : Pushed → Prop,
      (∃ file ∈ files, file.kind = .markup ∧ p file) ↔
        ∃ file ∈ files', file.kind = .markup ∧ p file := by
    intro p
    exact exists_congr fun file => and_congr_left fun hfile => hfiles file (.inr hfile.1)
  simp only [typeForm?, helsewhere, hmarkup]

/-- **The form of an image is found in the texts**, of whatever files they are. -/
theorem imageForm?_congr {files files' : List Pushed}
    (htexts : ∀ text, text ∈ files.map (·.text) ↔ text ∈ files'.map (·.text)) (name : String) :
    imageForm? files name = imageForm? files' name := by
  have hexists : ∀ list : List Pushed,
      (∃ file ∈ list, Text.contains file.text ("\"" ++ name ++ "\"") = true) ↔
        ∃ text ∈ list.map (·.text), Text.contains text ("\"" ++ name ++ "\"") = true := by
    intro list
    simp only [List.mem_map, exists_exists_and_eq_and]
  simp only [imageForm?, hexists, htexts]

end Pushed

namespace Corpus

/-! ### Types -/

/-- **The verdict on a type depends on the files that count, and on nothing else.** It is
an error exactly for the names that cannot be searched for, and else the first form in
which the files that count reference the name. Lists with the same such files, in any
order and with any other files between them, have the same verdict, however the path of
the declaring file is written. -/
theorem symbolVerdict_of_files (pushes : List Pushed) (name : String) (path : FilePath) :
    ((ofPushes pushes).symbolVerdict name path =
      match nameFault? name with
      | some fault => .error fault
      | none => .ok ⟨Pushed.typeForm? pushes name path⟩) ∧
    ∀ (others : List Pushed) (path' : FilePath), path.Same path' →
      (pushes.filter (·.CountsFor path)).Perm (others.filter (·.CountsFor path)) →
      (ofPushes others).symbolVerdict name path' = (ofPushes pushes).symbolVerdict name path := by
  refine ⟨symbolVerdict_eq_typeForm? pushes name path, fun others path' hpath hperm => ?_⟩
  have hfiles : ∀ file : Pushed, file.CountsFor path → (file ∈ pushes ↔ file ∈ others) := by
    intro file hcounts
    have hmem := hperm.mem_iff (a := file)
    simpa only [List.mem_filter, hcounts, decide_true, and_true] using hmem
  rw [symbolVerdict_eq_typeForm?, symbolVerdict_eq_typeForm?,
    Pushed.typeForm?_congr hpath hfiles name]

/-- A type that its own file declares, another one uses as a value, and an interface file
names. -/
def barFiles : List Pushed :=
  [⟨⟨"src/A.swift"⟩, .source, "class Bar {}"⟩,
    ⟨⟨"Main.xib"⟩, .markup, "customClass=\"Bar\""⟩,
    ⟨⟨"src/B.swift"⟩, .source, "show(Bar.self)"⟩]

/-- The same files in another order, with an image between them, and with a call in the
declaring file, whose path is written in another way. -/
def barFilesMoved : List Pushed :=
  [⟨⟨"src/B.swift"⟩, .source, "show(Bar.self)"⟩,
    ⟨⟨"Bar.png"⟩, .image, "Bar("⟩,
    ⟨⟨"Main.xib"⟩, .markup, "customClass=\"Bar\""⟩,
    ⟨⟨"src//A.swift"⟩, .source, "class Bar {} Bar()"⟩]

/-- The use as a value is the verdict on both lists. -/
theorem bar_used_as_value :
    FilePath.Same ⟨"src/A.swift"⟩ ⟨"src/./A.swift"⟩ ∧
      (barFiles.filter (·.CountsFor ⟨"src/A.swift"⟩)).Perm
        (barFilesMoved.filter (·.CountsFor ⟨"src/A.swift"⟩)) ∧
      (ofPushes barFiles).symbolVerdict "Bar" ⟨"src/A.swift"⟩ = .ok ⟨some .metatype⟩ ∧
      (ofPushes barFilesMoved).symbolVerdict "Bar" ⟨"src/./A.swift"⟩ = .ok ⟨some .metatype⟩ := by
  have hpath : FilePath.Same ⟨"src/A.swift"⟩ ⟨"src/./A.swift"⟩ := by decide
  have hperm : (barFiles.filter (·.CountsFor ⟨"src/A.swift"⟩)).Perm
      (barFilesMoved.filter (·.CountsFor ⟨"src/A.swift"⟩)) := by decide +kernel
  obtain ⟨hverdict, hsame⟩ := symbolVerdict_of_files barFiles "Bar" ⟨"src/A.swift"⟩
  have hfirst := hverdict.trans (show _ = .ok ⟨some .metatype⟩ by decide +kernel)
  exact ⟨hpath, hperm, hfirst, (hsame _ _ hpath hperm).trans hfirst⟩

/-! ### Images -/

/-- **The verdict on an image depends on the texts that there are.** It is an error exactly
for the names that cannot be searched for, and else says whether some file has the name
between quotes; no other form is ever found. The list of verdicts passes over the names
with an error and keeps the rest of the registry as it is. In another order the files
have the same verdicts. -/
theorem assetVerdict_of_files (pushes : List Pushed) :
    (∀ name, (ofPushes pushes).assetVerdict name =
      match nameFault? name with
      | some fault => .error fault
      | none => .ok ⟨Pushed.imageForm? pushes name⟩) ∧
    (∀ registry, (ofPushes pushes).assetVerdicts registry =
      (registry.entries.filter fun entry => nameFault? entry.name = none).map fun entry =>
        (entry, ⟨Pushed.imageForm? pushes entry.name⟩)) ∧
    ∀ others, pushes.Perm others →
      ∀ name, (ofPushes others).assetVerdict name = (ofPushes pushes).assetVerdict name := by
  refine ⟨assetVerdict_eq_imageForm? pushes, assetVerdicts_eq_map pushes,
    fun others hperm name => ?_⟩
  have hform : Pushed.imageForm? others name = Pushed.imageForm? pushes name :=
    Pushed.imageForm?_congr (fun text => (hperm.map (·.text)).symm.mem_iff) name
  rw [assetVerdict_eq_imageForm?, assetVerdict_eq_imageForm?, hform]

/-- A name that begins in one file and ends in the next, and a name in an attribute. -/
def iconFiles : List Pushed :=
  [⟨⟨"A.swift"⟩, .source, "load(\"ic"⟩,
    ⟨⟨"B.swift"⟩, .source, "on\")"⟩,
    ⟨⟨"Main.xib"⟩, .markup, "<image name=\"close\"/>"⟩]

/-- The first name is not referenced and the second one is, also from the last file to the
first. -/
theorem icon_not_across_files :
    iconFiles.Perm iconFiles.reverse ∧
      (ofPushes iconFiles.reverse).assetVerdict "icon" = .ok ⟨none⟩ ∧
      (ofPushes iconFiles.reverse).assetVerdict "close" = .ok ⟨some .quotedLiteral⟩ := by
  have hperm : iconFiles.Perm iconFiles.reverse := iconFiles.reverse_perm.symm
  obtain ⟨hverdict, -, horder⟩ := assetVerdict_of_files iconFiles
  have hicon := (hverdict "icon").trans (show _ = .ok ⟨none⟩ by decide +kernel)
  have hclose := (hverdict "close").trans (show _ = .ok ⟨some .quotedLiteral⟩ by decide +kernel)
  exact ⟨hperm, (horder _ hperm "icon").trans hicon, (horder _ hperm "close").trans hclose⟩

end Corpus

end Unreferenced
