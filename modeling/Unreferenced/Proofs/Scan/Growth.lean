import Unreferenced.Proofs.Scan
import Unreferenced.Proofs.Walk.Growth

/-!
# Adding a file un-references nothing

A name that is referenced in a project is still referenced when the project gains a file,
whatever the file is and wherever it is put
(`Unreferenced.FileTree.references_of_gainsFile`). For images this is so because the old
texts are still searched. For types one thing could go wrong: references in the declaring
file do not count, and the new file may become the declaring file. But then it is *not* the
old file with the reference, so that reference counts still; and if it does not become the
declaring file, then that file is the old one, since the old files keep their order
(`Unreferenced.isTypeReferenced_of_sublist`).
-/

namespace Unreferenced

variable {settings : Settings} {passes : Passes} {root : FilePath} {name : String}

/-! ### Referenced names -/

/-- The scan has collected an image with the name, and the verdict on it is that it is
referenced. -/
def Scan.ReferencesAsset (scan : Scan) (name : String) : Prop :=
  ∃ entry ∈ scan.assets.entries, entry.name = name ∧
    ∃ verdict, scan.corpus.assetVerdict name = .ok verdict ∧ verdict.isReferenced = true

/-- The scan has collected a type with the name, and the verdict on it and its file is that
it is referenced. -/
def Scan.ReferencesSymbol (scan : Scan) (name : String) : Prop :=
  ∃ entry ∈ scan.symbols.entries, entry.name = name ∧
    ∃ verdict, scan.corpus.symbolVerdict name entry.path = .ok verdict ∧
      verdict.isReferenced = true

/-- The referenced images are those that the list of verdicts says are. -/
theorem Scan.referencesAsset_iff {scan : Scan} :
    scan.ReferencesAsset name ↔
      ∃ entry verdict, (entry, verdict) ∈ scan.assetVerdicts ∧ entry.name = name ∧
        verdict.isReferenced = true := by
  simp only [ReferencesAsset, assetVerdicts, Corpus.mem_assetVerdicts_iff]
  constructor
  · rintro ⟨entry, hmem, rfl, verdict, hverdict, hreferenced⟩
    exact ⟨entry, verdict, ⟨hmem, hverdict⟩, rfl, hreferenced⟩
  · rintro ⟨entry, verdict, ⟨hmem, hverdict⟩, rfl, hreferenced⟩
    exact ⟨entry, hmem, rfl, verdict, hverdict, hreferenced⟩

/-- The same for types, as long as the name is not known. -/
theorem Scan.referencesSymbol_iff {scan : Scan} {settings : SymbolSettings}
    (hknown : settings.isKnown name = false) :
    scan.ReferencesSymbol name ↔
      ∃ entry verdict, (entry, verdict) ∈ scan.symbolVerdicts settings ∧ entry.name = name ∧
        verdict.isReferenced = true := by
  simp only [ReferencesSymbol, symbolVerdicts, Corpus.mem_symbolVerdicts_iff]
  constructor
  · rintro ⟨entry, hmem, rfl, verdict, hverdict, hreferenced⟩
    exact ⟨entry, verdict, ⟨hmem, hknown, hverdict⟩, rfl, hreferenced⟩
  · rintro ⟨entry, verdict, ⟨hmem, -, hverdict⟩, rfl, hreferenced⟩
    exact ⟨entry, hmem, rfl, verdict, hverdict, hreferenced⟩

/-! ### Referenced names of a list of files -/

variable {files files' : List ProjectFile}

theorem Scan.referencesAsset_ofFiles_iff :
    (Scan.ofFiles settings passes root files).ReferencesAsset name ↔
      passes.assets = true ∧ imagesNamed settings files name ≠ [] ∧ nameFault? name = none ∧
        IsImageReferenced files name := by
  by_cases hpasses : passes.assets = true
  · simp only [ReferencesAsset, ofFiles, hpasses, if_true, true_and]
    constructor
    · rintro ⟨entry, hmem, hname, verdict, hverdict, hreferenced⟩
      exact ⟨(exists_entry_collectAssets_iff.1 ⟨entry, hmem, hname, rfl⟩).1,
        (Corpus.exists_assetVerdict_iff _).1 ⟨verdict, hverdict⟩,
        (isReferenced_assetVerdict_collectText_iff hverdict).1 hreferenced⟩
    · rintro ⟨hne, hfault, hreferenced⟩
      obtain ⟨entry, hmem, hname, -⟩ := exists_entry_collectAssets_iff.2 ⟨hne, rfl⟩
      obtain ⟨verdict, hverdict⟩ := (collectText files).exists_assetVerdict_iff.2 hfault
      exact ⟨entry, hmem, hname, verdict, hverdict,
        (isReferenced_assetVerdict_collectText_iff hverdict).2 hreferenced⟩
  · simp [ReferencesAsset, ofFiles, hpasses]

theorem Scan.referencesSymbol_ofFiles_iff :
    (Scan.ofFiles settings passes root files).ReferencesSymbol name ↔
      passes.symbols = true ∧ ∃ last,
        IsLastWith (·.Declares settings.symbols name) (ofKind .source files) last ∧
          IsTypeReferenced files name last.path := by
  by_cases hpasses : passes.symbols = true
  · simp only [ReferencesSymbol, ofFiles, hpasses, if_true, true_and]
    constructor
    · rintro ⟨entry, hmem, rfl, verdict, hverdict, hreferenced⟩
      obtain ⟨last, hlast, hsame⟩ := exists_entry_typesIn_iff.1 ⟨entry, hmem, rfl, rfl⟩
      refine ⟨last, hlast, ?_⟩
      rw [hsame]
      exact (isReferenced_symbolVerdict_collectText_iff hverdict).1 hreferenced
    · rintro ⟨last, hlast, hreferenced⟩
      obtain ⟨entry, hmem, hname, hentryPath⟩ := exists_entry_typesIn_iff.2 ⟨last, hlast, rfl⟩
      obtain ⟨verdict, hverdict⟩ := (collectText files).exists_symbolVerdict entry.path
        (nameFault?_of_mem_declaredNames hlast.holds)
      refine ⟨entry, hmem, hname, verdict, hverdict, ?_⟩
      rw [isReferenced_symbolVerdict_collectText_iff hverdict, hentryPath]
      exact hreferenced
  · simp [ReferencesSymbol, ofFiles, hpasses]

/-! ### More files -/

section MoreFiles

variable (hsub : files.Sublist files')

include hsub

theorem isImageReferenced_of_sublist (h : IsImageReferenced files name) :
    IsImageReferenced files' name := by
  obtain ⟨file, hmem, hcontains⟩ := h
  exact ⟨file, (hsub.filter _).subset hmem, hcontains⟩

theorem imagesNamed_ne_nil_of_sublist (h : imagesNamed settings files name ≠ []) :
    imagesNamed settings files' name ≠ [] := by
  obtain ⟨file, hmem, hname⟩ := imagesNamed_ne_nil_iff.1 h
  exact imagesNamed_ne_nil_iff.2 ⟨file, (hsub.filter _).subset hmem, hname⟩

/-- **A referenced type stays referenced among more files**, whichever file is then the last
to declare it: an old file is the same as before, and a new one is not the file with the
reference. -/
theorem isTypeReferenced_of_sublist {settings : SymbolSettings} {last last' : ProjectFile}
    (hpaths : files'.Pairwise fun f g => ¬f.path.Same g.path)
    (hlast : IsLastWith (·.Declares settings name) (ofKind .source files) last)
    (hlast' : IsLastWith (·.Declares settings name) (ofKind .source files') last')
    (h : IsTypeReferenced files name last.path) : IsTypeReferenced files' name last'.path := by
  have hsources : (ofKind .source files).Sublist (ofKind .source files') := hsub.filter _
  rcases h with ⟨other, hother, hpath, hcontains⟩ | ⟨other, hother, hcontains⟩
  · refine .inl ⟨other, hsources.subset hother, ?_, hcontains⟩
    by_cases hold : last' ∈ ofKind .source files
    · -- No declaring file came behind the old one, since the old files keep their order.
      have hnodup : (ofKind .source files').Nodup := by
        refine (hpaths.filter _).imp fun {f g} hnot => ?_
        rintro rfl
        exact hnot (.refl _)
      obtain rfl := hlast.unique (hlast'.of_sublist hsources hold hnodup)
      exact hpath
    · -- The file with the reference is an old one, so it is not the new last one.
      intro hsame
      obtain rfl := eq_of_same_path hpaths (mem_ofKind.1 (hsources.subset hother)).1
        (mem_ofKind.1 hlast'.mem).1 hsame
      exact hold hother
  · exact .inr ⟨other, (hsub.filter _).subset hother, hcontains⟩

end MoreFiles

/-! ### One more file in a project -/

/-- **Adding a file un-references nothing.** A directory that can be scanned can still be
scanned when the project has one regular file more, and every image and every type that
was referenced still is. -/
theorem FileTree.references_of_gainsFile {tree tree' : FileTree}
    (hgains : GainsFile tree.entries tree'.entries) (hlawful : tree'.isLawful = true)
    (hworking : tree'.workingDirectory = tree.workingDirectory) {scan : Scan}
    (hscan : tree.scan settings passes root = .ok scan) :
    ∃ scan', tree'.scan settings passes root = .ok scan' ∧
      (∀ name, scan.ReferencesAsset name → scan'.ReferencesAsset name) ∧
      ∀ name, scan.ReferencesSymbol name → scan'.ReferencesSymbol name := by
  obtain ⟨hroot, rfl⟩ := scan_eq_ok_iff.1 hscan
  obtain ⟨position, entries, hplace⟩ := isDirectory_iff.1 hroot
  obtain ⟨entries', hplace', -⟩ := find?_of_gains (.inr hgains) hlawful hworking hplace
  have hsub := projectFiles_sublist_of_gains (.inr hgains) hlawful hworking hroot settings
  have hpaths := pairwise_projectFiles hlawful hplace' settings
  refine ⟨_, scan_eq_ok_iff.2 ⟨isDirectory_iff.2 ⟨position, entries', hplace'⟩, rfl⟩, ?_, ?_⟩
  · intro name h
    obtain ⟨hpasses, hne, hfault, hreferenced⟩ := Scan.referencesAsset_ofFiles_iff.1 h
    exact Scan.referencesAsset_ofFiles_iff.2 ⟨hpasses, imagesNamed_ne_nil_of_sublist hsub hne,
      hfault, isImageReferenced_of_sublist hsub hreferenced⟩
  · intro name h
    obtain ⟨hpasses, last, hlast, hreferenced⟩ := Scan.referencesSymbol_ofFiles_iff.1 h
    obtain ⟨last', hlast'⟩ := exists_isLastWith (p := (·.Declares settings.symbols name))
      ⟨last, (hsub.filter _).subset hlast.mem, hlast.holds⟩
    exact Scan.referencesSymbol_ofFiles_iff.2 ⟨hpasses, last', hlast',
      isTypeReferenced_of_sublist hsub hpaths hlast hlast' hreferenced⟩

/-- A project in which one file declares a type and another calls it. -/
def callingTree : FileTree where
  entries := [.directory "app"
    [.file "Home.swift" "class Home {}".toUTF8, .file "Start.swift" "Home()".toUTF8]]
  workingDirectory := []

/-- The same project with a later file that declares the type once more. -/
def redeclaringTree : FileTree where
  entries := [.directory "app"
    [.file "Home.swift" "class Home {}".toUTF8, .file "Start.swift" "Home()".toUTF8,
      .file "Zone.swift" "class Home {}".toUTF8]]
  workingDirectory := []

/-- The type stays referenced although another file becomes the one that declares it. -/
theorem FileTree.home_still_referenced :
    GainsFile callingTree.entries redeclaringTree.entries ∧ redeclaringTree.isLawful = true ∧
      ∃ scan scan', callingTree.scan sampleSettings {} ⟨"app"⟩ = .ok scan ∧
        redeclaringTree.scan sampleSettings {} ⟨"app"⟩ = .ok scan' ∧
        scan.ReferencesSymbol "Home" ∧ scan'.ReferencesSymbol "Home" := by
  have hfile : GainsFile
      [.file "Home.swift" "class Home {}".toUTF8, .file "Start.swift" "Home()".toUTF8]
      [.file "Home.swift" "class Home {}".toUTF8, .file "Start.swift" "Home()".toUTF8,
        .file "Zone.swift" "class Home {}".toUTF8] :=
    @GainsFile.inside
      [.file "Home.swift" "class Home {}".toUTF8, .file "Start.swift" "Home()".toUTF8] [] _ _
  have hgains : GainsFile callingTree.entries redeclaringTree.entries :=
    @GainsFile.deeper [] [] _ _ _ hfile
  have hlawful : redeclaringTree.isLawful = true := by decide
  have hscan : callingTree.scan sampleSettings {} ⟨"app"⟩ =
      .ok (.ofFiles sampleSettings {} ⟨"app"⟩
        (callingTree.projectFiles sampleSettings ⟨"app"⟩)) :=
    scan_eq_ok_iff.2 ⟨by decide, rfl⟩
  have hreferenced : (Scan.ofFiles sampleSettings {} ⟨"app"⟩
      (callingTree.projectFiles sampleSettings ⟨"app"⟩)).ReferencesSymbol "Home" := by
    refine ⟨⟨"Home", ⟨"app/Home.swift"⟩, []⟩, by decide +kernel, rfl, ⟨some .call⟩, ?_, rfl⟩
    decide +kernel
  obtain ⟨scan', hscan', -, hsymbols⟩ := references_of_gainsFile hgains hlawful rfl hscan
  exact ⟨hgains, hlawful, _, scan', hscan, hscan', hreferenced, hsymbols _ hreferenced⟩

end Unreferenced
