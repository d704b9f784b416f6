import Unreferenced.Proofs.Report.Assets
import Unreferenced.Proofs.Report.Shared
import Unreferenced.Proofs.Report.Symbols

/-!
# Names that are kept out of a report

The settings name what is never to be reported: retained names, and the names of a
framework or of the language. They keep such names out of the two lists of unreferenced
names, retained ones by a test of the report and known ones by the lack of a verdict. The
two lists of shared names are made without any test, so these settings change nothing
about them (`Unreferenced.FileTree.report_keepsOut`), and a name that is never to be
reported does appear there
(`Unreferenced.FileTree.shared_names_ignore_retain`).
-/

namespace Unreferenced

variable {settings : Settings} {passes : Passes} {root : FilePath}

/-! ### The settings of names -/

/-- The settings with other retain patterns, other framework prefixes and other names of
types of the language. -/
def Settings.naming (settings : Settings) (retained prefixes types : List String) : Settings :=
  { settings with
    retainPatterns := retained
    symbols :=
      { settings.symbols with frameworkPrefixes := prefixes, builtinTypes := types } }

section OtherNames

variable (settings : Settings) (retained prefixes types : List String)

mutual

/-- A walk does not look at the settings of names. -/
theorem filesAt_naming : ∀ (above : List String) (entry : Entry),
    filesAt (settings.naming retained prefixes types) above entry = filesAt settings above entry
  | above, .file name contents => by
    rw [filesAt, filesAt]
    rfl
  | above, .directory name entries => by
    rw [filesAt, filesAt, filesAtEach_naming]
    rfl
  | above, .link name target => by rw [filesAt, filesAt]

/-- The same for each entry of a directory. -/
theorem filesAtEach_naming : ∀ (above : List String) (entries : List Entry),
    filesAtEach (settings.naming retained prefixes types) above entries =
      filesAtEach settings above entries
  | above, [] => by rw [filesAtEach, filesAtEach]
  | above, entry :: rest => by
    rw [filesAtEach, filesAtEach, filesAt_naming, filesAtEach_naming]

end

/-- **A scan collects the same**, whatever names are never to be reported. -/
theorem FileTree.scan_naming (tree : FileTree) (passes : Passes) (root : FilePath) :
    tree.scan (settings.naming retained prefixes types) passes root =
      tree.scan settings passes root := by
  have hwalk : regularFiles (settings.naming retained prefixes types) = regularFiles settings := by
    funext entries
    rw [regularFiles, regularFiles, filesAtEach_naming]
  have hfound : tree.found (settings.naming retained prefixes types) root =
      tree.found settings root := by
    rw [found, found, hwalk]
    rfl
  have hfiles : tree.projectFiles (settings.naming retained prefixes types) root =
      tree.projectFiles settings root := by
    rw [projectFiles, projectFiles, hfound]
    rfl
  rw [scan, scan, hfiles]
  rfl

end OtherNames

/-! ### The lists of unreferenced names -/

theorem Scan.retain_of_mem_unreferencedAssets {scan : Scan} {asset : UnreferencedAsset}
    (h : asset ∈ (scan.report settings).unreferencedAssets) :
    settings.retain asset.name = false :=
  (mem_reportedAssets_iff.1 h).1

theorem Scan.retain_of_mem_unreferencedSymbols {scan : Scan} {symbol : UnreferencedSymbol}
    (h : symbol ∈ (scan.report settings).unreferencedSymbols) :
    settings.retain symbol.name = false :=
  (mem_reportedSymbols_iff.1 h).1

/-- What is reported has a verdict, and a known name has none. -/
theorem Scan.isKnown_of_mem_unreferencedSymbols {scan : Scan} {symbol : UnreferencedSymbol}
    (h : symbol ∈ (scan.report settings).unreferencedSymbols) :
    settings.symbols.isKnown symbol.name = false := by
  obtain ⟨-, entry, verdict, hmem, hname, -⟩ := mem_reportedSymbols_iff.1 h
  obtain ⟨-, hknown, -⟩ := Corpus.mem_symbolVerdicts_iff.1 hmem
  rwa [hname] at hknown

/-- **What the settings keep out of a report.** No name in the two lists of unreferenced
names is retained, and no name in the list of unreferenced types is one of a framework or
of the language. The two lists of shared names do not depend on these settings at all. -/
theorem FileTree.report_keepsOut {tree : FileTree} {scan : Scan}
    (hscan : tree.scan settings passes root = .ok scan) :
    (∀ asset ∈ (scan.report settings).unreferencedAssets,
      settings.retain asset.name = false) ∧
    (∀ symbol ∈ (scan.report settings).unreferencedSymbols,
      settings.retain symbol.name = false ∧
        (∀ start ∈ settings.symbols.frameworkPrefixes,
          start ≠ "" → ¬start.toList <+: symbol.name.toList) ∧
        symbol.name ∉ settings.symbols.builtinTypes) ∧
    ∀ retained prefixes types, ∃ scan',
      tree.scan (settings.naming retained prefixes types) passes root = .ok scan' ∧
        (scan'.report (settings.naming retained prefixes types)).sharedAssets =
          (scan.report settings).sharedAssets ∧
        (scan'.report (settings.naming retained prefixes types)).sharedSymbols =
          (scan.report settings).sharedSymbols := by
  refine ⟨fun asset hmem => Scan.retain_of_mem_unreferencedAssets hmem, fun symbol hmem => ?_,
    fun retained prefixes types => ⟨scan, ?_, rfl, rfl⟩⟩
  · exact ⟨Scan.retain_of_mem_unreferencedSymbols hmem,
      SymbolSettings.isKnown_eq_false_iff.1 (Scan.isKnown_of_mem_unreferencedSymbols hmem)⟩
  · rw [scan_naming, hscan]

/-- Settings under which neither `icon` nor `Home` is ever to be reported, the first
because it is retained and the second as a type of the language. -/
def silentSettings : Settings :=
  sampleSettings.naming ["icon"] [] ["Home"]

/-- In the project with a shared image and a shared type nothing is reported as
unreferenced when neither name is to be reported. -/
theorem FileTree.home_and_icon_kept_out :
    ∃ scan, twinTree.scan silentSettings {} ⟨"app"⟩ = .ok scan ∧
      (∀ asset ∈ (scan.report silentSettings).unreferencedAssets, asset.name ≠ "icon") ∧
      ∀ symbol ∈ (scan.report silentSettings).unreferencedSymbols, symbol.name ≠ "Home" := by
  have hscan : twinTree.scan silentSettings {} ⟨"app"⟩ =
      .ok (.ofFiles silentSettings {} ⟨"app"⟩ (twinTree.projectFiles silentSettings ⟨"app"⟩)) :=
    scan_eq_ok_iff.2 ⟨by decide, rfl⟩
  obtain ⟨hassets, hsymbols, -⟩ := report_keepsOut hscan
  refine ⟨_, hscan, fun asset hmem hname => ?_, fun symbol hmem hname => ?_⟩
  · have hretain := hassets asset hmem
    rw [hname] at hretain
    exact absurd hretain (by decide)
  · exact (hsymbols symbol hmem).2.2 (by rw [hname]; decide)

/-- **Names that are never to be reported are reported as shared**: the image name is
retained and the type is one of the language, and each is in its list of shared names. -/
theorem FileTree.shared_names_ignore_retain :
    silentSettings.retain "icon" = true ∧ silentSettings.symbols.isKnown "Home" = true ∧
      ∃ scan, twinTree.scan silentSettings {} ⟨"app"⟩ = .ok scan ∧
        ⟨"icon", 2⟩ ∈ (scan.report silentSettings).sharedAssets ∧
        ∃ shared ∈ (scan.report silentSettings).sharedSymbols, shared.name = "Home" := by
  have hscan : twinTree.scan silentSettings {} ⟨"app"⟩ =
      .ok (.ofFiles silentSettings {} ⟨"app"⟩ (twinTree.projectFiles silentSettings ⟨"app"⟩)) :=
    scan_eq_ok_iff.2 ⟨by decide, rfl⟩
  refine ⟨by decide, by decide, _, hscan, (mem_sharedAssets_iff rfl).2 ⟨by decide, ?_⟩,
    ⟨"Home", "B.swift", ["A.swift"]⟩, ?_, rfl⟩
  · decide +kernel
  · decide +kernel

end Unreferenced
