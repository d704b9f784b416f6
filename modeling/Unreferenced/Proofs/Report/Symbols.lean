import Mathlib.Data.List.Dedup
import Unreferenced.Proofs.Scan
import Unreferenced.Proofs.Walk.Order
import Unreferenced.Report

/-!
# The types in a report

A type is reported as unreferenced when it is declared, is not one of a framework or of the
language, is not retained, and is referenced by none of the files; it is reported with the
last source file that declares it, and references in that file do not count
(`Unreferenced.FileTree.report_unreferencedSymbols`).

The proof follows the scan backwards. The report sorts what the verdicts leave over
(`Unreferenced.mem_reportedSymbols_iff`), a verdict speaks of the files and no longer of the
searched text, and the registry gives a name the path of its last declaration. No name is
lost on the way: whatever the keywords, what is read as a declaration can be searched for,
so every name that is looked for is counted.
-/

namespace Unreferenced

variable {settings : Settings} {root : FilePath}

/-- A name is not known when it starts with no framework prefix and is no type of the
language. -/
theorem SymbolSettings.isKnown_eq_false_iff {settings : SymbolSettings} {name : String} :
    settings.isKnown name = false ↔
      (∀ start ∈ settings.frameworkPrefixes, start ≠ "" → ¬start.toList <+: name.toList) ∧
        name ∉ settings.builtinTypes := by
  simp only [isKnown, Bool.or_eq_false_iff, List.any_eq_false, List.mem_filter, Bool.not_eq_true',
    List.contains_eq_mem, decide_eq_false_iff_not, and_imp]
  refine and_congr (forall₂_congr fun start _ => ?_) Iff.rfl
  simp [Text.startsWith_iff]

/-! ### The list of unreferenced types -/

variable {verdicts : List (SymbolEntry × Verdict)}

/-- What is reported are the names that no verdict calls referenced and that are not
retained. -/
theorem mem_reportedSymbols_iff {name file : String} :
    ⟨name, file⟩ ∈ reportedSymbols settings root verdicts ↔
      settings.retain name = false ∧ ∃ entry verdict, (entry, verdict) ∈ verdicts ∧
        entry.name = name ∧ entry.path.shownFrom root = file ∧ ¬verdict.isReferenced = true := by
  simp only [reportedSymbols, (sortedBy_perm _).mem_iff, List.mem_map, List.mem_filter,
    Settings.reports, Bool.and_eq_true, Bool.not_eq_true', Prod.exists,
    UnreferencedSymbol.mk.injEq]
  constructor
  · rintro ⟨entry, verdict, ⟨hmem, hreferenced, hretain⟩, rfl, hfile⟩
    exact ⟨hretain, entry, verdict, hmem, rfl, hfile, by simpa using hreferenced⟩
  · rintro ⟨hretain, entry, verdict, hmem, rfl, hfile, hreferenced⟩
    exact ⟨entry, verdict, ⟨hmem, by simpa using hreferenced, hretain⟩, rfl, hfile⟩

/-- The reported names are in strict order when there is one verdict for each name. -/
theorem pairwise_reportedSymbols (h : (verdicts.map fun p => p.1.name).Nodup) :
    (reportedSymbols settings root verdicts).Pairwise fun a b => a.name < b.name := by
  refine pairwise_lt_sortedBy ?_
  rw [List.map_map]
  exact h.sublist (List.filter_sublist.map _)

/-! ### The types of a list of files -/

variable {files : List ProjectFile}

/-- **The reported types of a list of files**: the names whose last declaring file is known
and that none of the files references. -/
theorem mem_reportedSymbols_typeVerdicts_iff {name file : String} :
    ⟨name, file⟩ ∈ reportedSymbols settings root (typeVerdicts settings.symbols files) ↔
      settings.symbols.isKnown name = false ∧ settings.retain name = false ∧
        ∃ last, IsLastWith (·.Declares settings.symbols name) (ofKind .source files) last ∧
          last.path.shownFrom root = file ∧ ¬IsTypeReferenced files name last.path := by
  rw [mem_reportedSymbols_iff]
  constructor
  · rintro ⟨hretain, entry, verdict, hmem, rfl, rfl, hreferenced⟩
    obtain ⟨hentry, hknown, hverdict⟩ := Corpus.mem_symbolVerdicts_iff.1 hmem
    obtain ⟨last, hlast, hsame⟩ := exists_entry_typesIn_iff.1 ⟨entry, hentry, rfl, rfl⟩
    refine ⟨hknown, hretain, last, hlast, by rw [hsame], ?_⟩
    rw [hsame, ← isReferenced_symbolVerdict_collectText_iff hverdict]
    exact hreferenced
  · rintro ⟨hknown, hretain, last, hlast, rfl, hreferenced⟩
    obtain ⟨entry, hentry, rfl, hentryPath⟩ := exists_entry_typesIn_iff.2 ⟨last, hlast, rfl⟩
    obtain ⟨verdict, hverdict⟩ := (collectText files).exists_symbolVerdict entry.path
      (nameFault?_of_mem_declaredNames hlast.holds)
    refine ⟨hretain, entry, verdict,
      Corpus.mem_symbolVerdicts_iff.2 ⟨hentry, hknown, hverdict⟩, rfl, by rw [hentryPath], ?_⟩
    rw [isReferenced_symbolVerdict_collectText_iff hverdict, hentryPath]
    exact hreferenced

/-- The names that the source files declare, with repetitions. -/
def declaredIn (settings : SymbolSettings) (files : List ProjectFile) : List String :=
  (ofKind .source files).flatMap fun file =>
    declaredNames settings.declarationKeywords file.text

/-- The registry has each declared name once. -/
theorem names_typesIn_perm (settings : SymbolSettings) (files : List ProjectFile) :
    (typesIn settings files).names.Perm
      (declaredIn settings files).dedup := by
  rw [List.perm_ext_iff_of_nodup
    (SymbolRegistry.nodup_names (isOrdered_typesIn settings files)) (List.nodup_dedup _)]
  intro name
  rw [mem_names_typesIn, List.mem_dedup, declaredIn, List.mem_flatMap]
  rfl

/-- No declared name is left without a verdict, unless it is known. -/
theorem map_fst_typeVerdicts (settings : SymbolSettings)
    (files : List ProjectFile) :
    (typeVerdicts settings files).map (·.1) =
      (typesIn settings files).entries.filter fun entry =>
        !settings.isKnown entry.name := by
  refine Corpus.map_fst_symbolVerdicts fun entry hentry => ?_
  obtain ⟨file, -, hdeclares⟩ := mem_names_typesIn.1 (List.mem_map_of_mem hentry)
  exact nameFault?_of_mem_declaredNames hdeclares

/-- The names that are looked for, in the order of the verdicts. -/
theorem map_name_typeVerdicts (settings : SymbolSettings)
    (files : List ProjectFile) :
    (typeVerdicts settings files).map (fun p => p.1.name) =
      (typesIn settings files).names.filter (! settings.isKnown ·) := by
  have hentries := congrArg (List.map SymbolEntry.name)
    (map_fst_typeVerdicts settings files)
  rw [List.map_map] at hentries
  rw [SymbolRegistry.names, List.filter_map]
  exact hentries

theorem length_typeVerdicts (settings : SymbolSettings) (files : List ProjectFile) :
    (typeVerdicts settings files).length =
      ((typesIn settings files).names.filter (! settings.isKnown ·)).length := by
  rw [← map_name_typeVerdicts, List.length_map]

/-- The reported types of a list of files are in strict order. -/
theorem pairwise_reportedSymbols_typeVerdicts (settings : Settings) (root : FilePath)
    (files : List ProjectFile) :
    (reportedSymbols settings root (typeVerdicts settings.symbols files)).Pairwise
      fun a b => a.name < b.name := by
  refine pairwise_reportedSymbols ?_
  rw [map_name_typeVerdicts]
  exact (SymbolRegistry.nodup_names (isOrdered_typesIn _ _)).filter _

/-! ### The types of a project -/

/-- Where files are told apart by their paths, the last declaring file is the only one that
does not count. -/
theorem not_isTypeReferenced_iff {name : String} {last : ProjectFile}
    (hpaths : ∀ other ∈ files, other.path.Same last.path ↔ other = last) :
    ¬IsTypeReferenced files name last.path ↔
      (∀ other ∈ ofKind .source files, other ≠ last →
        Text.contains other.text (name ++ "(") = false ∧
          Text.contains other.text (name ++ ".self") = false) ∧
      ∀ other ∈ ofKind .markup files,
        Text.contains other.text ("customClass=\"" ++ name ++ "\"") = false := by
  simp only [IsTypeReferenced, not_or, not_exists, not_and, Bool.not_eq_true]
  refine and_congr (forall₂_congr fun other hmem => ?_) Iff.rfl
  rw [hpaths other (mem_ofKind.1 hmem).1]

section OfFiles

variable {passes : Passes} (hpasses : passes.symbols = true)

include hpasses

theorem unreferencedSymbols_ofFiles :
    ((Scan.ofFiles settings passes root files).report settings).unreferencedSymbols =
      reportedSymbols settings root (typeVerdicts settings.symbols files) := by
  simp only [Scan.report, Report.build, Scan.symbolVerdicts, Scan.ofFiles, hpasses, if_true,
    typeVerdicts]

theorem symbolsDeclared_ofFiles :
    ((Scan.ofFiles settings passes root files).report settings).summary.symbolsDeclared =
      (typesIn settings.symbols files).names.length := by
  simp only [Scan.report, Report.build, Scan.ofFiles, hpasses, if_true, SymbolRegistry.size,
    SymbolRegistry.names, List.length_map]

theorem symbolsChecked_ofFiles :
    ((Scan.ofFiles settings passes root files).report settings).summary.symbolsChecked =
      (typeVerdicts settings.symbols files).length := by
  simp only [Scan.report, Report.build, Scan.symbolVerdicts, Scan.ofFiles, hpasses, if_true,
    typeVerdicts]

end OfFiles

/-- **The report of types is exact.** A scan of a directory that looks for types succeeds.
It reports, in strict order of the names, those that a source file declares, that have no
framework prefix and are no types of the language, that are not retained, and that are
referenced neither by a source file other than the last that declares them nor by an
interface file, each with the path of that last file below the root. All declared names
are counted, and all of them that are not known are looked for. -/
theorem FileTree.report_unreferencedSymbols {tree : FileTree} (hlawful : tree.isLawful = true)
    (hroot : tree.isDirectory root = true) (settings : Settings) {passes : Passes}
    (hpasses : passes.symbols = true) :
    ∃ scan, tree.scan settings passes root = .ok scan ∧
      (scan.report settings).unreferencedSymbols.Pairwise (fun a b => a.name < b.name) ∧
      (∀ name file, ⟨name, file⟩ ∈ (scan.report settings).unreferencedSymbols ↔
        ((∀ start ∈ settings.symbols.frameworkPrefixes,
            start ≠ "" → ¬start.toList <+: name.toList) ∧
          name ∉ settings.symbols.builtinTypes) ∧
        settings.retain name = false ∧
        ∃ last, IsLastWith (·.Declares settings.symbols name)
            (ofKind .source (tree.projectFiles settings root)) last ∧
          last.path.relativeTo? root = some ⟨file⟩ ∧
          (∀ other ∈ ofKind .source (tree.projectFiles settings root), other ≠ last →
            Text.contains other.text (name ++ "(") = false ∧
              Text.contains other.text (name ++ ".self") = false) ∧
          ∀ other ∈ ofKind .markup (tree.projectFiles settings root),
            Text.contains other.text ("customClass=\"" ++ name ++ "\"") = false) ∧
      (scan.report settings).summary.symbolsDeclared =
        (declaredIn settings.symbols (tree.projectFiles settings root)).dedup.length ∧
      (scan.report settings).summary.symbolsChecked =
        ((declaredIn settings.symbols (tree.projectFiles settings root)).dedup.filter
          (! settings.symbols.isKnown ·)).length := by
  obtain ⟨position, entries, hplace⟩ := isDirectory_iff.1 hroot
  set files := tree.projectFiles settings root
  have hperm := names_typesIn_perm settings.symbols files
  refine ⟨_, scan_eq_ok_iff.2 ⟨hroot, rfl⟩, ?_, fun name file => ?_, ?_, ?_⟩
  · rw [unreferencedSymbols_ofFiles hpasses]
    exact pairwise_reportedSymbols_typeVerdicts settings root files
  · rw [unreferencedSymbols_ofFiles hpasses, mem_reportedSymbols_typeVerdicts_iff,
      SymbolSettings.isKnown_eq_false_iff]
    refine and_congr_right fun _ => and_congr_right fun _ => exists_congr fun last =>
      and_congr_right fun hlast => ?_
    have hmem : last ∈ files := (mem_ofKind.1 hlast.mem).1
    rw [not_isTypeReferenced_iff fun other hother => same_path_iff hlawful hplace hother hmem,
      relativeTo?_of_mem_projectFiles hlawful hplace hmem, Option.some.injEq, FilePath.mk.injEq]
  · rw [symbolsDeclared_ofFiles hpasses, hperm.length_eq]
  · rw [symbolsChecked_ofFiles hpasses, ← (hperm.filter _).length_eq, length_typeVerdicts]

/-- In the small project the only type is reported: nothing but its own file mentions it. -/
theorem FileTree.home_unreferenced :
    sampleTree.isLawful = true ∧ sampleTree.isDirectory ⟨"app"⟩ = true ∧
      ∃ scan, sampleTree.scan sampleSettings {} ⟨"app"⟩ = .ok scan ∧
        ⟨"Home", "Home.swift"⟩ ∈ (scan.report sampleSettings).unreferencedSymbols ∧
        (scan.report sampleSettings).summary.symbolsDeclared = 1 := by
  have hlawful : sampleTree.isLawful = true := by decide
  have hroot : sampleTree.isDirectory ⟨"app"⟩ = true := by decide
  have hpasses : ({} : Passes).symbols = true := rfl
  refine ⟨hlawful, hroot, ?_⟩
  obtain ⟨scan, hscan, -, hreported, hdeclared, -⟩ :=
    report_unreferencedSymbols hlawful hroot sampleSettings hpasses
  have hsources : ofKind .source (sampleTree.projectFiles sampleSettings ⟨"app"⟩) =
      [⟨⟨"app/Home.swift"⟩, .source, "class Home {}".toUTF8⟩] := by
    rw [projectFiles_sampleTree]
    rfl
  have hmarkup : ofKind .markup (sampleTree.projectFiles sampleSettings ⟨"app"⟩) = [] := by
    rw [projectFiles_sampleTree]
    rfl
  refine ⟨scan, hscan, (hreported _ _).2 ⟨by decide, rfl, ?_⟩, ?_⟩
  · rw [hsources, hmarkup]
    refine ⟨_, isLastWith_singleton_iff.2 ⟨?_, rfl⟩, by decide, by simp, by simp⟩
    rw [ProjectFile.Declares]
    decide +kernel
  · rw [hdeclared, declaredIn, hsources]
    decide +kernel

end Unreferenced
