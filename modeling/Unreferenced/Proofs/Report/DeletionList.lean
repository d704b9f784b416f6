import Mathlib.Data.List.Basic
import Unreferenced.Proofs.Declaration.Place
import Unreferenced.Proofs.Report.Location
import Unreferenced.Proofs.Report.Retained

/-!
# The list of types to delete is read back

The names of the unreferenced types are written one on each line and nothing is escaped, so
that all depends on what a name can be. Two things make the list safe to read. Every name
in it was read as a declaration, whatever the keywords of the settings and whatever the
source files hold, and so it is a capital letter or an underscore followed by letters,
digits and underscores
(`Unreferenced.Scan.isDeclaredName_of_mem_unreferencedSymbols`): no line break and no blank
line can come from it. And the names are in strict order, so that none is written twice.

The line breaks of the list therefore cut it into the names of the unreferenced types
(`Unreferenced.FileTree.deletionList_readBack`).
-/

namespace Unreferenced

/-! ### Names on lines -/

/-- Lines, each with a separator behind it, come to nothing or to a text that ends in the
separator. -/
theorem flatMap_eq_nil_or_getLast? (sep : Char) (lines : List (List Char)) :
    lines.flatMap (· ++ [sep]) = [] ∨ (lines.flatMap (· ++ [sep])).getLast? = some sep := by
  rcases List.eq_nil_or_concat lines with rfl | ⟨before, last, rfl⟩
  · exact .inl rfl
  · right
    rw [List.concat_eq_append, List.flatMap_append, List.flatMap_singleton, ← List.append_assoc,
      List.getLast?_concat]

namespace Report

variable (report : Report)

/-- The names of the unreferenced types. -/
def unreferencedTypes : List String :=
  report.unreferencedSymbols.map (·.name)

theorem toList_deletionList :
    report.deletionList.toList =
      (report.unreferencedTypes.map String.toList).flatMap (· ++ ['\n']) := by
  simp [deletionList, unreferencedTypes, List.flatMap_map]

/-- Where no name has a line break in it, the line breaks of the list part the names. -/
theorem pieces_deletionList (h : ∀ name ∈ report.unreferencedTypes, '\n' ∉ name.toList) :
    Text.pieces '\n' report.deletionList.toList =
      report.unreferencedTypes.map String.toList ++ [[]] := by
  rw [toList_deletionList, Text.pieces_flatMap]
  intro line hline
  obtain ⟨name, hname, rfl⟩ := List.mem_map.1 hline
  exact h name hname

end Report

/-! ### The names in a report -/

theorem IsDeclaredName.isBlank_of_mem {name : List Char} (h : IsDeclaredName name) :
    ∀ c ∈ name, Text.isBlank c = false :=
  fun c hc => Declaration.isBlank_of_isNameChar (h.isNameChar_of_mem c hc)

section OfFiles

variable {settings : Settings} {passes : Passes} {root : FilePath} {files : List ProjectFile}

/-- **What is reported was declared**, and so has the form of a declared name. -/
theorem Scan.isDeclaredName_of_mem_unreferencedSymbols {symbol : UnreferencedSymbol}
    (h : symbol ∈ ((Scan.ofFiles settings passes root files).report settings).unreferencedSymbols) :
    IsDeclaredName symbol.name.toList := by
  cases hpasses : passes.symbols with
  | true =>
    rw [unreferencedSymbols_ofFiles hpasses] at h
    obtain ⟨-, -, last, hlast, -⟩ := mem_reportedSymbols_typeVerdicts_iff.1 h
    exact isName_of_mem_declaredNames hlast.holds
  | false =>
    obtain ⟨-, hnone, -⟩ := report_without_symbols settings root files hpasses
    rw [hnone] at h
    cases h

variable (settings passes root files)

/-- The reported names are in strict order, whatever the scan looked for. -/
theorem Scan.pairwise_unreferencedTypes :
    ((Scan.ofFiles settings passes root files).report settings).unreferencedTypes.Pairwise
      (· < ·) := by
  rw [Report.unreferencedTypes, List.pairwise_map]
  cases hpasses : passes.symbols with
  | true =>
    rw [unreferencedSymbols_ofFiles hpasses]
    exact pairwise_reportedSymbols_typeVerdicts settings root files
  | false =>
    obtain ⟨-, hnone, -⟩ := report_without_symbols settings root files hpasses
    rw [hnone]
    exact .nil

end OfFiles

/-- **The list of types to delete is read back.** A directory can be scanned, whatever the
settings, their keywords, and what the scan looks for. The list for the report of the scan
is empty or ends in a line break, and its line breaks cut it into the names of the
unreferenced types, with the nothing behind the last line break as the last piece. The
names are in strict order, so that none comes twice. Each is a capital letter or an
underscore followed by letters, digits and underscores, so that it is not empty and has no
white space in it; and none has a framework prefix, is a type of the language, or is
retained. -/
theorem FileTree.deletionList_readBack {tree : FileTree} {root : FilePath}
    (hroot : tree.isDirectory root = true) (settings : Settings) (passes : Passes) :
    ∃ scan, tree.scan settings passes root = .ok scan ∧
      ((scan.report settings).deletionList = "" ∨
        (scan.report settings).deletionList.toList.getLast? = some '\n') ∧
      Text.pieces '\n' (scan.report settings).deletionList.toList =
        (scan.report settings).unreferencedTypes.map String.toList ++ [[]] ∧
      (scan.report settings).unreferencedTypes.Pairwise (· < ·) ∧
      (scan.report settings).unreferencedTypes.Nodup ∧
      ∀ name ∈ (scan.report settings).unreferencedTypes,
        IsDeclaredName name.toList ∧ name ≠ "" ∧ (∀ c ∈ name.toList, Text.isBlank c = false) ∧
        (∀ start ∈ settings.symbols.frameworkPrefixes,
          start ≠ "" → ¬start.toList <+: name.toList) ∧
        name ∉ settings.symbols.builtinTypes ∧ settings.retain name = false := by
  have hordered := Scan.pairwise_unreferencedTypes settings passes root
    (tree.projectFiles settings root)
  have hname : ∀ name ∈ ((Scan.ofFiles settings passes root
      (tree.projectFiles settings root)).report settings).unreferencedTypes,
      IsDeclaredName name.toList ∧ settings.symbols.isKnown name = false ∧
        settings.retain name = false := by
    intro name hmem
    obtain ⟨symbol, hsymbol, rfl⟩ := List.mem_map.1 hmem
    exact ⟨Scan.isDeclaredName_of_mem_unreferencedSymbols hsymbol,
      Scan.isKnown_of_mem_unreferencedSymbols hsymbol,
      Scan.retain_of_mem_unreferencedSymbols hsymbol⟩
  have hbreak : ∀ name : String, IsDeclaredName name.toList → '\n' ∉ name.toList :=
    fun name h hmem => absurd (h.isBlank_of_mem _ hmem) (by decide)
  refine ⟨_, scan_eq_ok_iff.2 ⟨hroot, rfl⟩, ?_,
    Report.pieces_deletionList _ fun name hmem => hbreak name (hname name hmem).1, hordered,
    hordered.imp fun hlt => String.ne_of_lt hlt, fun name hmem => ?_⟩
  · rw [← String.toList_inj, Report.toList_deletionList]
    exact flatMap_eq_nil_or_getLast? '\n' _
  · obtain ⟨hdeclared, hknown, hretain⟩ := hname name hmem
    obtain ⟨hprefixes, htypes⟩ := SymbolSettings.isKnown_eq_false_iff.1 hknown
    refine ⟨hdeclared, ?_, hdeclared.isBlank_of_mem, hprefixes, htypes, hretain⟩
    rintro rfl
    obtain ⟨first, rest, hnil, -⟩ := hdeclared
    cases hnil

/-- A project whose types are declared under keywords of its own, out of order, with the
name of one a line below its keyword. -/
def actorTree : FileTree where
  entries := [.directory "app"
    [.file "Tools.swift" "actor Store {}\nfinal-class\n_Old {}; actor Cache {}".toUTF8]]
  workingDirectory := []

/-- Settings with two keywords, one of which needs trimming. -/
def actorSettings : Settings :=
  { sampleSettings with symbols := { declarationKeywords := [" actor ", "final-class"] } }

/-- The list for that project has the three names, one on each line and in order. -/
theorem FileTree.actors_readBack :
    actorTree.isDirectory ⟨"app"⟩ = true ∧
      ∃ scan, actorTree.scan actorSettings {} ⟨"app"⟩ = .ok scan ∧
        Text.pieces '\n' (scan.report actorSettings).deletionList.toList =
          ["Cache".toList, "Store".toList, "_Old".toList, []] := by
  have hroot : actorTree.isDirectory ⟨"app"⟩ = true := by decide
  obtain ⟨scan, hscan, -, hpieces, -⟩ := deletionList_readBack hroot actorSettings {}
  refine ⟨hroot, scan, hscan, ?_⟩
  have htypes : (scan.report actorSettings).unreferencedTypes = ["Cache", "Store", "_Old"] := by
    obtain ⟨-, rfl⟩ := scan_eq_ok_iff.1 hscan
    decide +kernel
  rw [hpieces, htypes]
  rfl

end Unreferenced
