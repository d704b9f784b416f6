import Mathlib.Data.List.Forall2
import Unreferenced.Proofs.Report.Lines
import Unreferenced.Proofs.Report.Location
import Unreferenced.Proofs.Report.Page

/-!
# A page and the records tell of the same findings

A report is written for a person as a page and for programs as records, one on a line. On
the page a finding has a line of its own, which begins in a way that no other line of the
page begins, and the place of an image stands on a line behind it. So the findings can be
read off a page (`Unreferenced.findingsOn`), without knowing what is in its report, and they
are those of the records, one for one and in the same order
(`Unreferenced.FileTree.records_shown`).

Two things could part them. A page is in sections, each left out when the scan did not look
for what it is about, while records are written for all that the report has: a scan that
does not look for images or types reports none. And a text with a line break in it could
make a line that looks like a finding: the reports here have none.
-/

namespace Unreferenced

/-! ### Reading findings off a page -/

/-- Whether a line of a page is the one of a finding. -/
def beginsFinding (line : String) : Bool :=
  Text.startsWith line "    - "

/-- Whether a line of a page tells where the finding above it is. -/
def tellsPlace (line : String) : Bool :=
  Text.startsWith line "      (path: "

/-- A finding as it stands on a page. -/
structure PageFinding where
  /-- Its line. -/
  line : String
  /-- The lines behind it that tell where it is. -/
  places : List String
deriving DecidableEq, Repr

/-- The findings among the lines of a page. -/
def findingsOn : List String → List PageFinding
  | [] => []
  | line :: rest =>
    if beginsFinding line then ⟨line, rest.takeWhile tellsPlace⟩ :: findingsOn rest
    else findingsOn rest

/-- Every line of a finding is read, and no other. -/
theorem map_line_findingsOn (lines : List String) :
    (findingsOn lines).map (·.line) = lines.filter beginsFinding := by
  induction lines with
  | nil => rfl
  | cons line rest ih =>
    rw [findingsOn]
    split
    · next hline => rw [List.map_cons, ih, List.filter_cons_of_pos hline]
    · next hline => rw [ih, List.filter_cons_of_neg hline]

/-- The findings on two stretches of a page are those on the first and then those on the
second, unless the second begins with the place of something. -/
theorem findingsOn_append {lines rest : List String}
    (h : ∀ line ∈ rest.head?, tellsPlace line = false) :
    findingsOn (lines ++ rest) = findingsOn lines ++ findingsOn rest := by
  -- the places of a finding end with the first stretch at the latest
  have hplaces : ∀ more : List String,
      (more ++ rest).takeWhile tellsPlace = more.takeWhile tellsPlace := by
    intro more
    have hnone : rest.takeWhile tellsPlace = [] := by
      cases rest with
      | nil => rfl
      | cons line rest => exact List.takeWhile_cons_of_neg (by simp [h line rfl])
    rw [List.takeWhile_append, hnone, List.append_nil]
    split
    · next hlength =>
      have hbegin : more.takeWhile tellsPlace <+: more := List.takeWhile_prefix _
      exact (hbegin.eq_of_length hlength).symm
    · rfl
  induction lines with
  | nil => rfl
  | cons line more ih =>
    rw [List.cons_append, findingsOn, findingsOn, hplaces, ih]
    split <;> rfl

/-- Stretches with one finding each, none of which begins with a place, have these findings. -/
theorem findingsOn_flatMap {α : Type} {stretch : α → List String} {finding : α → PageFinding}
    (hfirst : ∀ a, ∀ line ∈ (stretch a).head?, tellsPlace line = false)
    (hfinding : ∀ a, findingsOn (stretch a) = [finding a]) (as : List α) :
    findingsOn (as.flatMap stretch) = as.map finding := by
  induction as with
  | nil => rfl
  | cons a more ih =>
    rw [List.flatMap_cons, findingsOn_append, hfinding, ih, List.map_cons, List.singleton_append]
    intro line hline
    cases more with
    | nil => cases hline
    | cons b more =>
      refine hfirst b line ?_
      -- the next stretch is not empty, for it has a finding
      cases hstretch : stretch b with
      | nil =>
        have hnone := hfinding b
        rw [hstretch] at hnone
        cases hnone
      | cons => rwa [List.flatMap_cons, hstretch] at hline

/-! ### The findings of a report -/

namespace Report

/-- The line of a shared image on a page. -/
def sharedAssetFinding (asset : SharedAsset) : PageFinding :=
  ⟨"    - " ++ asset.name ++ ": " ++ toString asset.count ++ " files", []⟩

/-- The line of an unreferenced image on a page, and that of its place. -/
def unreferencedAssetFinding (asset : UnreferencedAsset) : PageFinding :=
  ⟨"    - " ++ asset.name,
    asset.location?.toList.map fun location => "      (path: " ++ location ++ ")"⟩

/-- The line of a shared type on a page. -/
def sharedSymbolFinding (symbol : SharedSymbol) : PageFinding :=
  ⟨"    - " ++ symbol.name ++ " (checked: " ++ symbol.kept ++ "; also in: " ++
    ", ".intercalate symbol.shadowed ++ ")", []⟩

/-- The line of an unreferenced type on a page. -/
def unreferencedSymbolFinding (symbol : UnreferencedSymbol) : PageFinding :=
  ⟨"    - " ++ symbol.name ++ " (declared in: " ++ symbol.file ++ ")", []⟩

end Report

/-! ### Lines that are no findings -/

/-- A line is indented by less than four spaces; such a line is no finding and tells no
place. -/
def IsShallow (line : String) : Prop :=
  Text.startsWith line "    " = false

theorem IsShallow.startsWith_eq_false {line start : String} (h : IsShallow line)
    (hstart : "    ".toList <+: start.toList) : Text.startsWith line start = false := by
  rw [Bool.eq_false_iff]
  intro hline
  have hindent := Text.startsWith_iff.2 (hstart.trans (Text.startsWith_iff.1 hline))
  exact Bool.false_ne_true (h.symm.trans hindent)

theorem IsShallow.beginsFinding {line : String} (h : IsShallow line) :
    beginsFinding line = false :=
  h.startsWith_eq_false (by decide)

theorem IsShallow.tellsPlace {line : String} (h : IsShallow line) : tellsPlace line = false :=
  h.startsWith_eq_false (by decide)

/-- Words of a page are not indented, by looking at the first of their characters. -/
theorem isShallow_words {cs : List Char} (h : [' ', ' ', ' ', ' '].isPrefixOf cs = false) :
    IsShallow (String.ofList cs) := by
  rwa [IsShallow, Text.startsWith, String.toList_ofList, String.toList_ofList]

/-- The same for words with a text behind them. -/
theorem isShallow_append {cs : List Char} (hlength : 4 ≤ cs.length)
    (h : [' ', ' ', ' ', ' '].isPrefixOf cs = false) (text : String) :
    IsShallow (String.ofList cs ++ text) := by
  rw [IsShallow, Bool.eq_false_iff, ne_eq, Text.startsWith_iff]
  intro hline
  rw [String.toList_append, String.toList_ofList, String.toList_ofList] at hline
  have hcs := List.prefix_of_prefix_length_le hline (List.prefix_append cs text.toList) hlength
  exact Bool.false_ne_true (h.symm.trans (List.isPrefixOf_iff_prefix.2 hcs))

/-- A line that begins with a number behind two spaces: a digit is no space. -/
theorem isShallow_number (n : Nat) (text : String) : IsShallow ("  " ++ toString n ++ text) := by
  obtain ⟨digit, more, hdigits⟩ := List.exists_cons_of_ne_nil
    (Nat.toDigits_ne_nil (n := n) (b := 10))
  have hdigit : ' ' ≠ digit := by
    rintro rfl
    have h := Nat.isDigit_of_mem_toDigits (b := 10) (n := n) (by decide) (by decide)
      (hdigits ▸ List.mem_cons_self)
    exact absurd h (by decide)
  simp [IsShallow, Text.startsWith, List.isPrefixOf, hdigits, hdigit]

theorem findingsOn_cons {line : String} (h : IsShallow line) (rest : List String) :
    findingsOn (line :: rest) = findingsOn rest := by
  rw [findingsOn, if_neg (by simp [h.beginsFinding])]

theorem findingsOn_eq_nil {lines : List String} (h : ∀ line ∈ lines, IsShallow line) :
    findingsOn lines = [] := by
  induction lines with
  | nil => rfl
  | cons line rest ih =>
    obtain ⟨hline, hrest⟩ := List.forall_mem_cons.1 h
    rw [findingsOn_cons hline, ih hrest]

/-- What begins a finding tells no place: the two differ behind four spaces. -/
theorem tellsPlace_of_beginsFinding {line : String} (h : beginsFinding line = true) :
    tellsPlace line = false := by
  rw [Bool.eq_false_iff]
  intro hplace
  exact absurd (List.prefix_of_prefix_length_le (Text.startsWith_iff.1 h)
    (Text.startsWith_iff.1 hplace) (by decide)) (by decide)

theorem tellsPlace_place (location : String) :
    tellsPlace ("      (path: " ++ location ++ ")") = true :=
  Text.startsWith_iff.2 (by simp)

theorem beginsFinding_place (location : String) :
    beginsFinding ("      (path: " ++ location ++ ")") = false :=
  Bool.eq_false_iff.2 fun h =>
    Bool.false_ne_true ((tellsPlace_of_beginsFinding h).symm.trans (tellsPlace_place location))

/-- Findings that tell no place, each on its line. -/
theorem findingsOn_map {α : Type} {line : α → StyledLine} {finding : α → PageFinding}
    (hline : ∀ a, (line a).plain = (finding a).line) (hplaces : ∀ a, (finding a).places = [])
    (hbegins : ∀ a, beginsFinding (finding a).line = true) (as : List α) :
    findingsOn ((as.map line).map StyledLine.plain) = as.map finding := by
  rw [List.map_map, List.map_eq_flatMap]
  refine findingsOn_flatMap (fun a first hfirst => ?_) (fun a => ?_) as
  · obtain rfl := Option.some.inj hfirst
    rw [Function.comp_apply, hline, tellsPlace_of_beginsFinding (hbegins a)]
  · rw [Function.comp_apply, hline, findingsOn, if_pos (hbegins a), List.takeWhile_nil, findingsOn,
      ← hplaces a]

/-! ### The sections of a page -/

namespace Report

variable {report : Report} {rest : List String}

theorem isShallow_rule : IsShallow (StyledLine.plain rule) := by
  rw [rule, StyledLine.plain_singleton]
  exact isShallow_words (by decide)

/-- Lines up to one that ends a part of the page. -/
theorem findingsOn_append_rule (lines : List String) :
    findingsOn (lines ++ StyledLine.plain rule :: rest) = findingsOn lines ++ findingsOn rest := by
  rw [findingsOn_append, findingsOn_cons isShallow_rule]
  rintro line ⟨⟩
  exact isShallow_rule.tellsPlace

/-- A part of the page that lists what is shared, and is left out when there is nothing. -/
theorem findingsOn_part {α : Type} {heading : Span} (hheading : IsShallow heading.text)
    {line : α → StyledLine} {finding : α → PageFinding}
    (hline : ∀ a, (line a).plain = (finding a).line) (hplaces : ∀ a, (finding a).places = [])
    (hbegins : ∀ a, beginsFinding (finding a).line = true) (as : List α) :
    findingsOn ((if as.isEmpty then [] else [heading] :: as.map line ++ [rule]).map
        StyledLine.plain ++ rest) = as.map finding ++ findingsOn rest := by
  split
  · next hnone =>
    rw [List.isEmpty_iff.1 hnone]
    rfl
  · rw [List.cons_append, List.map_cons, List.map_append, StyledLine.plain_singleton,
      List.cons_append, findingsOn_cons hheading, List.append_assoc]
    exact (findingsOn_append_rule _).trans
      (congrArg (· ++ findingsOn rest) (findingsOn_map hline hplaces hbegins as))

theorem findingsOn_sharedAssetLines :
    findingsOn (report.sharedAssetLines.map StyledLine.plain ++ rest) =
      report.sharedAssets.map sharedAssetFinding ++ findingsOn rest := by
  refine findingsOn_part ?_ (fun _ => StyledLine.plain_singleton _) (fun _ => rfl) (fun _ => ?_) _
  · exact isShallow_words (by decide)
  · exact Text.startsWith_iff.2 (by simp [sharedAssetFinding])

theorem findingsOn_sharedSymbolLines :
    findingsOn (report.sharedSymbolLines.map StyledLine.plain ++ rest) =
      report.sharedSymbols.map sharedSymbolFinding ++ findingsOn rest := by
  refine findingsOn_part ?_ (fun _ => StyledLine.plain_singleton _) (fun _ => rfl) (fun _ => ?_) _
  · exact isShallow_words (by decide)
  · exact Text.startsWith_iff.2 (by simp [sharedSymbolFinding])

/-- The lines on an unreferenced image, which begin with that of the finding. -/
theorem findingsOn_unreferencedAssetLines (asset : UnreferencedAsset) :
    (∀ line ∈ ((unreferencedAssetLines asset).map StyledLine.plain).head?,
        tellsPlace line = false) ∧
      findingsOn ((unreferencedAssetLines asset).map StyledLine.plain) =
        [unreferencedAssetFinding asset] := by
  obtain ⟨name, location?⟩ := asset
  have hbegins : beginsFinding ("    - " ++ name) = true := Text.startsWith_iff.2 (by simp)
  have hfirst : StyledLine.plain [unstyled "    - ", styled .white name] = "    - " ++ name := by
    rw [StyledLine.plain_cons, StyledLine.plain_singleton]
    rfl
  rw [unreferencedAssetLines, List.map_cons, hfirst]
  refine ⟨?_, ?_⟩
  · rintro line ⟨⟩
    exact tellsPlace_of_beginsFinding hbegins
  · rw [findingsOn, if_pos hbegins]
    cases location? with
    | none => rfl
    | some location =>
      simp only [List.map_cons, List.map_nil, StyledLine.plain_singleton, styled, findingsOn]
      rw [List.takeWhile_cons_of_pos (tellsPlace_place location),
        if_neg (by simp [beginsFinding_place location])]
      rfl

theorem findingsOn_assetLines :
    findingsOn (report.assetLines.map StyledLine.plain ++ rest) =
      report.sharedAssets.map sharedAssetFinding ++
        (report.unreferencedAssets.map unreferencedAssetFinding ++ findingsOn rest) := by
  simp only [assetLines, List.map_append, List.map_cons, List.map_nil, List.append_assoc,
    List.cons_append, List.nil_append, StyledLine.plain_singleton]
  refine (findingsOn_cons (isShallow_words (by decide)) _).trans ?_
  -- what heads a list is shallow, and a rule ends it, so only the lists are left
  rw [findingsOn_cons isShallow_rule, findingsOn_sharedAssetLines]
  refine congrArg (report.sharedAssets.map sharedAssetFinding ++ ·) ?_
  refine (findingsOn_cons (isShallow_words (by decide)) _).trans ?_
  refine (findingsOn_append_rule _).trans (congrArg (· ++ findingsOn rest) ?_)
  split
  · next hnone =>
    rw [List.isEmpty_iff.1 hnone]
    exact findingsOn_cons (isShallow_words (by decide)) []
  · simp only [List.map_cons, List.map_flatMap, StyledLine.plain_singleton, styled]
    rw [findingsOn_cons (isShallow_number _ _)]
    exact findingsOn_flatMap (fun asset => (findingsOn_unreferencedAssetLines asset).1)
      (fun asset => (findingsOn_unreferencedAssetLines asset).2) report.unreferencedAssets

theorem findingsOn_unreferencedSymbols (symbols : List UnreferencedSymbol) :
    findingsOn ((symbols.map fun symbol =>
        [unstyled "    - ", styled .white symbol.name, unstyled " ",
          styled .dimmed ("(declared in: " ++ symbol.file ++ ")")]).map StyledLine.plain) =
      symbols.map unreferencedSymbolFinding := by
  refine findingsOn_map (fun symbol => ?_) (fun _ => rfl) (fun _ => ?_) symbols
  · rw [← String.toList_inj]
    simp [StyledLine.plain, unreferencedSymbolFinding, unstyled, styled]
  · exact Text.startsWith_iff.2 (by simp [unreferencedSymbolFinding])

theorem findingsOn_symbolLines :
    findingsOn (report.symbolLines.map StyledLine.plain ++ rest) =
      report.sharedSymbols.map sharedSymbolFinding ++
        (report.unreferencedSymbols.map unreferencedSymbolFinding ++ findingsOn rest) := by
  simp only [symbolLines, List.map_append, List.map_cons, List.map_nil, List.append_assoc,
    List.cons_append, List.nil_append, StyledLine.plain_singleton]
  refine (findingsOn_cons (isShallow_words (by decide)) _).trans ?_
  rw [findingsOn_cons isShallow_rule, findingsOn_sharedSymbolLines]
  refine congrArg (report.sharedSymbols.map sharedSymbolFinding ++ ·) ?_
  refine (findingsOn_append_rule _).trans (congrArg (· ++ findingsOn rest) ?_)
  split
  · next hnone =>
    rw [List.isEmpty_iff.1 hnone]
    exact findingsOn_cons (isShallow_words (by decide)) []
  · simp only [List.map_cons, List.map_append, StyledLine.plain_singleton, List.map_nil]
    refine (findingsOn_cons (isShallow_number _ _) _).trans ?_
    rw [findingsOn_append, findingsOn_unreferencedSymbols, findingsOn_eq_nil, List.append_nil]
    · simp only [List.forall_mem_cons, List.not_mem_nil, false_implies, implies_true, and_true]
      exact ⟨rfl, isShallow_append (by decide) (by decide) transitiveNote⟩
    · rintro line ⟨⟩
      rfl

/-- The findings of a report as they stand on a page. -/
def pageFindings (report : Report) : List PageFinding :=
  report.sharedAssets.map sharedAssetFinding ++
    (report.unreferencedAssets.map unreferencedAssetFinding ++
      (report.sharedSymbols.map sharedSymbolFinding ++
        report.unreferencedSymbols.map unreferencedSymbolFinding))

/-- **The findings on a page** are those of its report, in order, when the report has none of
what the scan did not look for. -/
theorem findingsOn_pageLines
    (hassets : report.passes.assets = false →
      report.sharedAssets = [] ∧ report.unreferencedAssets = [])
    (hsymbols : report.passes.symbols = false →
      report.sharedSymbols = [] ∧ report.unreferencedSymbols = []) :
    findingsOn (report.pageLines.map StyledLine.plain ++ [""]) = report.pageFindings := by
  -- a part that is left out would have had nothing to list
  have hassetPart : ∀ rest : List String,
      findingsOn ((if report.passes.assets then report.assetLines else []).map
          StyledLine.plain ++ rest) =
        report.sharedAssets.map sharedAssetFinding ++
          (report.unreferencedAssets.map unreferencedAssetFinding ++ findingsOn rest) := by
    intro rest
    cases hpass : report.passes.assets with
    | true => exact findingsOn_assetLines
    | false =>
      rw [(hassets hpass).1, (hassets hpass).2]
      rfl
  have hsymbolPart : ∀ rest : List String,
      findingsOn ((if report.passes.symbols then report.symbolLines else []).map
          StyledLine.plain ++ rest) =
        report.sharedSymbols.map sharedSymbolFinding ++
          (report.unreferencedSymbols.map unreferencedSymbolFinding ++ findingsOn rest) := by
    intro rest
    cases hpass : report.passes.symbols with
    | true => exact findingsOn_symbolLines
    | false =>
      rw [(hsymbols hpass).1, (hsymbols hpass).2]
      rfl
  simp only [pageLines, List.map_append, List.map_cons, List.map_nil, List.append_assoc,
    List.cons_append, List.nil_append, StyledLine.plain_singleton]
  rw [findingsOn_cons isShallow_rule]
  refine (findingsOn_cons (isShallow_words (by decide)) _).trans ?_
  refine (findingsOn_cons (isShallow_append (by decide) (by decide) report.root) _).trans ?_
  rw [findingsOn_cons isShallow_rule, hassetPart, hsymbolPart]
  rw [findingsOn_eq_nil, List.append_nil]
  · rfl
  · simp only [List.forall_mem_cons, List.not_mem_nil, false_implies, implies_true, and_true]
    exact ⟨isShallow_words (by decide), isShallow_words (by decide), rfl⟩

/-! ### Records and findings -/

/-- **What shows a record on a page**: a shared image by its name and number, an unreferenced
image by its name and, behind it, its place if it has one, a shared type by its name, the
file that is kept, and as many other files as make up its number, an unreferenced type by
its name and its file. -/
inductive Record.IsShownBy : Record → PageFinding → Prop
  /-- A shared image. -/
  | sharedAsset (name : String) (count : Nat) :
    IsShownBy ⟨"asset_collision", name, none, some count⟩
      ⟨"    - " ++ name ++ ": " ++ toString count ++ " files", []⟩
  /-- An unreferenced image without a place. -/
  | asset (name : String) : IsShownBy ⟨"asset", name, none, none⟩ ⟨"    - " ++ name, []⟩
  /-- An unreferenced image with a place. -/
  | assetAt (name location : String) :
    IsShownBy ⟨"asset", name, some location, none⟩
      ⟨"    - " ++ name, ["      (path: " ++ location ++ ")"]⟩
  /-- A shared type. -/
  | sharedSymbol (name kept : String) (shadowed : List String) :
    IsShownBy ⟨"symbol_collision", name, some kept, some (shadowed.length + 1)⟩
      ⟨"    - " ++ name ++ " (checked: " ++ kept ++ "; also in: " ++
        ", ".intercalate shadowed ++ ")", []⟩
  /-- An unreferenced type. -/
  | symbol (name file : String) :
    IsShownBy ⟨"symbol", name, some file, none⟩
      ⟨"    - " ++ name ++ " (declared in: " ++ file ++ ")", []⟩

/-- **Every record is shown**, in the order of the records, and nothing else is. -/
theorem forall₂_records_pageFindings (report : Report) :
    List.Forall₂ Record.IsShownBy report.records report.pageFindings := by
  simp only [records, pageFindings, List.append_assoc]
  refine List.rel_append ?_ (List.rel_append ?_ (List.rel_append ?_ ?_)) <;>
    rw [List.forall₂_map_left_iff, List.forall₂_map_right_iff, List.forall₂_same]
  · exact fun asset _ => .sharedAsset asset.name asset.count
  · rintro ⟨name, _ | location⟩ -
    · exact .asset name
    · exact .assetAt name location
  · exact fun symbol _ => .sharedSymbol symbol.name symbol.kept symbol.shadowed
  · exact fun symbol _ => .symbol symbol.name symbol.file

theorem lines_ndjson (report : Report) (coloured : Bool) :
    Text.lines (report.text .ndjson coloured) = report.records.map Record.line ++ [""] := by
  rw [text_ndjson, Text.lines, pieces_recordsText, List.map_append, List.map_map]
  simp [Function.comp_def]

end Report

/-- **A page and the records of a scan tell of the same findings**, when no text in the report
has a line break in it. The records are read back from the lines of their text. The lines of
the page that begin with four spaces, a hyphen and a space are those of its findings, which
are the findings of the report, list by list. And each record is shown by the finding that
stands in its place, so that none is missing, comes twice or out of order, whatever the scan
looked for. -/
theorem FileTree.records_shown {tree : FileTree} {settings : Settings} {passes : Passes}
    {root : FilePath} {scan : Scan} (hscan : tree.scan settings passes root = .ok scan)
    (hbreaks : ∀ text ∈ (scan.report settings).texts, '\n' ∉ text.toList) (coloured : Bool) :
    Text.lines ((scan.report settings).text .ndjson coloured) =
        (scan.report settings).records.map Report.Record.line ++ [""] ∧
      (∀ record ∈ (scan.report settings).records,
        Json.parse? record.line = some record.object) ∧
      (findingsOn (Text.lines ((scan.report settings).text .terminal false))).map (·.line) =
        (Text.lines ((scan.report settings).text .terminal false)).filter
          (Text.startsWith · "    - ") ∧
      findingsOn (Text.lines ((scan.report settings).text .terminal false)) =
        (scan.report settings).pageFindings ∧
      List.Forall₂ Report.Record.IsShownBy (scan.report settings).records
        (findingsOn (Text.lines ((scan.report settings).text .terminal false))) := by
  have hfindings : findingsOn (Text.lines ((scan.report settings).text .terminal false)) =
      (scan.report settings).pageFindings := by
    obtain ⟨-, rfl⟩ := scan_eq_ok_iff.1 hscan
    rw [Report.text, Report.lines_page hbreaks]
    refine Report.findingsOn_pageLines (fun hassets => ?_) (fun hsymbols => ?_)
    · obtain ⟨hshared, hunreferenced, -⟩ := report_without_assets settings root _ hassets
      exact ⟨hshared, hunreferenced⟩
    · obtain ⟨hshared, hunreferenced, -⟩ := report_without_symbols settings root _ hsymbols
      exact ⟨hshared, hunreferenced⟩
  refine ⟨Report.lines_ndjson _ coloured, fun record _ => record.parse?_line,
    map_line_findingsOn _, hfindings, ?_⟩
  rw [hfindings]
  exact Report.forall₂_records_pageFindings _

/-- In the project with a shared image and a shared type, which nothing references, the page
has a line for each of the four records. -/
theorem FileTree.twins_shown :
    ∃ scan, twinTree.scan sampleSettings {} ⟨"app"⟩ = .ok scan ∧
      scan.report sampleSettings = twinReport ∧
      (∀ text ∈ twinReport.texts, '\n' ∉ text.toList) ∧
      (Text.lines (twinReport.text .terminal false)).filter (Text.startsWith · "    - ") =
        ["    - icon: 2 files", "    - icon",
          "    - Home (checked: B.swift; also in: A.swift)",
          "    - Home (declared in: B.swift)"] ∧
      twinReport.records.length = 4 := by
  have hscan : twinTree.scan sampleSettings {} ⟨"app"⟩ =
      .ok (.ofFiles sampleSettings {} ⟨"app"⟩ (twinTree.projectFiles sampleSettings ⟨"app"⟩)) :=
    scan_eq_ok_iff.2 ⟨by decide, rfl⟩
  have hreport : (Scan.ofFiles sampleSettings {} ⟨"app"⟩
      (twinTree.projectFiles sampleSettings ⟨"app"⟩)).report sampleSettings = twinReport := by
    decide +kernel
  have hbreaks : ∀ text ∈ twinReport.texts, '\n' ∉ text.toList := by decide +kernel
  have hshown := records_shown hscan (by rwa [hreport]) false
  rw [hreport] at hshown
  obtain ⟨-, -, hlines, hfindings, hrecords⟩ := hshown
  refine ⟨_, hscan, hreport, hbreaks, ?_, ?_⟩
  · rw [← hlines, hfindings]
    decide +kernel
  · rw [hrecords.length_eq, hfindings]
    rfl

end Unreferenced
