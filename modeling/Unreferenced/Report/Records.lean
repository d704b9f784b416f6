import Unreferenced.Json
import Unreferenced.Report

/-!
# The report as data

The report for programs, in two forms: one JSON object with all lists and the summary,
or one record a line, each a finding with its kind, its name and its place.
-/

namespace Unreferenced

namespace Report

/-! ### One object -/

/-- The lists and the summary of a report as members of an object. -/
def members (report : Report) : List (String × Json) :=
  [("root", .string report.root),
    ("asset_collisions", .array (report.sharedAssets.map fun asset =>
      .object [("name", .string asset.name), ("count", .ofNat asset.count)])),
    ("unreferenced_assets", .array (report.unreferencedAssets.map fun asset =>
      .object [("name", .string asset.name),
        ("location", (asset.location?.map Json.string).getD .null)])),
    ("symbol_collisions", .array (report.sharedSymbols.map fun symbol =>
      .object [("name", .string symbol.name), ("kept", .string symbol.kept),
        ("shadowed", .array (symbol.shadowed.map .string))])),
    ("unreferenced_symbols", .array (report.unreferencedSymbols.map fun symbol =>
      .object [("name", .string symbol.name), ("file", .string symbol.file)])),
    ("summary", .object [
      ("image_files", .ofNat report.summary.imageFiles),
      ("source_files", .ofNat report.summary.sourceFiles),
      ("markup_files", .ofNat report.summary.markupFiles),
      ("asset_names", .ofNat report.summary.assetNames),
      ("symbols_declared", .ofNat report.summary.symbolsDeclared),
      ("symbols_checked", .ofNat report.summary.symbolsChecked)])]

/-- The report as an object. -/
def object (report : Report) : Json :=
  .object ([("version", .string "1.0")] ++ report.members ++
    [("note", .string transitiveNote)])

/-- The text of the report as an object. -/
def objectText (report : Report) : String :=
  String.ofList (report.object.pretty 0)

/-! ### One record a line -/

/-- A finding as a record; only findings about several files have a count. -/
structure Record where
  /-- The kind of finding. -/
  kind : String
  /-- The name that the finding is about. -/
  name : String
  /-- The file or directory to look at. -/
  location? : Option String
  /-- The number of files. -/
  count? : Option Nat
deriving DecidableEq, Inhabited, Repr

/-- A record as an object. -/
def Record.object (record : Record) : Json :=
  .object ([("kind", .string record.kind), ("name", .string record.name),
    ("location", (record.location?.map Json.string).getD .null)] ++
    (record.count?.map fun count => ("count", Json.ofNat count)).toList)

/-- The findings of a report as records. -/
def records (report : Report) : List Record :=
  report.sharedAssets.map (fun asset => ⟨"asset_collision", asset.name, none, some asset.count⟩) ++
    report.unreferencedAssets.map (fun asset => ⟨"asset", asset.name, asset.location?, none⟩) ++
    report.sharedSymbols.map (fun symbol =>
      ⟨"symbol_collision", symbol.name, some symbol.kept, some (symbol.shadowed.length + 1)⟩) ++
    report.unreferencedSymbols.map (fun symbol =>
      ⟨"symbol", symbol.name, some symbol.file, none⟩)

/-- The text of the findings, one record a line. -/
def recordsText (report : Report) : String :=
  String.ofList (report.records.flatMap fun record => record.object.compact ++ ['\n'])

end Report

end Unreferenced
