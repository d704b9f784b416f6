import Unreferenced.Scan

/-!
# The report of a scan

What a scan has found, ready to be shown: the images that share a name, the images that
nothing references, the types that several files declare, and the types that nothing
references, each list by name and with paths as seen from the root. Names that the
settings retain are left out of the two lists of unreferenced names.
-/

namespace Unreferenced

/-- A name that several images share. -/
structure SharedAsset where
  /-- The name. -/
  name : String
  /-- The number of images. -/
  count : Nat
deriving DecidableEq, Inhabited, Repr

/-- An image that nothing references. -/
structure UnreferencedAsset where
  /-- The name. -/
  name : String
  /-- Where the image is, as seen from the root. -/
  location? : Option String
deriving DecidableEq, Inhabited, Repr

/-- A type that several files declare. -/
structure SharedSymbol where
  /-- The name. -/
  name : String
  /-- The file for which references were looked for. -/
  kept : String
  /-- The other files. -/
  shadowed : List String
deriving DecidableEq, Inhabited, Repr

/-- A type that nothing references. -/
structure UnreferencedSymbol where
  /-- The name. -/
  name : String
  /-- The declaring file, as seen from the root. -/
  file : String
deriving DecidableEq, Inhabited, Repr

/-- The size of a scan in numbers. -/
structure Summary where
  /-- Number of images. -/
  imageFiles : Nat := 0
  /-- Number of source files. -/
  sourceFiles : Nat := 0
  /-- Number of interface files. -/
  markupFiles : Nat := 0
  /-- Number of image names. -/
  assetNames : Nat := 0
  /-- Number of declared types. -/
  symbolsDeclared : Nat := 0
  /-- Number of types that were looked for. -/
  symbolsChecked : Nat := 0
deriving DecidableEq, Inhabited, Repr

/-- The report of a scan. -/
structure Report where
  /-- The directory that was scanned. -/
  root : String := ""
  /-- What the scan looked for. -/
  passes : Passes := {}
  /-- The names that several images share. -/
  sharedAssets : List SharedAsset := []
  /-- The images that nothing references. -/
  unreferencedAssets : List UnreferencedAsset := []
  /-- The types that several files declare. -/
  sharedSymbols : List SharedSymbol := []
  /-- The types that nothing references. -/
  unreferencedSymbols : List UnreferencedSymbol := []
  /-- The size of the scan. -/
  summary : Summary := {}
deriving DecidableEq, Inhabited, Repr

/-- The note that goes with every list of unreferenced types. -/
def transitiveNote : String :=
  "If A references B but nothing outside A references A, only A is reported. " ++
    "Check A by hand: if A really is unused, B should be treated as unused as well."

/-- Whether a verdict is to be reported. -/
def Settings.reports (settings : Settings) (name : String) (verdict : Verdict) : Bool :=
  !verdict.isReferenced && !settings.retain name

/-- The unreferenced images among the verdicts. -/
def reportedAssets (settings : Settings) (root : FilePath)
    (verdicts : List (AssetEntry × Verdict)) : List UnreferencedAsset :=
  let reported := verdicts.filter fun (entry, verdict) => settings.reports entry.name verdict
  sortedBy (·.name) (reported.map fun (entry, _) =>
    { name := entry.name, location? := entry.bestLocation?.map (·.shownFrom root) })

/-- The unreferenced types among the verdicts. -/
def reportedSymbols (settings : Settings) (root : FilePath)
    (verdicts : List (SymbolEntry × Verdict)) : List UnreferencedSymbol :=
  let reported := verdicts.filter fun (entry, verdict) => settings.reports entry.name verdict
  sortedBy (·.name) (reported.map fun (entry, _) =>
    { name := entry.name, file := entry.path.shownFrom root })

/-- The report of a scan, with the verdicts on what it has collected. -/
def Report.build (settings : Settings) (scan : Scan)
    (assetVerdicts : List (AssetEntry × Verdict))
    (symbolVerdicts : List (SymbolEntry × Verdict)) : Report where
  root := scan.root.text
  passes := scan.passes
  sharedAssets := scan.assets.shared.map fun (name, count) => { name, count }
  unreferencedAssets := reportedAssets settings scan.root assetVerdicts
  sharedSymbols := scan.symbols.collisions.map fun entry =>
    { name := entry.name
      kept := entry.path.shownFrom scan.root
      shadowed := entry.shadowed.map (·.shownFrom scan.root) }
  unreferencedSymbols := reportedSymbols settings scan.root symbolVerdicts
  summary :=
    { imageFiles := scan.counts.images
      sourceFiles := scan.counts.sources
      markupFiles := scan.counts.markup
      assetNames := scan.assets.size
      symbolsDeclared := scan.symbols.size
      symbolsChecked := symbolVerdicts.length }

/-- The report of a scan. -/
def Scan.report (scan : Scan) (settings : Settings) : Report :=
  .build settings scan scan.assetVerdicts (scan.symbolVerdicts settings.symbols)

/-- The names of the unreferenced types, one on each line. -/
def Report.deletionList (report : Report) : String :=
  String.ofList (report.unreferencedSymbols.flatMap fun symbol => symbol.name.toList ++ ['\n'])

end Unreferenced
