import Unreferenced.Report
import Unreferenced.Styled

/-!
# The report as a page to read

The report for a person: a title, one section for images and one for types, each only
when the scan looked for them, and a reminder to check every finding. A section lists
shared names first, when there are any, and then what nothing references.
-/

namespace Unreferenced

namespace Report

/-- The line that separates the parts of a page. -/
def rule : StyledLine :=
  [styled .dimmed "---"]

/-- The part of the page on names that several images share. -/
def sharedAssetLines (report : Report) : List StyledLine :=
  if report.sharedAssets.isEmpty then []
  else
    [styled .yellow "### 1.1 Images sharing a name"] ::
      report.sharedAssets.map (fun asset =>
        [unstyled ("    - " ++ asset.name ++ ": " ++ toString asset.count ++ " files")]) ++
      [rule]

/-- The lines on an unreferenced image. -/
def unreferencedAssetLines (asset : UnreferencedAsset) : List StyledLine :=
  let location : List StyledLine :=
    match asset.location? with
    | some location => [[styled .dimmed ("      (path: " ++ location ++ ")")]]
    | none => []
  [unstyled "    - ", styled .white asset.name] :: location

/-- The section on images. -/
def assetLines (report : Report) : List StyledLine :=
  [[styled .heading "## 1. Unreferenced images"], rule] ++
    report.sharedAssetLines ++
    [[unstyled "### 1.2 Image reference results"]] ++
    (if report.unreferencedAssets.isEmpty then
      [[styled .green "  No obviously unreferenced images found."]]
    else
      [styled .yellow ("  " ++ toString report.unreferencedAssets.length ++
        " possibly unreferenced image names (check manually):")] ::
        report.unreferencedAssets.flatMap unreferencedAssetLines) ++
    [rule]

/-- The part of the page on types that several files declare. -/
def sharedSymbolLines (report : Report) : List StyledLine :=
  if report.sharedSymbols.isEmpty then []
  else
    [styled .yellow "### 2.1 Types declared in multiple files"] ::
      report.sharedSymbols.map (fun symbol =>
        [unstyled ("    - " ++ symbol.name ++ " (checked: " ++ symbol.kept ++ "; also in: " ++
          ", ".intercalate symbol.shadowed ++ ")")]) ++
      [rule]

/-- The section on types. -/
def symbolLines (report : Report) : List StyledLine :=
  [[styled .heading "## 2. Unreferenced classes / structs / enums"], rule] ++
    report.sharedSymbolLines ++
    (if report.unreferencedSymbols.isEmpty then
      [[styled .green "  No obviously unreferenced classes / structs / enums found."]]
    else
      [styled .yellow ("  " ++ toString report.unreferencedSymbols.length ++
        " possibly unreferenced types (check the reference chain manually):")] ::
        report.unreferencedSymbols.map (fun symbol =>
          [unstyled "    - ", styled .white symbol.name, unstyled " ",
            styled .dimmed ("(declared in: " ++ symbol.file ++ ")")]) ++
        [[unstyled ""], [styled .dimmed ("  Note: " ++ transitiveNote)]]) ++
    [rule]

/-- The lines of the page. -/
def pageLines (report : Report) : List StyledLine :=
  [rule, [styled .bold "Unreferenced asset and type scan"],
      [unstyled ("Project path: " ++ report.root)], rule] ++
    (if report.passes.assets then report.assetLines else []) ++
    (if report.passes.symbols then report.symbolLines else []) ++
    [[styled .green "Scan complete. Review every result by hand."],
      [styled .dimmed "Back up the project before deleting any file or code."]]

/-- The report as a page, in colour or plainly. -/
def page (coloured : Bool) (report : Report) : String :=
  writeLines coloured report.pageLines

end Report

end Unreferenced
