import Unreferenced.Report.Page
import Unreferenced.Report.Records
import Unreferenced.Text.Blank

/-!
# Report formats

The three formats of a report, their names, and the text that each comes to. The standard
output and a file get it in different ways (`Unreferenced.Options.putReport`). A text of data
ends in one line break, or is empty when there are no records; a page is the same in both
places but for its colours, which a file never has.
-/

namespace Unreferenced

/-- The format of a report. -/
inductive ReportFormat where
  /-- A page to read. -/
  | terminal
  /-- One JSON object. -/
  | json
  /-- One JSON record a line. -/
  | ndjson
deriving DecidableEq, Inhabited, Repr

/-- The format that a name in the settings stands for, in any case. -/
def ReportFormat.ofName? (name : String) : Option ReportFormat :=
  let name := Text.lower name
  if name = "terminal" then some .terminal
  else if name = "json" then some .json
  else if name = "ndjson" || name = "jsonl" then some .ndjson
  else none

/-- A text of data as it is put out: one line break behind it, unless it is empty. -/
def endedOnce (text : String) : String :=
  if text.isEmpty then "" else text ++ "\n"

/-- The text of a report in a format. -/
def Report.text (report : Report) (format : ReportFormat) (coloured : Bool) : String :=
  match format with
  | .terminal => report.page coloured
  | .json => endedOnce report.objectText
  | .ndjson => endedOnce (String.ofList (Text.trimEnd report.recordsText.toList))

end Unreferenced
