import Unreferenced.CommandLine.Arguments
import Unreferenced.CommandLine.Help
import Unreferenced.FileTree.Change
import Unreferenced.Settings.File

/-!
# Runs of the program

A run takes a file tree and a command line to an exit code, the printed text, and the tree
after it. The settings come first, then the format of the report, then the scan; only when
all three have succeeded is anything printed or written: the report, to the standard
output or to a file, and then the names of the unreferenced types, to a file of their own.

A run that fails before it has printed or written anything therefore leaves no trace.
-/

namespace Unreferenced

/-- Why a run fails. -/
inductive RunError where
  /-- The arguments are malformed. -/
  | usage
  /-- The settings cannot be read. -/
  | settings (error : SettingsError)
  /-- The settings name an unknown format. -/
  | unknownFormat (name : String)
  /-- The project cannot be scanned. -/
  | scan (error : ScanError)
  /-- The report cannot be written. -/
  | report (path : FilePath)
  /-- The names of the unreferenced types cannot be written. -/
  | deletionList (path : FilePath)
deriving DecidableEq, Inhabited, Repr

/-- The exit code of a run that fails. -/
def RunError.exitCode : RunError → Nat
  | .usage => 2
  | _ => 1

/-- What is said about a run that fails. -/
def RunError.message : RunError → String
  | .usage => "The arguments were not understood. For more information, try '--help'."
  | .settings error => error.message
  | .unknownFormat name => "Unknown report format in config: " ++ name
  | .scan error => error.message
  | .report path => "Failed to write report: " ++ path.text
  | .deletionList path => "Failed to write deletion list: " ++ path.text

/-- What a run comes to. -/
structure Outcome where
  /-- Why the run failed, if it did. -/
  error? : Option RunError := none
  /-- The printed text. -/
  printed : String := ""
  /-- The file tree after the run. -/
  tree : FileTree

/-- The exit code of a run. -/
def Outcome.exitCode (outcome : Outcome) : Nat :=
  (outcome.error?.map (·.exitCode)).getD 0

/-- The settings that hold for a run: those of the named file or of the project, and the
additions of the command line. -/
def Options.settings (options : Options) (tree : FileTree) : Except SettingsError Settings := do
  let settings ← match options.config? with
    | some path => tree.settingsAt path
    | none => tree.settingsOf options.path
  return { settings with
    exclude := settings.exclude ++ options.exclude
    retainPatterns := settings.retainPatterns ++ options.retain }

/-- The format of the report of a run. -/
def Options.format (options : Options) (settings : Settings) : Except RunError ReportFormat :=
  match options.format?.or (ReportFormat.ofName? settings.report.format) with
  | some format => .ok format
  | none => .error (.unknownFormat settings.report.format)

/-- What a run finds out before it prints or writes anything: the report and its format. -/
def Options.findings (options : Options) (tree : FileTree) :
    Except RunError (Report × ReportFormat) := do
  let settings ← (options.settings tree).mapError .settings
  let format ← options.format settings
  let scan ← (tree.scan settings options.passes options.path).mapError .scan
  return (scan.report settings, format)

/-- Prints a text as it is. -/
def Outcome.print (outcome : Outcome) (text : String) : Outcome :=
  { outcome with printed := outcome.printed ++ text }

/-- Prints a line. -/
def Outcome.printLine (outcome : Outcome) (line : String) : Outcome :=
  outcome.print (line ++ "\n")

/-- Writes the file of the report. -/
def Outcome.writeReport (outcome : Outcome) (path : FilePath) (contents : String) : Outcome :=
  match outcome.tree.writeText path contents with
  | some tree => { outcome with tree }
  | none => { outcome with error? := some (.report path) }

/-- Puts out the page of a report: to a file without colours, or to the standard output. -/
def Options.putPage (options : Options) (coloured : Bool) (tree : FileTree) (report : Report) :
    Outcome :=
  match options.output? with
  | some path => Outcome.writeReport { tree } path (report.page false)
  | none => Outcome.print { tree } (report.page coloured)

/-- Puts out a text of data. A file gets it with a line break behind it, and is written even
if there is nothing to write; the standard output gets it as a line, and no line at all
if there is nothing to print. -/
def Options.putData (options : Options) (tree : FileTree) (text : String) : Outcome :=
  match options.output? with
  | some path =>
    let contents := if text.isEmpty then "" else text ++ "\n"
    Outcome.writeReport { tree } path contents
  | none => if text.isEmpty then { tree } else Outcome.printLine { tree } text

/-- Puts out a report in a format. -/
def Options.putReport (options : Options) (coloured : Bool) (tree : FileTree) (report : Report)
    (format : ReportFormat) : Outcome :=
  match format with
  | .terminal => options.putPage coloured tree report
  | .json => options.putData tree report.objectText
  | .ndjson => options.putData tree (String.ofList (Text.trimEnd report.recordsText.toList))

/-- Writes the names of the unreferenced types, unless the report could not be put out. -/
def Options.putDeletionList (options : Options) (report : Report) (outcome : Outcome) :
    Outcome :=
  match outcome.error?, options.deletionList? with
  | none, some path =>
    match outcome.tree.writeText path report.deletionList with
    | some tree => { outcome with tree }
    | none => { outcome with error? := some (.deletionList path) }
  | _, _ => outcome

/-- A run that scans. -/
def Options.run (options : Options) (coloured : Bool) (tree : FileTree) : Outcome :=
  match options.findings tree with
  | .error error => { error? := some error, tree }
  | .ok (report, format) =>
    options.putDeletionList report (options.putReport coloured tree report format)

/-- A run of the program. -/
def run (arguments : List String) (coloured : Bool) (tree : FileTree) : Outcome :=
  match Request.ofArguments? arguments with
  | none => { error? := some .usage, tree }
  | some .help => { printed := helpText coloured, tree }
  | some .version => { printed := versionText, tree }
  | some (.scan options) => options.run coloured tree

end Unreferenced
