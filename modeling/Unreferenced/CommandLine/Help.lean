import Unreferenced.CommandLine.Arguments

/-!
# What the program says about itself

The version, and the description of the arguments: what the program does, how it is
called, and a row for the path and for each option. The descriptions of the options start
in one column, two spaces behind the longest of their labels.

In colour the headings are bold and underlined, and what is to be typed as it stands is
bold; a value that stands for another, such as the name of a file, is never styled.
-/

namespace Unreferenced

/-- The name that the program is called by. -/
def programName : String :=
  "searchunused"

/-- The line that gives the version. -/
def versionText : String :=
  programName ++ " 0.1.0\n"

/-! ### Stretches of the description -/

/-- A stretch of the description. -/
inductive HelpSpan where
  /-- Text that is only read. -/
  | plain (text : String)
  /-- Text that is to be typed as it stands. -/
  | literal (text : String)
  /-- The heading of a part. -/
  | heading (text : String)
deriving DecidableEq, Inhabited, Repr

/-- The text of a stretch. -/
def HelpSpan.text : HelpSpan → String
  | .plain text => text
  | .literal text => text
  | .heading text => text

/-- A stretch as it is written in colour. -/
def HelpSpan.colouredText : HelpSpan → String
  | .plain text => text
  | .literal text => "\x1b[1m" ++ text ++ "\x1b[0m"
  | .heading text => "\x1b[1m\x1b[4m" ++ text ++ "\x1b[0m"

/-- A line of the description. -/
abbrev HelpLine := List HelpSpan

/-- How wide a line is. -/
def HelpLine.width (line : HelpLine) : Nat :=
  line.foldl (fun width span => width + span.text.length) 0

/-- A line as it is written, with its line break. -/
def HelpLine.write (coloured : Bool) (line : HelpLine) : String :=
  String.join (line.map fun span => if coloured then span.colouredText else span.text) ++ "\n"

/-! ### Options -/

namespace OptionName

/-- What the description calls the value of an option. -/
def valueName? : OptionName → Option String
  | .config => some "CONFIG"
  | .exclude => some "EXCLUDE"
  | .retain => some "RETAIN"
  | .detect => some "DETECT"
  | .format => some "FORMAT"
  | .output => some "OUTPUT"
  | .deletionList => some "FILE"
  | _ => none

/-- What the description says about an option. -/
def description : OptionName → String
  | .config => "Path to configuration file"
  | .exclude =>
    "Path substrings to exclude, case-insensitive (can be specified multiple times)"
  | .retain => "Names never reported, e.g. \"*Cell\" (can be specified multiple times)"
  | .detect =>
    "Which detection passes to run [default: all] [possible values: all, assets, symbols]"
  | .format =>
    "Output format (defaults to the config file's report.format) " ++
      "[possible values: terminal, json, ndjson]"
  | .output => "Write the report to this file instead of stdout"
  | .deletionList => "Write unreferenced type names, one per line, to this file"
  | .verbose => "Verbose output"
  | .quiet => "Quiet mode - only output results"
  | .help => "Print help"
  | .version => "Print version"

/-- The ways of writing an option: its letter, its long name, and its value. -/
def label (name : OptionName) : HelpLine :=
  let letter := match name.letter? with
    | some letter => [.plain "  ", .literal ("-" ++ letter.toString), .plain ", "]
    | none => [.plain "      "]
  let value := match name.valueName? with
    | some value => [.plain (" <" ++ value ++ ">")]
    | none => []
  letter ++ [.literal ("--" ++ name.long)] ++ value

/-- The column that the descriptions of all options start in. -/
def descriptionColumn : Nat :=
  (all.map (·.label.width)).foldl max 0 + 2

/-- The row of an option. -/
def row (name : OptionName) : HelpLine :=
  let gap := List.replicate (descriptionColumn - name.label.width) ' '
  name.label ++ [.plain (String.ofList gap), .plain name.description]

end OptionName

/-! ### The whole description -/

/-- The description of the arguments, line by line. -/
def helpLines : List HelpLine :=
  [[.plain ("A fast CLI tool to find unreferenced image assets and types in " ++
      "Swift / Interface Builder projects")],
    [],
    [.heading "Usage:", .plain " ", .literal programName, .plain " [OPTIONS] [PATH]"],
    [],
    [.heading "Arguments:"],
    [.plain "  [PATH]  Path to the project directory to analyze [default: .]"],
    [],
    [.heading "Options:"]] ++
  OptionName.all.map OptionName.row

/-- The description of the arguments. -/
def helpText (coloured : Bool) : String :=
  String.join (helpLines.map (HelpLine.write coloured))

end Unreferenced
