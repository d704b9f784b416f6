import Unreferenced.Report.Format

/-!
# Arguments of the command line

The arguments are one path and a number of options. An option has a long name, most have
a letter as well; letters can be put together behind one dash, and the value of an option
is the rest of its argument or the next one. Behind `--` every argument is a path.

Arguments are read from left to right, and the first that is wrong decides, as does the
first that asks for help or the version. An option other than the two that make lists can
be given once. A value that is the next argument must not look like an option itself.
-/

namespace Unreferenced

/-- What the command line asks for. -/
structure Options where
  /-- The project. -/
  path : FilePath := ⟨"."⟩
  /-- The settings file. -/
  config? : Option FilePath := none
  /-- Further texts that exclude paths. -/
  exclude : List String := []
  /-- Further patterns of names that are never reported. -/
  retain : List String := []
  /-- What to look for. -/
  passes : Passes := {}
  /-- The format of the report. -/
  format? : Option ReportFormat := none
  /-- The file that the report is written to. -/
  output? : Option FilePath := none
  /-- The file that the names of unreferenced types are written to. -/
  deletionList? : Option FilePath := none
  /-- Whether to say more along the way. -/
  verbose : Bool := false
  /-- Whether to say nothing along the way. -/
  quiet : Bool := false
deriving DecidableEq, Inhabited, Repr

/-- What a command line comes to. -/
inductive Request where
  /-- A scan. -/
  | scan (options : Options)
  /-- The description of the options. -/
  | help
  /-- The version of the program. -/
  | version
deriving DecidableEq, Inhabited, Repr

/-- An option. -/
inductive OptionName where
  /-- The settings file. -/
  | config
  /-- A text that excludes paths. -/
  | exclude
  /-- A pattern of names that are never reported. -/
  | retain
  /-- What to look for. -/
  | detect
  /-- The format of the report. -/
  | format
  /-- The file that the report is written to. -/
  | output
  /-- The file that the names of unreferenced types are written to. -/
  | deletionList
  /-- Whether to say more. -/
  | verbose
  /-- Whether to say nothing. -/
  | quiet
  /-- The description of the options. -/
  | help
  /-- The version of the program. -/
  | version
deriving DecidableEq, Inhabited, Repr

namespace OptionName

/-- All options. -/
def all : List OptionName :=
  [.config, .exclude, .retain, .detect, .format, .output, .deletionList, .verbose, .quiet,
    .help, .version]

/-- The long name of an option. -/
def long : OptionName → String
  | .config => "config"
  | .exclude => "exclude"
  | .retain => "retain"
  | .detect => "detect"
  | .format => "format"
  | .output => "output"
  | .deletionList => "deletion-list"
  | .verbose => "verbose"
  | .quiet => "quiet"
  | .help => "help"
  | .version => "version"

/-- The letter of an option. -/
def letter? : OptionName → Option Char
  | .config => some 'c'
  | .exclude => some 'e'
  | .retain => some 'r'
  | .detect => none
  | .format => some 'f'
  | .output => some 'o'
  | .deletionList => none
  | .verbose => some 'v'
  | .quiet => some 'q'
  | .help => some 'h'
  | .version => some 'V'

/-- Whether an option has a value. -/
def takesValue : OptionName → Bool
  | .verbose => false
  | .quiet => false
  | .help => false
  | .version => false
  | _ => true

/-- Whether an option can be given more than once. -/
def makesList : OptionName → Bool
  | .exclude => true
  | .retain => true
  | _ => false

/-- The option with a long name. -/
def ofLong? (name : String) : Option OptionName :=
  all.find? fun option => option.long == name

/-- The option with a letter. -/
def ofLetter? (letter : Char) : Option OptionName :=
  all.find? fun option => option.letter? == some letter

end OptionName

/-! ### Values -/

/-- The path that a value is; the empty text is none. -/
def pathValue? (value : String) : Option FilePath :=
  if value.isEmpty then none else some ⟨value⟩

/-- The passes that a value names. -/
def passesValue? (value : String) : Option Passes :=
  if value = "all" then some {}
  else if value = "assets" then some { symbols := false }
  else if value = "symbols" then some { assets := false }
  else none

/-- The format that a value names. -/
def formatValue? (value : String) : Option ReportFormat :=
  if value = "terminal" then some .terminal
  else if value = "json" then some .json
  else if value = "ndjson" then some .ndjson
  else none

namespace Options

/-- The options with the value of one of them. -/
def give (options : Options) (name : OptionName) (value : String) : Option Options :=
  match name with
  | .config => (pathValue? value).map fun path => { options with config? := some path }
  | .exclude => some { options with exclude := options.exclude ++ [value] }
  | .retain => some { options with retain := options.retain ++ [value] }
  | .detect => (passesValue? value).map fun passes => { options with passes }
  | .format => (formatValue? value).map fun format => { options with format? := some format }
  | .output => (pathValue? value).map fun path => { options with output? := some path }
  | .deletionList =>
    (pathValue? value).map fun path => { options with deletionList? := some path }
  | _ => none

/-- The options with one that has no value. -/
def turnOn (options : Options) (name : OptionName) : Option Options :=
  match name with
  | .verbose => some { options with verbose := true }
  | .quiet => some { options with quiet := true }
  | _ => none

end Options

/-! ### Reading arguments -/

/-- The arguments read so far. -/
structure ArgumentState where
  /-- What they ask for. -/
  options : Options := {}
  /-- The options that were given. -/
  given : List OptionName := []
  /-- Whether the path was given. -/
  hasPath : Bool := false
deriving Inhabited

namespace ArgumentState

/-- Notes that an option is given, unless it was and can be only once. -/
def note (state : ArgumentState) (name : OptionName) : Option ArgumentState :=
  if state.given.contains name && !name.makesList then none
  else some { state with given := name :: state.given }

/-- Takes an option with its value. -/
def give (state : ArgumentState) (name : OptionName) (value : String) :
    Option ArgumentState := do
  let state ← state.note name
  some { state with options := ← state.options.give name value }

/-- Takes an option without a value. -/
def turnOn (state : ArgumentState) (name : OptionName) : Option ArgumentState := do
  let state ← state.note name
  some { state with options := ← state.options.turnOn name }

/-- Takes the path. -/
def givePath (state : ArgumentState) (value : String) : Option ArgumentState :=
  if state.hasPath then none
  else (pathValue? value).map fun path =>
    { state with options := { state.options with path }, hasPath := true }

end ArgumentState

/-- What an argument comes to. -/
inductive ArgumentStep where
  /-- More arguments can follow. -/
  | next (state : ArgumentState)
  /-- The value of the option is the next argument. -/
  | awaits (state : ArgumentState) (name : OptionName)
  /-- Nothing that follows counts. -/
  | done (request : Request)

/-- Takes an option that has no value. -/
def takeFlag (state : ArgumentState) (name : OptionName) : Option ArgumentStep :=
  match name with
  | .help => some (.done .help)
  | .version => some (.done .version)
  | _ => (state.turnOn name).map .next

/-- Takes an argument with a long name, given from behind its dashes. -/
def takeLong (state : ArgumentState) (cs : List Char) : Option ArgumentStep := do
  let name ← OptionName.ofLong? (String.ofList (cs.takeWhile (· ≠ '=')))
  match cs.dropWhile (· ≠ '='), name.takesValue with
  | [], false => takeFlag state name
  | [], true => some (.awaits state name)
  | _ :: _, false => none
  | _ :: value, true => (state.give name (String.ofList value)).map .next

/-- Takes an argument of letters, given from behind its dash. -/
def takeLetters (state : ArgumentState) : List Char → Option ArgumentStep
  | [] => some (.next state)
  | letter :: rest => do
    let name ← OptionName.ofLetter? letter
    if name.takesValue then
      match rest with
      | [] => some (.awaits state name)
      | '=' :: value => (state.give name (String.ofList value)).map .next
      | value => (state.give name (String.ofList value)).map .next
    else
      match ← takeFlag state name with
      | .next state => takeLetters state rest
      | other => some other

/-- Whether an argument looks like an option. -/
def looksLikeOption (argument : String) : Bool :=
  match argument.toList with
  | '-' :: _ :: _ => true
  | _ => false

/-- Takes an argument in front of `--`. -/
def takeArgument (state : ArgumentState) (argument : String) : Option ArgumentStep :=
  match argument.toList with
  | '-' :: '-' :: long => takeLong state long
  | '-' :: letter :: more => takeLetters state (letter :: more)
  | _ => (state.givePath argument).map .next

/-- Reads the arguments from a state on. -/
def readArguments (state : ArgumentState) : List String → Option Request
  | [] => some (.scan state.options)
  | argument :: rest =>
    if argument = "--" then
      (rest.foldlM ArgumentState.givePath state).map fun state => .scan state.options
    else do
      match ← takeArgument state argument, rest with
      | .done request, _ => some request
      | .next state, rest => readArguments state rest
      | .awaits state name, value :: rest =>
        if looksLikeOption value then none
        else readArguments (← state.give name value) rest
      | .awaits _ _, [] => none

/-- The request that a command line makes, when it is well formed. -/
def Request.ofArguments? (arguments : List String) : Option Request :=
  readArguments {} arguments

end Unreferenced
