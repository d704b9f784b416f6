import Unreferenced.FileTree
import Unreferenced.Settings.Reading

/-!
# Settings files

A settings file is read as YAML or as TOML, as its extension says; with any other
extension as YAML if it can be, and otherwise as TOML. A project without a named settings
file uses the first file in its root that has one of six names, and the defaults if there
is none.
-/

namespace Unreferenced

/-- Why a settings file gives no settings. -/
inductive SettingsError where
  /-- The file is not there, or is no text. -/
  | unreadable (path : FilePath)
  /-- A YAML file is malformed, or does not give settings. -/
  | invalidYaml
  /-- A TOML file is malformed, or does not give settings. -/
  | invalidToml
  /-- A file with another extension gives settings in neither notation. -/
  | invalid
deriving DecidableEq, Inhabited, Repr

/-- What is said about a settings file that gives no settings. -/
def SettingsError.message : SettingsError → String
  | .unreadable path => "Failed to read config file: " ++ path.text
  | .invalidYaml => "Failed to parse YAML config"
  | .invalidToml => "Failed to parse TOML config"
  | .invalid => "Failed to parse config file"

/-- The settings in the text of a file with the given extension. -/
def Settings.ofText (extension? : Option String) (text : String) :
    Except SettingsError Settings :=
  if extension? = some "yml" || extension? = some "yaml" then
    ((Settings.ofYaml? text).map .ok).getD (.error .invalidYaml)
  else if extension? = some "toml" then
    ((Settings.ofToml? text).map .ok).getD (.error .invalidToml)
  else
    (((Settings.ofYaml? text).or (Settings.ofToml? text)).map .ok).getD (.error .invalid)

/-- The settings in the file at a path. -/
def FileTree.settingsAt (tree : FileTree) (path : FilePath) : Except SettingsError Settings :=
  match tree.text? path with
  | some text => Settings.ofText path.extension? text
  | none => .error (.unreadable path)

/-- The names of settings files, in the order in which they are looked for. -/
def settingsNames : List String :=
  [".searchunused.yml", ".searchunused.yaml", ".searchunused.toml",
    "searchunused.yml", "searchunused.yaml", "searchunused.toml"]

/-- The settings of the project at a root. -/
def FileTree.settingsOf (tree : FileTree) (root : FilePath) : Except SettingsError Settings :=
  match (settingsNames.map root.join).find? tree.isFile with
  | some path => tree.settingsAt path
  | none => .ok {}

end Unreferenced
