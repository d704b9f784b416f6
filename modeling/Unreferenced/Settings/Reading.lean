import Unreferenced.Settings
import Unreferenced.Toml.Document
import Unreferenced.Yaml.Node

/-!
# Settings from data

Settings are read from a value of a data notation: what is not given keeps its default,
unknown keys are passed over, and a known key that is given twice or with a value of
another shape is an error. What counts as a text, a list or a section differs between the
notations, so a notation is described by a `DataView`, and everything else is said once.

In YAML every scalar is a text as it is written, and where nothing is written an empty
list or section can stand. In TOML a section can also be an array with the values in the
order of their keys.
-/

namespace Unreferenced

/-- The content of a section. -/
inductive Fields (V : Type) where
  /-- Values by keys. -/
  | named (members : List (String × V))
  /-- Values in the order of the keys. -/
  | ordered (values : List V)

/-- What a notation takes its values for. -/
structure DataView (V : Type) where
  /-- The text that a value is. -/
  text? : V → Option String
  /-- The truth value that a value is. -/
  flag? : V → Option Bool
  /-- The list that a value is. -/
  items? : V → Option (List V)
  /-- The section that a value is. -/
  fields? : V → Option (Fields V)

/-- The list of texts that a value is. -/
def DataView.texts? {V : Type} (view : DataView V) (value : V) : Option (List String) :=
  (view.items? value).bind (·.mapM view.text?)

/-- The values given for the known keys of a section, none of them twice. -/
def Fields.given? {V : Type} (keys : List String) : Fields V → Option (List (String × V))
  | .named members =>
    let known := members.filter fun member => keys.contains member.1
    if (known.map (·.1)).Nodup then some known else none
  | .ordered values => some (keys.zip values)

/-- The setting of a key: as given, or its default. -/
def setting {V T : Type} (given : List (String × V)) (key : String) (default : T)
    (read : V → Option T) : Option T :=
  match given.lookup key with
  | some value => read value
  | none => some default

/-- The values given for the known keys of a value that is a section. -/
def DataView.given? {V : Type} (view : DataView V) (keys : List String) (value : V) :
    Option (List (String × V)) :=
  (view.fields? value).bind (·.given? keys)

/-- Reads the settings about files. -/
def FileSettings.read {V : Type} (view : DataView V) (value : V) : Option FileSettings := do
  let standard : FileSettings := {}
  let given ← view.given? ["image_extensions", "source_extensions", "markup_extensions",
    "asset_bundle_suffix", "skip_hidden"] value
  some {
    imageExtensions :=
      ← setting given "image_extensions" standard.imageExtensions view.texts?
    sourceExtensions :=
      ← setting given "source_extensions" standard.sourceExtensions view.texts?
    markupExtensions :=
      ← setting given "markup_extensions" standard.markupExtensions view.texts?
    bundleSuffix := ← setting given "asset_bundle_suffix" standard.bundleSuffix view.text?
    skipHidden := ← setting given "skip_hidden" standard.skipHidden view.flag? }

/-- Reads the settings about declarations. -/
def SymbolSettings.read {V : Type} (view : DataView V) (value : V) : Option SymbolSettings := do
  let standard : SymbolSettings := {}
  let given ← view.given? ["declaration_keywords", "framework_prefixes", "builtin_types"] value
  some {
    declarationKeywords :=
      ← setting given "declaration_keywords" standard.declarationKeywords view.texts?
    frameworkPrefixes :=
      ← setting given "framework_prefixes" standard.frameworkPrefixes view.texts?
    builtinTypes := ← setting given "builtin_types" standard.builtinTypes view.texts? }

/-- Reads the settings about the report. -/
def ReportSettings.read {V : Type} (view : DataView V) (value : V) : Option ReportSettings := do
  let standard : ReportSettings := {}
  let given ← view.given? ["format"] value
  some { format := ← setting given "format" standard.format view.text? }

/-- Reads all settings from the content of a file. -/
def Settings.read {V : Type} (view : DataView V) (content : Fields V) : Option Settings := do
  let standard : Settings := {}
  let given ← content.given? ["exclude", "retain_patterns", "files", "symbols", "report"]
  some {
    exclude := ← setting given "exclude" standard.exclude view.texts?
    retainPatterns := ← setting given "retain_patterns" standard.retainPatterns view.texts?
    files := ← setting given "files" standard.files (FileSettings.read view)
    symbols := ← setting given "symbols" standard.symbols (SymbolSettings.read view)
    report := ← setting given "report" standard.report (ReportSettings.read view) }

/-! ### The two notations -/

namespace Yaml

/-- Whether a node is an unquoted scalar without any text. -/
def Node.isNothing : Node → Bool
  | .scalar _ _ .plain text => text.isEmpty
  | _ => false

/-- The tag of truth values. -/
def flagTag : String := "tag:yaml.org,2002:bool"

/-- The truth value that a word stands for. -/
def flagOfWord? (word : String) : Option Bool :=
  if word = "true" || word = "True" || word = "TRUE" then some true
  else if word = "false" || word = "False" || word = "FALSE" then some false
  else none

/-- What the nodes of a document are taken for. Keys have to be scalars. -/
def Document.view (document : Document) : DataView Node where
  text? node :=
    match document.resolve node with
    | .scalar _ _ _ text => some text
    | _ => none
  flag? node :=
    match document.resolve node with
    | .scalar _ tag? style text =>
      if style = .plain || (style = .literal && tag? = some flagTag) then flagOfWord? text
      else none
    | _ => none
  items? node :=
    match document.resolve node with
    | .sequence _ items => some items
    | other => if other.isNothing then some [] else none
  fields? node :=
    match document.resolve node with
    | .mapping _ members =>
      (members.mapM fun (member : Node × Node) =>
        match document.resolve member.1 with
        | .scalar _ _ _ text => some (text, member.2)
        | _ => none).map .named
    | other => if other.isNothing then some (.named []) else none

end Yaml

/-- The settings that a YAML text gives. -/
def Settings.ofYaml? (text : String) : Option Settings := do
  let document ← Yaml.document? text
  match document.root? with
  | none => some {}
  | some root => Settings.read document.view (← document.view.fields? root)

namespace Toml

/-- What the values of a TOML text are taken for. A moment is a section of keys that no
setting has. -/
def view : DataView Value where
  text? value :=
    match value with
    | .string text => some text
    | _ => none
  flag? value :=
    match value with
    | .boolean flag => some flag
    | _ => none
  items? value :=
    match value with
    | .array items => some items
    | .tables elements => some elements
    | _ => none
  fields? value :=
    match value with
    | .table _ members => some (.named members)
    | .array items => some (.ordered items)
    | .tables elements => some (.ordered elements)
    | .moment => some (.named [])
    | _ => none

end Toml

/-- The settings that a TOML text gives. -/
def Settings.ofToml? (text : String) : Option Settings :=
  (Toml.document? text).bind fun members => Settings.read Toml.view (.named members)

end Unreferenced
