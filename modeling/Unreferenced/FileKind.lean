import Unreferenced.Settings
import Unreferenced.FilePath
import Unreferenced.Text.LowerCase

/-!
# Kinds of files

A file is told by its extension alone, in any case: it is an image, a source file, an
interface file, or nothing that the scan is concerned with. An extension that is listed
for more than one kind belongs to the first of them in this order.
-/

namespace Unreferenced

/-- What the scan takes a file for. -/
inductive FileKind where
  /-- An image, whose name may be referenced. -/
  | image
  /-- Source code, which is searched for references and declares types. -/
  | source
  /-- An interface description, which is searched for references. -/
  | markup
  /-- Anything else. -/
  | ignored
deriving DecidableEq, Inhabited, Repr

/-- Whether the text of such a file is searched. -/
def FileKind.isSearchable : FileKind → Bool
  | .source => true
  | .markup => true
  | _ => false

/-- The name of a kind in answers about files. -/
def FileKind.name : FileKind → String
  | .image => "image"
  | .source => "source"
  | .markup => "markup"
  | .ignored => "ignored"

/-- An extension as it is compared: lower-cased, without leading dots in the settings. -/
def normalExtension (setting : String) : String :=
  Text.lower (String.ofList (setting.toList.dropWhile (· == '.')))

/-- The kind of file that an extension marks. -/
def FileSettings.kindOf (settings : FileSettings) (extension : String) : FileKind :=
  let listed (extensions : List String) := (extensions.map normalExtension).contains extension
  if listed settings.imageExtensions then .image
  else if listed settings.sourceExtensions then .source
  else if listed settings.markupExtensions then .markup
  else .ignored

/-- The kind of the file at a path. -/
def FileSettings.classify (settings : FileSettings) (path : FilePath) : FileKind :=
  match path.extension? with
  | none => .ignored
  | some extension => settings.kindOf (Text.lower extension)

/-- How many files of each kind take part in a scan. -/
structure FileCounts where
  /-- Number of images. -/
  images : Nat := 0
  /-- Number of source files. -/
  sources : Nat := 0
  /-- Number of interface files. -/
  markup : Nat := 0
deriving DecidableEq, Inhabited, Repr

/-- The counts of a list of kinds. -/
def FileCounts.ofKinds (kinds : List FileKind) : FileCounts where
  images := kinds.count .image
  sources := kinds.count .source
  markup := kinds.count .markup

/-- The number of files of all three kinds. -/
def FileCounts.total (counts : FileCounts) : Nat :=
  counts.images + counts.sources + counts.markup

end Unreferenced
