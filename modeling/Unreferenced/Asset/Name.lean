import Unreferenced.FilePath
import Unreferenced.Text.Bytes
import Unreferenced.Text.LowerCase
import Unreferenced.Text.Search

/-!
# The name of an image

An image in a bundle directory is known by the name of the bundle, any other by its own
name without the extension. A directory is a bundle when its lower-cased name ends in the
lower-cased suffix and more than the suffix; of several on one path the innermost counts.

Lengths are compared in bytes, those of the lower-cased suffix with those of the name as
it is written, and as many bytes are cut off. A character whose lower case has another
length in bytes can so move the cut, and where it would fall inside a character there is
no bundle.
-/

namespace Unreferenced

/-- The name of the bundle that a directory name stands for, given the lower-cased
suffix. -/
def bundleName? (suffix name : String) : Option String :=
  if suffix.utf8ByteSize < name.utf8ByteSize && Text.endsWith (Text.lower name) suffix then
    (Text.takeBytes? (name.utf8ByteSize - suffix.utf8ByteSize) name.toList).map String.ofList
  else none

/-- The name of the innermost bundle among the components, with the path up to it. The
components in `before` are those already passed. -/
def innermostBundle? (suffix : String) (before : List FilePath.Component) :
    List FilePath.Component → Option (String × FilePath)
  | [] => none
  | component :: rest =>
    let upTo := before ++ [component]
    match innermostBundle? suffix upTo rest with
    | some found => some found
    | none => (bundleName? suffix component.text).map (·, FilePath.ofComponents upTo)

/-- The name of the image at a path and the bundle that gave it, if one did. -/
def imageName? (path : FilePath) (bundleSuffix : String) :
    Option (String × Option FilePath) :=
  let suffix := Text.lower bundleSuffix
  let bundle? := if suffix.isEmpty then none else innermostBundle? suffix [] path.components
  match bundle? with
  | some (name, bundle) => some (name, some bundle)
  | none => path.stem?.bind fun stem => if stem.isEmpty then none else some (stem, none)

end Unreferenced
