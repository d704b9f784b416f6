import Unreferenced.Text.Pieces

/-!
# File paths

A path is a text, kept and shown as it was written, and read as a list of components.
Repeated separators, a trailing separator and inner `.` steps leave no component; a
leading `.` and every `..` do, and nothing is looked up in a file tree. Two paths are the
*same* when their components agree, whatever their texts.

The main definitions are `FilePath.components`, the relation `FilePath.Same`, and the two
ways from one path to another: `FilePath.join` appends texts, while
`FilePath.relativeTo?` and `FilePath.ofComponents` go through the components and so give
a text in normal form.
-/

namespace Unreferenced

/-- A path, as the text it was written as. -/
structure FilePath where
  /-- The text of the path. -/
  text : String
deriving DecidableEq, Inhabited, Repr

namespace FilePath

/-! ### Components -/

/-- A step of a path. -/
inductive Component where
  /-- The separator that an absolute path starts with. -/
  | root
  /-- The leading `.` of a relative path. -/
  | current
  /-- A step `..`, which is kept as it is. -/
  | parent
  /-- The name of a file or directory. -/
  | name (text : String)
deriving DecidableEq, Inhabited, Repr

/-- The text of a component. -/
def Component.text : Component → String
  | .root => "/"
  | .current => "."
  | .parent => ".."
  | .name text => text

/-- The component that a stretch between separators stands for, if it leaves one. -/
def component? (piece : List Char) : Option Component :=
  if piece.isEmpty || piece == ['.'] then none
  else if piece == ['.', '.'] then some .parent
  else some (.name (String.ofList piece))

/-- The components of a path whose text consists of the given characters. -/
def componentsOf (cs : List Char) : List Component :=
  let stretches := Text.pieces '/' cs
  let start : List Component :=
    if cs.head? = some '/' then [.root]
    else if stretches.head? = some ['.'] then [.current]
    else []
  start ++ stretches.filterMap component?

/-- The components of a path. -/
def components (path : FilePath) : List Component :=
  componentsOf path.text.toList

/-- Two paths are the same when they have the same components. -/
def Same (p q : FilePath) : Prop :=
  p.components = q.components

instance (p q : FilePath) : Decidable (p.Same q) :=
  inferInstanceAs (Decidable (_ = _))

theorem Same.refl (p : FilePath) : p.Same p :=
  rfl

theorem Same.symm {p q : FilePath} (h : p.Same q) : q.Same p :=
  Eq.symm h

theorem Same.trans {p q r : FilePath} (h : p.Same q) (h' : q.Same r) : p.Same r :=
  Eq.trans h h'

theorem same_comm {p q : FilePath} : p.Same q ↔ q.Same p :=
  ⟨Same.symm, Same.symm⟩

/-! ### Building paths -/

/-- The path with a further text appended: an absolute text replaces the path, and a
separator is put between the two unless the path is empty or ends with one. -/
def join (path : FilePath) (text : String) : FilePath :=
  if text.toList.head? = some '/' then ⟨text⟩
  else if path.text.isEmpty || path.text.toList.getLast? = some '/' then ⟨path.text ++ text⟩
  else ⟨path.text ++ "/" ++ text⟩

/-- The path made of the given components, with single separators between them. -/
def ofComponents (components : List Component) : FilePath :=
  components.foldl (fun path c => path.join c.text) ⟨""⟩

/-- The path from `root` to `path` in normal form, when the components of `root` come
first in it. -/
def relativeTo? (path root : FilePath) : Option FilePath :=
  if root.components.isPrefixOf path.components then
    some (ofComponents (path.components.drop root.components.length))
  else none

/-- The text of a path as it is shown to someone who stands at `root`. -/
def shownFrom (path root : FilePath) : String :=
  ((path.relativeTo? root).getD path).text

/-! ### The last name -/

/-- The name that the path ends in, when its last component is one. -/
def fileName? (path : FilePath) : Option String :=
  match path.components.getLast? with
  | some (.name text) => some text
  | _ => none

/-- A name cut at its last dot, unless nothing stands before that dot. -/
def splitName (name : List Char) : List Char × Option (List Char) :=
  let after := (name.reverse.takeWhile (· ≠ '.')).reverse
  let before := name.take (name.length - after.length - 1)
  if before.isEmpty then (name, none) else (before, some after)

/-- The name that the path ends in, without its extension. -/
def stem? (path : FilePath) : Option String :=
  path.fileName?.map fun name => String.ofList (splitName name.toList).1

/-- What follows the last dot of the name that the path ends in; a dot that starts the
name does not count. -/
def extension? (path : FilePath) : Option String :=
  path.fileName?.bind fun name => (splitName name.toList).2.map String.ofList

end FilePath

end Unreferenced
