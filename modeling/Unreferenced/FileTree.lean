import Unreferenced.FilePath

/-!
# File trees

What a run of the program sees of a file system, as a value: directories with named
entries, regular files with their bytes, and symbolic links with their targets, together
with the directory that relative paths start from. No order among the entries of a
directory has a meaning.

A path is looked up step by step. A link met on the way is replaced by its target, at
most `linkLimit` times in one look-up, so that a circle of links is an absent file; a
regular file can only be the last step. `FileTree.find?` answers with the `Place` that
the path names: a directory, a file, or the vacant place in an existing directory at
which a file could be created.
-/

namespace Unreferenced

/-- An entry of a directory. -/
inductive Entry where
  /-- A regular file. -/
  | file (name : String) (contents : ByteArray)
  /-- A directory. -/
  | directory (name : String) (entries : List Entry)
  /-- A symbolic link. -/
  | link (name : String) (target : String)
deriving Inhabited

/-- The name of an entry in its directory. -/
def Entry.name : Entry → String
  | .file name _ => name
  | .directory name _ => name
  | .link name _ => name

/-- A file system. -/
structure FileTree where
  /-- The entries of the directory that absolute paths start from. -/
  entries : List Entry
  /-- The names that lead to the directory that relative paths start from. -/
  workingDirectory : List String

/-- What a path leads to. A position is the list of names that lead to a directory. -/
inductive Place where
  /-- A directory with its entries. -/
  | directory (position : List String) (entries : List Entry)
  /-- A regular file of the directory at the position. -/
  | file (position : List String) (name : String) (contents : ByteArray)
  /-- A name that the directory at the position does not hold. -/
  | vacant (position : List String) (name : String)

/-- The steps that a look-up of the path takes. Unlike its components they include a
`current` for every empty or `.` stretch, since what comes before one has to be a
directory. -/
def FilePath.steps (path : FilePath) : List FilePath.Component :=
  let stretches := Text.pieces '/' path.text.toList
  let step (piece : List Char) := (FilePath.component? piece).getD .current
  if path.text.toList.head? = some '/' then .root :: stretches.map step
  else stretches.map step

/-- The entry of the given name. -/
def entryNamed? (name : String) (entries : List Entry) : Option Entry :=
  entries.find? (·.name == name)

/-- The entries of the directory that the names lead to. -/
def entriesAt? (entries : List Entry) : List String → Option (List Entry)
  | [] => some entries
  | name :: rest =>
    match entryNamed? name entries with
    | some (.directory _ inner) => entriesAt? inner rest
    | _ => none

namespace FileTree

/-! ### Looking up a path -/

/-- How far steps lead without following a link. -/
inductive Progress where
  /-- To their end. -/
  | arrived (place : Place)
  /-- To a name that is not there, or through a file. -/
  | lost
  /-- To a link in the directory at the position, with the steps behind it left. -/
  | redirected (position : List String) (target : String) (rest : List FilePath.Component)

/-- Takes steps from a directory, up to the first link. -/
def advance (tree : FileTree) : List String → List FilePath.Component → Progress
  | position, [] =>
    match entriesAt? tree.entries position with
    | some entries => .arrived (.directory position entries)
    | none => .lost
  | _, .root :: rest => tree.advance [] rest
  | position, .current :: rest => tree.advance position rest
  | position, .parent :: rest => tree.advance position.dropLast rest
  | position, .name name :: rest =>
    match entriesAt? tree.entries position with
    | none => .lost
    | some entries =>
      match entryNamed? name entries with
      | none => if rest.isEmpty then .arrived (.vacant position name) else .lost
      | some (.directory _ _) => tree.advance (position ++ [name]) rest
      | some (.file _ contents) =>
        if rest.isEmpty then .arrived (.file position name contents) else .lost
      | some (.link _ target) => .redirected position target rest

/-- Takes steps from a directory, following at most the given number of links. -/
def follow (tree : FileTree) : Nat → List String → List FilePath.Component → Option Place
  | links, position, steps =>
    match tree.advance position steps with
    | .arrived place => some place
    | .lost => none
    | .redirected position target rest =>
      match links with
      | 0 => none
      | links + 1 => tree.follow links position ((⟨target⟩ : FilePath).steps ++ rest)

/-- How many links a look-up follows. -/
def linkLimit : Nat := 40

/-- How many bytes the text of a path may have. -/
def pathLimit : Nat := 4095

/-- Whether a text can name anything: it is not empty, not too long, and free of the null
character. -/
def isNameable (path : FilePath) : Bool :=
  !path.text.isEmpty && path.text.utf8ByteSize ≤ pathLimit && !path.text.toList.contains '\x00'

/-- The place that a path names. -/
def find? (tree : FileTree) (path : FilePath) : Option Place :=
  if isNameable path then tree.follow linkLimit tree.workingDirectory path.steps else none

/-- Whether the path leads to a regular file. -/
def isFile (tree : FileTree) (path : FilePath) : Bool :=
  match tree.find? path with
  | some (.file ..) => true
  | _ => false

/-- Whether the path leads to a directory. -/
def isDirectory (tree : FileTree) (path : FilePath) : Bool :=
  match tree.find? path with
  | some (.directory ..) => true
  | _ => false

/-- The bytes of the file that the path leads to. -/
def bytes? (tree : FileTree) (path : FilePath) : Option ByteArray :=
  match tree.find? path with
  | some (.file _ _ contents) => some contents
  | _ => none

/-- The text of the file that the path leads to, when its bytes are valid UTF-8. -/
def text? (tree : FileTree) (path : FilePath) : Option String :=
  (tree.bytes? path).bind String.fromUTF8?

end FileTree

end Unreferenced
