import Unreferenced.FileTree

/-!
# Changing a file tree

Writing a file, creating the directories on the way to a path, and creating a link. Each
change answers with the tree after it, or with nothing when the path does not allow it,
in which case there is no other tree to speak of: no change is ever made in part.
-/

namespace Unreferenced

/-- The entries with those of the directory at the position replaced by their image. -/
def adjustAt (change : List Entry → List Entry) : List String → List Entry → List Entry
  | [], entries => change entries
  | step :: rest, entries =>
    entries.map fun
      | .directory name inner =>
        if name = step then .directory name (adjustAt change rest inner)
        else .directory name inner
      | entry => entry

namespace FileTree

/-- How many bytes the name of an entry may have. -/
def nameLimit : Nat := 255

/-- The tree with an entry added to the directory at the position. -/
def add (tree : FileTree) (position : List String) (entry : Entry) : Option FileTree :=
  if entry.name.utf8ByteSize ≤ nameLimit then
    some { tree with entries := adjustAt (· ++ [entry]) position tree.entries }
  else none

/-- The tree after writing a file: the one that the path leads to, or a new one at a
vacant place. -/
def write (tree : FileTree) (path : FilePath) (contents : ByteArray) : Option FileTree :=
  match tree.find? path with
  | some (.file position name _) =>
    let overwrite (entry : Entry) : Entry :=
      if entry.name = name then .file name contents else entry
    some { tree with entries := adjustAt (·.map overwrite) position tree.entries }
  | some (.vacant position name) => tree.add position (.file name contents)
  | _ => none

/-- The tree after writing a text to a file. -/
def writeText (tree : FileTree) (path : FilePath) (text : String) : Option FileTree :=
  tree.write path text.toUTF8

/-- The tree with a directory at the place that the steps lead to. -/
def ensureDirectory (tree : FileTree) (steps : List FilePath.Component) : Option FileTree :=
  match tree.follow linkLimit tree.workingDirectory steps with
  | some (.directory ..) => some tree
  | some (.vacant position name) => tree.add position (.directory name [])
  | _ => none

/-- The tree with directories at the path and at every step on the way to it. -/
def ensureDirectories (tree : FileTree) (path : FilePath) : Option FileTree :=
  (List.range (path.steps.length + 1)).foldlM
    (fun tree n => tree.ensureDirectory (path.steps.take n)) tree

/-- The tree with a link at a path at which nothing is. -/
def link (tree : FileTree) (path : FilePath) (target : String) : Option FileTree :=
  match path.steps.getLast?, tree.follow linkLimit tree.workingDirectory path.steps.dropLast with
  | some (.name name), some (.directory position entries) =>
    if (entryNamed? name entries).isNone then tree.add position (.link name target) else none
  | _, _ => none

end FileTree

end Unreferenced
