import Unreferenced.Exclusion
import Unreferenced.FileKind
import Unreferenced.FileTree
import Unreferenced.Sorting

/-!
# Walking a project

The files of a project, in the order in which every later step takes them: depth first,
the entries of each directory by name. Directories that are hidden or excluded are not
entered. Exclusion looks at the path *below* the root, with a separator in front, so
that where the project lies never excludes any of it; below the root no link is
followed or reported.

`regularFiles` is the walk proper, in which a file is known by the names that lead to it;
`Settings.projectFiles` gives each file its path and its kind and drops the kinds that do
not take part.
-/

namespace Unreferenced

/-- Whether a name marks a hidden entry. -/
def isHiddenName (name : String) : Bool :=
  name.toList.head? = some '.'

/-- The path below the root that the names spell, with a separator in front. -/
def anchoredPath (names : List String) : FilePath :=
  ⟨"/" ++ "/".intercalate names⟩

/-- Whether the walk leaves out the entry that the names lead to. -/
def Settings.leavesOut (settings : Settings) (names : List String) : Bool :=
  (settings.files.skipHidden && names.getLast?.any isHiddenName) ||
    isExcluded settings.exclude (anchoredPath names)

/-- A regular file met on a walk. -/
structure FoundFile where
  /-- The names that lead from the root to the file. -/
  names : List String
  /-- The bytes of the file. -/
  contents : ByteArray
deriving Inhabited

/-- What was found under each entry of a directory, by the names of the entries. -/
def inNameOrder (found : List (String × List FoundFile)) : List FoundFile :=
  (sortedBy (·.1) found).flatMap (·.2)

mutual

/-- The files that the walk finds at an entry of the directory that `above` leads to. -/
def filesAt (settings : Settings) (above : List String) : Entry → List FoundFile
  | .file name contents =>
    if settings.leavesOut (above ++ [name]) then [] else [⟨above ++ [name], contents⟩]
  | .directory name entries =>
    if settings.leavesOut (above ++ [name]) then []
    else inNameOrder (filesAtEach settings (above ++ [name]) entries)
  | .link _ _ => []

/-- The files that the walk finds at each entry of a directory. -/
def filesAtEach (settings : Settings) (above : List String) :
    List Entry → List (String × List FoundFile)
  | [] => []
  | entry :: rest =>
    (entry.name, filesAt settings above entry) :: filesAtEach settings above rest

end

/-- The files that a walk from a directory with the given entries finds. -/
def regularFiles (settings : Settings) (entries : List Entry) : List FoundFile :=
  inNameOrder (filesAtEach settings [] entries)

/-- A file that takes part in the scan. -/
structure ProjectFile where
  /-- The path of the file, the root in front. -/
  path : FilePath
  /-- What the scan takes the file for. -/
  kind : FileKind
  /-- The bytes of the file. -/
  contents : ByteArray
deriving Inhabited

/-- The text of a file; bytes that are no valid UTF-8 have none. -/
def ProjectFile.text? (file : ProjectFile) : Option String :=
  String.fromUTF8? file.contents

/-- The text that is searched in place of a file: empty when it has none of its own. -/
def ProjectFile.text (file : ProjectFile) : String :=
  file.text?.getD ""

/-- The path of a found file, the root in front. -/
def FoundFile.path (root : FilePath) (file : FoundFile) : FilePath :=
  file.names.foldl FilePath.join root

/-- The found file as one that takes part, if its kind does. -/
def FoundFile.accepted? (settings : Settings) (root : FilePath) (file : FoundFile) :
    Option ProjectFile :=
  match settings.files.classify (file.path root) with
  | .ignored => none
  | kind => some ⟨file.path root, kind, file.contents⟩

/-- The path `-`, which stands for the standard input and so for no directory. -/
def standardInput : FilePath :=
  ⟨"-"⟩

/-- The regular files that a walk from the root finds. A root that is itself a file is
its own only find. -/
def FileTree.found (tree : FileTree) (settings : Settings) (root : FilePath) :
    List FoundFile :=
  if root.Same standardInput then []
  else match tree.find? root with
    | some (.directory _ entries) => regularFiles settings entries
    | some (.file _ _ contents) =>
      if isExcluded settings.exclude (anchoredPath []) then [] else [⟨[], contents⟩]
    | _ => []

/-- The files that take part in a scan of the root, in walk order. -/
def FileTree.projectFiles (tree : FileTree) (settings : Settings) (root : FilePath) :
    List ProjectFile :=
  (tree.found settings root).filterMap (·.accepted? settings root)

end Unreferenced
