import Unreferenced.CommandLine.Run

/-!
# The program

The outer layer of the program: it looks at as much of the file system as the command line
calls for, hands that to `Unreferenced.run` as a file tree, and prints and writes what the
run comes to. It decides nothing itself. Each path is followed step by step, as a look-up
in the tree does, and what is met on the way is added to the tree; below the project only
the entries that a walk reports are added, and only searchable files with their bytes.
-/

namespace Unreferenced

/-- The name of a file on disk that a position and a name stand for. -/
def diskPath (position : List String) (name : String) : String :=
  "/" ++ "/".intercalate (position ++ [name])

/-- The tree with an entry at a position, unless one of its name is there. -/
def FileTree.withEntry (tree : FileTree) (position : List String) (entry : Entry) : FileTree :=
  match entriesAt? tree.entries position with
  | some entries =>
    if (entryNamed? entry.name entries).isSome then tree
    else { tree with entries := adjustAt (· ++ [entry]) position tree.entries }
  | none => tree

/-- The entry of a directory on disk, without what is below it. -/
def diskEntry? (position : List String) (name : String) (withBytes : Bool) :
    IO (Option Entry) := do
  let path := (← IO.currentDir) / diskPath position name
  try
    match (← path.symlinkMetadata).type with
    | .dir => return some (.directory name [])
    | .file => return some (.file name (← if withBytes then IO.FS.readBinFile path else pure .empty))
    | .symlink =>
      let target ← try IO.FS.realPath path catch _ => pure path
      return some (.link name target.toString)
    | .other => return none
  catch _ => return none

/-- Adds what the steps of a path meet on disk, following at most so many links. -/
partial def explore (tree : FileTree) (links : Nat) (position : List String) :
    List FilePath.Component → IO FileTree
  | [] => return tree
  | .root :: rest => explore tree links [] rest
  | .current :: rest => explore tree links position rest
  | .parent :: rest => explore tree links position.dropLast rest
  | .name name :: rest => do
    match ← diskEntry? position name rest.isEmpty with
    | none => return tree
    | some entry =>
      let tree := tree.withEntry position entry
      match entry, links with
      | .directory _ _, _ => explore tree links (position ++ [name]) rest
      | .link _ target, links + 1 =>
        explore tree links position ((⟨target⟩ : FilePath).steps ++ rest)
      | _, _ => return tree

/-- The entries of a directory on disk that a walk with the given settings looks at. -/
partial def diskEntries (settings : Settings) (position above : List String) :
    IO (List Entry) := do
  let directory := (← IO.currentDir) / diskPath position.dropLast (position.getLast?.getD "")
  let names := (← directory.readDir).toList.map (·.fileName)
  let mut entries := #[]
  for name in names do
    unless settings.leavesOut (above ++ [name]) do
      let searched := (settings.files.classify ⟨name⟩).isSearchable
      match ← diskEntry? position name searched with
      | some (.directory name _) =>
        let inner ← diskEntries settings (position ++ [name]) (above ++ [name])
        entries := entries.push (.directory name inner)
      | some entry => entries := entries.push entry
      | none => pure ()
  return entries.toList

/-- Adds the project of a command line to what its other paths have met on disk. -/
def withProject (tree : FileTree) (options : Options) : IO FileTree := do
  match options.settings tree, tree.find? options.path with
  | .ok settings, some (.directory position _) =>
    let entries ← diskEntries settings position []
    return { tree with entries := adjustAt (fun _ => entries) position tree.entries }
  | _, _ => return tree

/-- The file tree that a command line looks at. -/
def diskTree (options : Options) : IO FileTree := do
  let here : FilePath := ⟨(← IO.currentDir).toString⟩
  let workingDirectory := here.components.filterMap fun
    | .name name => some name
    | _ => none
  let paths := [here, options.path] ++ settingsNames.map options.path.join ++
    options.config?.toList ++ options.output?.toList ++ options.deletionList?.toList
  let mut tree : FileTree := { entries := [], workingDirectory }
  for path in paths do
    tree ← explore tree FileTree.linkLimit workingDirectory path.steps
  let project ← withProject tree options
  let mut whole := project
  for path in paths do
    whole ← explore whole FileTree.linkLimit workingDirectory path.steps
  return whole

/-- Writes the file of a path as it is in a tree. -/
def writeBack (tree : FileTree) (path : FilePath) : IO Unit :=
  match tree.bytes? path with
  | some bytes => IO.FS.writeBinFile path.text bytes
  | none => pure ()

/-- Whether the terminal is to be written to in colour. -/
def wantsColour : IO Bool := do
  let isOn (value? : Option String) : Option Bool := value?.map (· ≠ "0")
  if isOn (← IO.getEnv "CLICOLOR_FORCE") = some true then return true
  else if (← IO.getEnv "NO_COLOR").isSome then return false
  else return (isOn (← IO.getEnv "CLICOLOR")).getD true && (← (← IO.getStdout).isTty)

/-- Makes a run real: prints, writes, and reports a failure. -/
def perform (options : Options) (outcome : Outcome) : IO UInt32 := do
  (← IO.getStdout).putStr outcome.printed
  let written := (options.output?.toList ++ options.deletionList?.toList).take
    (match outcome.error? with
      | none => 2
      | some (.deletionList _) => options.output?.toList.length
      | some _ => 0)
  try
    for path in written do
      writeBack outcome.tree path
  catch error =>
    (← IO.getStderr).putStrLn ("Error: " ++ toString error)
    return 1
  if let some error := outcome.error? then
    (← IO.getStderr).putStrLn ("Error: " ++ error.message)
  return outcome.exitCode.toUInt32

end Unreferenced

/-- Runs the program on the arguments of its command line. -/
def main (arguments : List String) : IO UInt32 := do
  let options := match Unreferenced.Request.ofArguments? arguments with
    | some (.scan options) => options
    | _ => {}
  let tree ← match Unreferenced.Request.ofArguments? arguments with
    | some (.scan options) => Unreferenced.diskTree options
    | _ => pure { entries := [], workingDirectory := [] }
  Unreferenced.perform options (Unreferenced.run arguments (← Unreferenced.wantsColour) tree)
