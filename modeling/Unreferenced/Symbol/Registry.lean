import Unreferenced.FilePath

/-!
# The declared types by name

Each name is kept with one declaring file, the last that was entered; the files it
replaces are remembered beside it. Entries are in the order of their names. Two tables, one
with the declaring files and one with the files that were replaced, say the same: see
`Unreferenced.SymbolTables`.
-/

namespace Unreferenced

/-- What is known about one declared name. -/
structure SymbolEntry where
  /-- The name. -/
  name : String
  /-- The file that declares it, the last one entered. -/
  path : FilePath
  /-- Files that declared it before another one did, in order of replacement. -/
  replaced : List FilePath := []
deriving DecidableEq, Inhabited, Repr

/-- The entry after another declaring file was entered. -/
def SymbolEntry.redeclare (entry : SymbolEntry) (path : FilePath) : SymbolEntry :=
  { entry with
    path
    replaced :=
      if entry.path.Same path || entry.replaced.any (fun known => known.Same entry.path) then
        entry.replaced
      else entry.replaced ++ [entry.path] }

/-- The files, other than the one that is kept, that declare the name. -/
def SymbolEntry.shadowed (entry : SymbolEntry) : List FilePath :=
  entry.replaced.filter fun path => !path.Same entry.path

/-- The declared types of a project by name. -/
structure SymbolRegistry where
  /-- One entry for each name, by name. -/
  entries : List SymbolEntry := []
deriving DecidableEq, Inhabited, Repr

namespace SymbolRegistry

/-- Enters a declaration into entries that are in the order of their names. -/
def insertInto (name : String) (path : FilePath) : List SymbolEntry → List SymbolEntry
  | [] => [{ name, path }]
  | entry :: rest =>
    if name < entry.name then { name, path } :: entry :: rest
    else if name = entry.name then entry.redeclare path :: rest
    else entry :: insertInto name path rest

/-- Enters a declaration. -/
def insert (registry : SymbolRegistry) (name : String) (path : FilePath) : SymbolRegistry where
  entries := insertInto name path registry.entries

/-- The file that declares a name. -/
def path? (registry : SymbolRegistry) (name : String) : Option FilePath :=
  (registry.entries.find? (·.name == name)).map (·.path)

/-- The entries of the names that more than one file declares, by name. -/
def collisions (registry : SymbolRegistry) : List SymbolEntry :=
  registry.entries.filter (! ·.shadowed.isEmpty)

/-- The number of names. -/
def size (registry : SymbolRegistry) : Nat :=
  registry.entries.length

/-- Whether there are no names. -/
def isEmpty (registry : SymbolRegistry) : Bool :=
  registry.entries.isEmpty

end SymbolRegistry

end Unreferenced
