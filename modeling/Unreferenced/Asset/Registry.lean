import Unreferenced.FilePath
import Unreferenced.Sorting

/-!
# The images of a project by name

Every image is entered under its name. The entries keep the order in which their names
were first met, the different paths that were entered under each, the first bundle that
came with one, and how many times the name was entered. A name that was entered more
than once is shared.

All of this is one list, in which a name is found by looking through it. An index that
gives the position of a name, and a table of the numbers of the shared names alone, say the
same faster: see `Unreferenced.AssetTables`.
-/

namespace Unreferenced

/-- What is known about one image name. -/
structure AssetEntry where
  /-- The name. -/
  name : String
  /-- The different paths of the images with this name, in order of first entry. -/
  locations : List FilePath
  /-- The first bundle that gave the name. -/
  bundle? : Option FilePath
  /-- How many times the name was entered. -/
  uses : Nat
deriving DecidableEq, Inhabited, Repr

/-- Where to look for the image: at its bundle, or else at its first path. -/
def AssetEntry.bestLocation? (entry : AssetEntry) : Option FilePath :=
  entry.bundle?.or entry.locations.head?

/-- The entry after another image was entered under its name. -/
def AssetEntry.enter (entry : AssetEntry) (path : FilePath) (bundle? : Option FilePath) :
    AssetEntry :=
  { entry with
    locations :=
      if entry.locations.any fun known => known.Same path then entry.locations
      else entry.locations ++ [path]
    bundle? := entry.bundle?.or bundle?
    uses := entry.uses + 1 }

/-- The images of a project by name. -/
structure AssetRegistry where
  /-- One entry for each name, in order of first entry. -/
  entries : List AssetEntry := []
deriving DecidableEq, Inhabited, Repr

namespace AssetRegistry

/-- The entry of a name. -/
def get? (registry : AssetRegistry) (name : String) : Option AssetEntry :=
  registry.entries.find? (·.name == name)

/-- Enters an image under a name. -/
def insert (registry : AssetRegistry) (name : String) (path : FilePath)
    (bundle? : Option FilePath) : AssetRegistry where
  entries :=
    if (registry.get? name).isSome then
      registry.entries.map fun entry =>
        if entry.name == name then entry.enter path bundle? else entry
    else registry.entries ++ [⟨name, [path], bundle?, 1⟩]

/-- How many times a name was entered, when that is more than once. -/
def shared? (registry : AssetRegistry) (name : String) : Option Nat :=
  ((registry.get? name).map (·.uses)).filter (2 ≤ ·)

/-- The names that were entered more than once with their numbers, by name. -/
def shared (registry : AssetRegistry) : List (String × Nat) :=
  sortedBy (·.1)
    ((registry.entries.filter (2 ≤ ·.uses)).map fun entry => (entry.name, entry.uses))

/-- The number of names. -/
def size (registry : AssetRegistry) : Nat :=
  registry.entries.length

/-- Whether there are no names. -/
def isEmpty (registry : AssetRegistry) : Bool :=
  registry.entries.isEmpty

end AssetRegistry

end Unreferenced
