import Unreferenced.FilePath
import Unreferenced.Text.LowerCase
import Unreferenced.Text.Search

/-!
# Excluded paths

A path is excluded when its text, lower-cased, contains one of the exclusion texts,
lower-cased. The empty text excludes nothing.
-/

namespace Unreferenced

/-- The texts that are looked for in lower-cased paths. -/
def exclusionNeedles (patterns : List String) : List String :=
  (patterns.map Text.lower).filter (! ·.isEmpty)

/-- Whether one of the exclusion texts excludes the path. -/
def isExcluded (patterns : List String) (path : FilePath) : Bool :=
  (exclusionNeedles patterns).any (Text.contains (Text.lower path.text))

end Unreferenced
