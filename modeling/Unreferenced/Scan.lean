import Unreferenced.Asset.Name
import Unreferenced.Asset.Search
import Unreferenced.Declaration
import Unreferenced.Symbol.Search
import Unreferenced.Walk

/-!
# Scanning a project

One walk over the project gives everything that is looked for and everything that is
searched: the images by name, the declared types by name, and the text of all searchable
files. A scan can be limited to images or to types, which leaves the other of the two
registries empty; the searched text is the same in each case.
-/

namespace Unreferenced

/-- What a scan looks for. -/
structure Passes where
  /-- Whether images are looked for. -/
  assets : Bool := true
  /-- Whether types are looked for. -/
  symbols : Bool := true
deriving DecidableEq, Inhabited, Repr

/-- Why a project cannot be scanned.

Keywords are never a reason. They are looked for as they are written, so all of them can be,
and there is no bound on their length; a scan that first compiles them into one matcher has
such a bound, at several megabytes, and a third error for keywords beyond it. -/
inductive ScanError where
  /-- Nothing is at the path. -/
  | rootNotFound (root : FilePath)
  /-- Something other than a directory is at the path. -/
  | rootNotDirectory (root : FilePath)
deriving DecidableEq, Inhabited, Repr

/-- What is said about a project that cannot be scanned. -/
def ScanError.message : ScanError → String
  | .rootNotFound root => "Project path does not exist: " ++ root.text
  | .rootNotDirectory root => "Project path is not a directory: " ++ root.text

/-- What a scan has collected. -/
structure Scan where
  /-- The directory that was scanned. -/
  root : FilePath
  /-- What the scan looks for. -/
  passes : Passes
  /-- The images by name. -/
  assets : AssetRegistry
  /-- The declared types by name. -/
  symbols : SymbolRegistry
  /-- The searched text. -/
  corpus : Corpus
  /-- How many files take part. -/
  counts : FileCounts
deriving Inhabited

/-- The images among the files, by name. -/
def collectAssets (settings : Settings) (files : List ProjectFile) : AssetRegistry :=
  (files.filter (·.kind == .image)).foldl
    (fun registry file =>
      match imageName? file.path settings.files.bundleSuffix with
      | some (name, bundle?) => registry.insert name file.path bundle?
      | none => registry)
    {}

/-- The text of the searchable files. -/
def collectText (files : List ProjectFile) : Corpus :=
  (files.filter (·.kind.isSearchable)).foldl
    (fun corpus file => corpus.push file.path file.kind file.text) {}

/-- The types that the source files declare, by name. -/
def collectSymbols (settings : SymbolSettings) (corpus : Corpus) : SymbolRegistry :=
  corpus.sources.foldl
    (fun registry file =>
      (declaredNames settings.declarationKeywords (corpus.contents file)).foldl
        (fun registry name => registry.insert name file.path) registry)
    {}

/-- Scans the directory at a path. -/
def FileTree.scan (tree : FileTree) (settings : Settings) (passes : Passes) (root : FilePath) :
    Except ScanError Scan :=
  match tree.find? root with
  | some (.directory ..) =>
    let files := tree.projectFiles settings root
    let corpus := collectText files
    .ok {
      root, passes, corpus
      assets := if passes.assets then collectAssets settings files else {}
      symbols := if passes.symbols then collectSymbols settings.symbols corpus else {}
      counts := .ofKinds (files.map (·.kind)) }
  | some (.file ..) => .error (.rootNotDirectory root)
  | _ => .error (.rootNotFound root)

/-- The verdicts on the images that a scan has collected. -/
def Scan.assetVerdicts (scan : Scan) : List (AssetEntry × Verdict) :=
  scan.corpus.assetVerdicts scan.assets

/-- The verdicts on the types that a scan has collected. -/
def Scan.symbolVerdicts (scan : Scan) (settings : SymbolSettings) :
    List (SymbolEntry × Verdict) :=
  scan.corpus.symbolVerdicts settings scan.symbols

end Unreferenced
