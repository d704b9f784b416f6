import Unreferenced.Text.Search

/-!
# Settings of a scan

What a project can set about its scan, with the values that hold when it sets nothing:
the files that are looked at and how they are told apart, the declarations that are
collected, the names that are never reported, and the form of the report.
-/

namespace Unreferenced

/-- Which files take part, and as what. -/
structure FileSettings where
  /-- Extensions of image files. -/
  imageExtensions : List String :=
    ["png", "jpg", "jpeg", "heic", "gif", "webp", "tiff", "bmp", "svg"]
  /-- Extensions of source files, which are searched and declare types. -/
  sourceExtensions : List String := ["swift"]
  /-- Extensions of interface files, which are searched only. -/
  markupExtensions : List String := ["xib", "storyboard"]
  /-- The suffix of the directories that bundle the variants of one image. -/
  bundleSuffix : String := ".imageset"
  /-- Whether entries whose names start with a dot are left out. -/
  skipHidden : Bool := true
deriving DecidableEq, Inhabited, Repr

/-- Which declarations are collected, and which names are taken for known. -/
structure SymbolSettings where
  /-- The keywords that introduce a declaration. -/
  declarationKeywords : List String := ["class", "struct", "enum"]
  /-- Beginnings of names that belong to a framework. -/
  frameworkPrefixes : List String := ["NS", "UI", "CG", "CA", "KF"]
  /-- Names of the types that come with the language. -/
  builtinTypes : List String :=
    ["String", "Int", "Double", "Bool", "Array", "Dictionary", "Set", "Optional", "Result",
      "Date", "URL", "Error", "Codable", "Decodable", "Encodable"]
deriving DecidableEq, Inhabited, Repr

/-- How the findings are reported. -/
structure ReportSettings where
  /-- The name of the format, used when the command line gives none. -/
  format : String := "terminal"
deriving DecidableEq, Inhabited, Repr

/-- The settings of a scan. -/
structure Settings where
  /-- Texts that exclude the paths in which they occur, without regard to case. -/
  exclude : List String := ["Pods", "Carthage", ".git", "build"]
  /-- Patterns of the names that are never reported. -/
  retainPatterns : List String := []
  /-- Which files take part, and as what. -/
  files : FileSettings := {}
  /-- Which declarations are collected. -/
  symbols : SymbolSettings := {}
  /-- How the findings are reported. -/
  report : ReportSettings := {}
deriving DecidableEq, Inhabited, Repr

/-- Whether a retain pattern matches a name: with a star in front the name has to end in
the rest of the pattern, with a star behind it has to start with it, and otherwise the
two have to be equal. A star in front counts first, and only one star is taken off. -/
def retains (pattern name : String) : Bool :=
  match pattern.toList with
  | '*' :: rest => Text.endsWith name (String.ofList rest)
  | cs =>
    if cs.getLast? = some '*' then Text.startsWith name (String.ofList cs.dropLast)
    else name == pattern

/-- Whether a name is never reported. -/
def Settings.retain (settings : Settings) (name : String) : Bool :=
  settings.retainPatterns.any (retains · name)

end Unreferenced
