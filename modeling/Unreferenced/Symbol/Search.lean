import Unreferenced.Corpus
import Unreferenced.Reference
import Unreferenced.Settings
import Unreferenced.Symbol.Registry

/-!
# Looking for types

A type is referenced when a source file *other than the one that declares it* calls it or
uses it as a value, or when any interface file names it as a class. Types of a framework
or of the language are not looked for: they are recognized by name, and taken to be used.
-/

namespace Unreferenced

/-- Whether a name is taken for one of a framework or of the language. -/
def SymbolSettings.isKnown (settings : SymbolSettings) (name : String) : Bool :=
  (settings.frameworkPrefixes.filter (! ·.isEmpty)).any (Text.startsWith name) ||
    settings.builtinTypes.contains name

/-- Whether one of the files contains a text. -/
def Corpus.anyContains (corpus : Corpus) (files : List CorpusFile) (pattern : String) : Bool :=
  files.any fun file => Text.contains (corpus.contents file) pattern

/-- The source files that the given path does not name. -/
def Corpus.sourcesBut (corpus : Corpus) (path : FilePath) : List CorpusFile :=
  corpus.sources.filter fun file => !file.path.Same path

/-- The verdict on a type that the file at the path declares. -/
def Corpus.symbolVerdict (corpus : Corpus) (name : String) (path : FilePath) :
    Except NameFault Verdict :=
  match nameFault? name with
  | some fault => .error fault
  | none =>
    let inSources := symbolSourceForms.find? fun form =>
      corpus.anyContains (corpus.sourcesBut path) (form.text name)
    let inMarkup := symbolMarkupForms.find? fun form =>
      corpus.anyContains corpus.markup (form.text name)
    .ok ⟨inSources.or inMarkup⟩

/-- The verdicts on all entries that are not known names and can be searched for, by
name. -/
def Corpus.symbolVerdicts (corpus : Corpus) (settings : SymbolSettings)
    (registry : SymbolRegistry) : List (SymbolEntry × Verdict) :=
  (registry.entries.filter fun entry => !settings.isKnown entry.name).filterMap fun entry =>
    match corpus.symbolVerdict entry.name entry.path with
    | .ok verdict => some (entry, verdict)
    | .error _ => none

end Unreferenced
