import Unreferenced.FileKind
import Unreferenced.Text.Bytes
import Unreferenced.Text.Search

/-!
# The searched text

The texts of all searchable files are put into one text, a line feed between each two, in
which every file keeps its span in bytes. The whole is searched for images; the spans
give back the text of each file, in which types are looked for.

No reference contains a line feed, so none can be found across the border of two files.
A line feed is put only behind a text that is not empty: empty files at the start leave
no trace.
-/

namespace Unreferenced

/-- A searchable file and its place in the searched text. -/
structure CorpusFile where
  /-- The path of the file. -/
  path : FilePath
  /-- The kind of the file. -/
  kind : FileKind
  /-- The byte at which the text of the file starts. -/
  start : Nat
  /-- The byte at which the text of the file has ended. -/
  stop : Nat
deriving DecidableEq, Inhabited, Repr

/-- The searched text with the files that it consists of. -/
structure Corpus where
  /-- The texts of all files. -/
  text : String := ""
  /-- The files in the order in which they were added. -/
  files : List CorpusFile := []
deriving DecidableEq, Inhabited, Repr

namespace Corpus

/-- The corpus with a file added at the end. -/
def push (corpus : Corpus) (path : FilePath) (kind : FileKind) (contents : String) : Corpus :=
  let before := if corpus.text.isEmpty then "" else corpus.text ++ "\n"
  { text := before ++ contents
    files := corpus.files ++
      [⟨path, kind, before.utf8ByteSize, before.utf8ByteSize + contents.utf8ByteSize⟩] }

/-- Whether a text occurs anywhere. -/
def contains (corpus : Corpus) (pattern : String) : Bool :=
  Text.contains corpus.text pattern

/-- The text in a file's span, when the span lies on borders of characters. -/
def contents? (corpus : Corpus) (file : CorpusFile) : Option String :=
  (Text.dropBytes? file.start corpus.text.toList).bind fun rest =>
    (Text.takeBytes? (file.stop - file.start) rest).map String.ofList

/-- The text of one of the files. -/
def contents (corpus : Corpus) (file : CorpusFile) : String :=
  (corpus.contents? file).getD ""

/-- The files of one kind, in order. -/
def filesOfKind (corpus : Corpus) (kind : FileKind) : List CorpusFile :=
  corpus.files.filter (·.kind == kind)

/-- The source files, in order. -/
def sources (corpus : Corpus) : List CorpusFile :=
  corpus.filesOfKind .source

/-- The interface files, in order. -/
def markup (corpus : Corpus) : List CorpusFile :=
  corpus.filesOfKind .markup

/-- The number of files. -/
def size (corpus : Corpus) : Nat :=
  corpus.files.length

/-- Whether there are no files. -/
def isEmpty (corpus : Corpus) : Bool :=
  corpus.files.isEmpty

end Corpus

end Unreferenced
