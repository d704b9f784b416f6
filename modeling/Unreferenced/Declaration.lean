import Unreferenced.Text.Blank
import Unreferenced.Text.Search

/-!
# Declarations in source text

A declaration is a keyword, white space, and a name that starts with a capital letter or
an underscore. Nothing else of the source language is understood: a keyword counts
wherever it stands, inside a longer word or a comment too.

The text is read from left to right. Where declarations start at one place under several
keywords, the first keyword in the list decides; a declaration that has been read is
passed over as a whole before the next one can start.
-/

namespace Unreferenced

/-- A declaration, cut into its three parts. -/
structure Declaration where
  /-- The keyword. -/
  keyword : List Char
  /-- The white space between the keyword and the name. -/
  gap : List Char
  /-- The declared name. -/
  name : List Char
deriving DecidableEq, Repr

namespace Declaration

/-- The text of a declaration. -/
def text (d : Declaration) : List Char :=
  d.keyword ++ d.gap ++ d.name

/-- Whether a character can start a declared name. -/
def isNameStart (c : Char) : Bool :=
  ('A' ≤ c && c ≤ 'Z') || c == '_'

/-- Whether a character can stand in a declared name. -/
def isNameChar (c : Char) : Bool :=
  isNameStart c || ('a' ≤ c && c ≤ 'z') || ('0' ≤ c && c ≤ '9')

/-- The keywords that a list of settings provides: trimmed, blank ones dropped. -/
def keywords (settings : List String) : List (List Char) :=
  (settings.map fun setting => Text.trim setting.toList).filter (! ·.isEmpty)

/-- The declaration that a text begins with, under one keyword. -/
def under? (keyword cs : List Char) : Option Declaration :=
  (Text.behind? keyword cs).bind fun rest =>
    let gap := rest.takeWhile Text.isBlank
    let name := (rest.dropWhile Text.isBlank).takeWhile isNameChar
    if !gap.isEmpty && name.head?.any isNameStart then some ⟨keyword, gap, name⟩ else none

/-- The declaration that a text begins with, under the first keyword that fits. -/
def starting? (keywords : List (List Char)) (cs : List Char) : Option Declaration :=
  keywords.findSome? (under? · cs)

/-- The declarations in a text, of which the given number of characters is passed over
first. -/
def after (keywords : List (List Char)) : Nat → List Char → List Declaration
  | _, [] => []
  | skip + 1, _ :: rest => after keywords skip rest
  | 0, c :: rest =>
    match starting? keywords (c :: rest) with
    | some d => d :: after keywords (d.text.length - 1) rest
    | none => after keywords 0 rest

end Declaration

/-- The declarations in a text, under the keywords of the settings. -/
def declarations (settings : List String) (text : String) : List Declaration :=
  Declaration.after (Declaration.keywords settings) 0 text.toList

/-- The names that a text declares, in order of appearance. -/
def declaredNames (settings : List String) (text : String) : List String :=
  (declarations settings text).map fun d => String.ofList d.name

end Unreferenced
