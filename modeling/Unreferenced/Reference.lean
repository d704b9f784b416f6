import Unreferenced.Text.Blank
import Unreferenced.Text.Quoted

/-!
# References to names

A name counts as referenced when one of a few literal texts made from it occurs. This
module holds those texts, the verdict on a name, and the names that no such text can be
made from: blank ones, and those with a quote or a line break, which would end a literal
early.
-/

namespace Unreferenced

/-- A form in which a name can be referenced. -/
inductive ReferenceForm where
  /-- A string literal: the name between quotes. -/
  | quotedLiteral
  /-- The attribute of an interface file that names an image. -/
  | nameAttribute
  /-- The name before an opening parenthesis. -/
  | call
  /-- The type as a value of its own. -/
  | metatype
  /-- The attribute of an interface file that names a class. -/
  | customClass
deriving DecidableEq, Inhabited, Repr

/-- The text that references a name in this form. -/
def ReferenceForm.text (form : ReferenceForm) (name : String) : String :=
  match form with
  | .quotedLiteral => "\"" ++ name ++ "\""
  | .nameAttribute => "name=\"" ++ name ++ "\""
  | .call => name ++ "("
  | .metatype => name ++ ".self"
  | .customClass => "customClass=\"" ++ name ++ "\""

/-- The name of a form in reports. -/
def ReferenceForm.label : ReferenceForm → String
  | .quotedLiteral => "quoted_literal"
  | .nameAttribute => "name_attribute"
  | .call => "call_or_annotation"
  | .metatype => "metatype"
  | .customClass => "custom_class"

/-- The forms in which an image is looked for, in order. -/
def assetForms : List ReferenceForm :=
  [.quotedLiteral, .nameAttribute]

/-- The forms in which a type is looked for in source files, in order. -/
def symbolSourceForms : List ReferenceForm :=
  [.call, .metatype]

/-- The forms in which a type is looked for in interface files. -/
def symbolMarkupForms : List ReferenceForm :=
  [.customClass]

/-- What a search for a name comes to: the first form that was found, if any was. -/
structure Verdict where
  /-- The form that was found. -/
  form? : Option ReferenceForm
deriving DecidableEq, Inhabited, Repr

/-- Whether the verdict is that the name is referenced. -/
def Verdict.isReferenced (verdict : Verdict) : Bool :=
  verdict.form?.isSome

/-- Why a name cannot be searched for. -/
inductive NameFault where
  /-- The name is blank. -/
  | blank
  /-- The name contains a quote or a line break. -/
  | unsearchable (name : String)
deriving DecidableEq, Inhabited, Repr

/-- What is said about a name that cannot be searched for. -/
def NameFault.message : NameFault → String
  | .blank => "empty name cannot be searched"
  | .unsearchable name =>
    "name " ++ Text.quoted name ++ " cannot form a literal search pattern"

/-- Whether a character would end a literal before the name does. -/
def endsLiteral (c : Char) : Bool :=
  c == '\x22' || c == '\n' || c == '\r'

/-- The fault of a name, if it has one. -/
def nameFault? (name : String) : Option NameFault :=
  if name.toList.all Text.isBlank then some .blank
  else if name.toList.any endsLiteral then some (.unsearchable name)
  else none

end Unreferenced
