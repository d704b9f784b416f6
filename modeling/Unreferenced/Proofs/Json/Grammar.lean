import Unreferenced.Json.Reader

/-!
# The grammar of JSON

The relation `Json.Writes` says which texts write which values, production by production of
the grammar: white space may stand around every value and every key, a character of a
string may be written as it is, by a letter or by number, and a number may have a fraction
and an exponent. Nothing in it refers to how a reader goes about its work, nor to how this
library writes its values.

A text as a whole is a value with white space around it, `Json.WritesPadded`.
-/

namespace Unreferenced.Json

/-! ### White space -/

/-- Characters that may stand between the parts of a text. -/
def AreSpaces (cs : List Char) : Prop :=
  ∀ c ∈ cs, isSpace c = true

theorem areSpaces_nil : AreSpaces [] := by
  simp [AreSpaces]

/-! ### Strings -/

/-- The letters that stand for a character behind a backslash. -/
def letters : List (Char × Char) :=
  [('\x22', '\x22'), ('\\', '\\'), ('/', '/'), ('b', '\x08'), ('f', '\x0c'), ('n', '\n'),
    ('r', '\r'), ('t', '\t')]

/-- The texts that write a character of a string. -/
inductive WritesChar : List Char → Char → Prop
  /-- The character itself. -/
  | plain {c : Char} (hquote : c ≠ '\x22') (hbackslash : c ≠ '\\') (hcontrol : 0x20 ≤ c.toNat) :
    WritesChar [c] c
  /-- An escape by a letter. -/
  | letter {letter c : Char} (h : (letter, c) ∈ letters) : WritesChar ['\\', letter] c
  /-- An escape by number. -/
  | unit {digits : List Char} {c : Char} (hlength : digits.length = 4)
    (hvalue : Text.hexNumber? digits = some c.toNat) : WritesChar ('\\' :: 'u' :: digits) c
  /-- Two escapes by number, for a character beyond the first plane. -/
  | pair {high low : List Char} {c : Char} (hhigh : high.length = 4) (hlow : low.length = 4)
    (hplane : 0x10000 ≤ c.toNat)
    (hvalue : Text.hexNumber? high = some (0xd800 + (c.toNat - 0x10000) / 0x400))
    (hvalue' : Text.hexNumber? low = some (0xdc00 + (c.toNat - 0x10000) % 0x400)) :
    WritesChar ('\\' :: 'u' :: high ++ '\\' :: 'u' :: low) c

/-- The texts that write the characters of a string. -/
inductive WritesChars : List Char → List Char → Prop
  /-- No characters. -/
  | nil : WritesChars [] []
  /-- A character and more of them. -/
  | cons {text rest : List Char} {c : Char} {cs : List Char} (h : WritesChar text c)
    (hmore : WritesChars rest cs) : WritesChars (text ++ rest) (c :: cs)

/-! ### Numbers -/

/-- Digits, one at least. -/
structure AreDigits (cs : List Char) : Prop where
  /-- There is a digit. -/
  ne_nil : cs ≠ []
  /-- There is nothing else. -/
  isDigit : ∀ c ∈ cs, c.isDigit = true

/-- Digits in front of a point; a zero stands alone. -/
structure AreWhole (cs : List Char) : Prop extends AreDigits cs where
  /-- What begins with a zero ends with it. -/
  zero : cs.head? = some '0' → cs.length = 1

/-- The texts of the sign of a number; the truth value is that of being negative. -/
inductive WritesSign : List Char → Bool → Prop
  /-- No sign. -/
  | none : WritesSign [] false
  /-- A minus sign. -/
  | minus : WritesSign ['-'] true

/-- The texts of the sign of an exponent. -/
inductive WritesExponentSign : List Char → Bool → Prop
  /-- A sign that a number can have, too. -/
  | sign {text : List Char} {negative : Bool} (h : WritesSign text negative) :
    WritesExponentSign text negative
  /-- A plus sign. -/
  | plus : WritesExponentSign ['+'] false

/-- The texts of the digits behind a point. -/
inductive WritesFraction : List Char → List Char → Prop
  /-- No fraction. -/
  | none : WritesFraction [] []
  /-- A point and digits. -/
  | point {digits : List Char} (h : AreDigits digits) : WritesFraction ('.' :: digits) digits

/-- The texts of an exponent. -/
inductive WritesExponent : List Char → Int → Prop
  /-- No exponent. -/
  | none : WritesExponent [] 0
  /-- A letter, a sign and digits. -/
  | letter {letter : Char} {sign digits : List Char} {negative : Bool}
    (hletter : letter = 'e' ∨ letter = 'E') (hsign : WritesExponentSign sign negative)
    (h : AreDigits digits) : WritesExponent (letter :: sign ++ digits) (signed negative digits)

/-- The texts of a number, by its mantissa and its exponent. -/
inductive WritesNumber : List Char → Int → Int → Prop
  /-- A sign, digits, a fraction and an exponent. -/
  | mk {sign whole fraction exponent digits : List Char} {negative : Bool} {power : Int}
    (hsign : WritesSign sign negative) (hwhole : AreWhole whole)
    (hfraction : WritesFraction fraction digits) (hexponent : WritesExponent exponent power) :
    WritesNumber (sign ++ (whole ++ (fraction ++ exponent))) (signed negative (whole ++ digits))
      (power - digits.length)

/-! ### Values -/

mutual

/-- The texts that write a value. -/
inductive Writes : List Char → Json → Prop
  /-- The literal of `null`. -/
  | null : Writes "null".toList .null
  /-- The literal of truth. -/
  | truth : Writes "true".toList (.bool true)
  /-- The literal of falsehood. -/
  | falsehood : Writes "false".toList (.bool false)
  /-- A number. -/
  | number {text : List Char} {mantissa exponent : Int} (h : WritesNumber text mantissa exponent) :
    Writes text (.number mantissa exponent)
  /-- A string between quotes. -/
  | string {text : List Char} {value : String} (h : WritesChars text value.toList) :
    Writes ('\x22' :: (text ++ ['\x22'])) (.string value)
  /-- An array without items. -/
  | emptyArray {spaces : List Char} (h : AreSpaces spaces) :
    Writes ('[' :: (spaces ++ [']'])) (.array [])
  /-- An array with items. -/
  | array {text : List Char} {items : List Json} (h : WritesItems text items) :
    Writes ('[' :: (text ++ [']'])) (.array items)
  /-- An object without members. -/
  | emptyObject {spaces : List Char} (h : AreSpaces spaces) :
    Writes ('{' :: (spaces ++ ['}'])) (.object [])
  /-- An object with members. -/
  | object {text : List Char} {members : List (String × Json)} (h : WritesMembers text members) :
    Writes ('{' :: (text ++ ['}'])) (.object members)

/-- The texts that write a value with white space around it. -/
inductive WritesPadded : List Char → Json → Prop
  /-- White space, a value, and white space. -/
  | mk {before text after : List Char} {value : Json} (hbefore : AreSpaces before)
    (h : Writes text value) (hafter : AreSpaces after) :
    WritesPadded (before ++ (text ++ after)) value

/-- The texts that write the items of an array, one at least. -/
inductive WritesItems : List Char → List Json → Prop
  /-- The last item. -/
  | last {text : List Char} {item : Json} (h : WritesPadded text item) : WritesItems text [item]
  /-- An item and more of them. -/
  | more {text rest : List Char} {item : Json} {items : List Json} (h : WritesPadded text item)
    (hmore : WritesItems rest items) : WritesItems (text ++ ',' :: rest) (item :: items)

/-- The texts that write a member of an object. -/
inductive WritesMember : List Char → String × Json → Prop
  /-- A key, a colon and a value. -/
  | mk {before keyText after text : List Char} {key : String} {value : Json}
    (hbefore : AreSpaces before) (hkey : WritesChars keyText key.toList) (hafter : AreSpaces after)
    (h : WritesPadded text value) :
    WritesMember (before ++ '\x22' :: (keyText ++ '\x22' :: (after ++ ':' :: text))) (key, value)

/-- The texts that write the members of an object, one at least. -/
inductive WritesMembers : List Char → List (String × Json) → Prop
  /-- The last member. -/
  | last {text : List Char} {member : String × Json} (h : WritesMember text member) :
    WritesMembers text [member]
  /-- A member and more of them. -/
  | more {text rest : List Char} {member : String × Json} {members : List (String × Json)}
    (h : WritesMember text member) (hmore : WritesMembers rest members) :
    WritesMembers (text ++ ',' :: rest) (member :: members)

end

end Unreferenced.Json
