/-!
# JSON values and their texts

The values of JSON, and two ways of writing them: `Json.compact` on one line without
spaces, `Json.pretty` over several lines with an indentation of two spaces a level. Both
write a string with the short escapes where there are any, the other controls by number,
and every other character as it is, so that a written string never contains a line break.

A number is kept as a decimal, exactly; the numbers of reports are natural and are written
without an exponent.
-/

namespace Unreferenced

/-- A JSON value; the members of an object keep their order. -/
inductive Json where
  /-- The value `null`. -/
  | null
  /-- A truth value. -/
  | bool (value : Bool)
  /-- The number `mantissa` times the power of ten with the given exponent. -/
  | number (mantissa exponent : Int)
  /-- A string. -/
  | string (value : String)
  /-- An array. -/
  | array (items : List Json)
  /-- An object. -/
  | object (members : List (String × Json))
deriving Inhabited

namespace Json

/-- A natural number as a value. -/
def ofNat (value : Nat) : Json :=
  .number value 0

/-- One character of a written string. -/
def escapeChar (c : Char) : List Char :=
  if c = '\x22' || c = '\\' then ['\\', c]
  else if c = '\x08' then ['\\', 'b']
  else if c = '\x0c' then ['\\', 'f']
  else if c = '\n' then ['\\', 'n']
  else if c = '\r' then ['\\', 'r']
  else if c = '\t' then ['\\', 't']
  else if c.toNat < 0x20 then
    ['\\', 'u', '0', '0', Nat.digitChar (c.toNat / 16), Nat.digitChar (c.toNat % 16)]
  else [c]

/-- A string as it is written. -/
def writeString (value : String) : List Char :=
  '\x22' :: value.toList.flatMap escapeChar ++ ['\x22']

/-- An integer as it is written. -/
def writeInt (value : Int) : List Char :=
  (if value < 0 then ['-'] else []) ++ Nat.toDigits 10 value.natAbs

/-- A number as it is written, with an exponent unless that is zero. -/
def writeNumber (mantissa exponent : Int) : List Char :=
  writeInt mantissa ++ if exponent = 0 then [] else 'e' :: writeInt exponent

mutual

/-- A value on one line, without spaces. -/
def compact : Json → List Char
  | .null => "null".toList
  | .bool true => "true".toList
  | .bool false => "false".toList
  | .number mantissa exponent => writeNumber mantissa exponent
  | .string value => writeString value
  | .array items => '[' :: compactItems items ++ [']']
  | .object members => '{' :: compactMembers members ++ ['}']

/-- The items of an array on one line. -/
def compactItems : List Json → List Char
  | [] => []
  | [item] => compact item
  | item :: more => compact item ++ ',' :: compactItems more

/-- The members of an object on one line. -/
def compactMembers : List (String × Json) → List Char
  | [] => []
  | [(key, value)] => writeString key ++ ':' :: compact value
  | (key, value) :: more =>
    writeString key ++ ':' :: compact value ++ ',' :: compactMembers more

end

/-- A line break and the indentation of a level. -/
def newline (level : Nat) : List Char :=
  '\n' :: List.replicate (2 * level) ' '

mutual

/-- A value over several lines, when its first line is on the given level. -/
def pretty (level : Nat) : Json → List Char
  | .null => "null".toList
  | .bool true => "true".toList
  | .bool false => "false".toList
  | .number mantissa exponent => writeNumber mantissa exponent
  | .string value => writeString value
  | .array [] => ['[', ']']
  | .array (item :: more) =>
    '[' :: prettyItems (level + 1) (item :: more) ++ newline level ++ [']']
  | .object [] => ['{', '}']
  | .object (member :: more) =>
    '{' :: prettyMembers (level + 1) (member :: more) ++ newline level ++ ['}']

/-- The items of an array, each on a line of its own. -/
def prettyItems (level : Nat) : List Json → List Char
  | [] => []
  | [item] => newline level ++ pretty level item
  | item :: more => newline level ++ pretty level item ++ ',' :: prettyItems level more

/-- The members of an object, each on a line of its own. -/
def prettyMembers (level : Nat) : List (String × Json) → List Char
  | [] => []
  | [(key, value)] =>
    newline level ++ writeString key ++ ':' :: ' ' :: pretty level value
  | (key, value) :: more =>
    newline level ++ writeString key ++ ':' :: ' ' :: pretty level value ++
      ',' :: prettyMembers level more

end

end Json

end Unreferenced
