import Unreferenced.Toml.Scalar

/-!
# Documents of TOML text

A document is a sequence of lines, each blank, a comment, a key with its value, or the
header of a table. The keys of a line go into the table of the last header before it.
`document?` answers with the table of the whole document, or with nothing for a text that
is malformed or defines something twice.
-/

namespace Unreferenced.Toml

/-- How deep values may be nested, and how many parts a dotted key may have: fewer than
this. -/
def nestingLimit : Nat := 80

/-! ### Keys -/

/-- Whether a character can stand in a key without quotes. -/
def isBareKeyChar (c : Char) : Bool :=
  c.isAlphanum || c == '_' || c == '-'

/-- Reads one part of a key. -/
def readKeyPart (cs : List Char) : Option (String × List Char) :=
  match cs with
  | '\x22' :: rest =>
    (readLine '\x22' (cs.length + 1) [] rest).map fun (text, rest) => (String.ofList text, rest)
  | '\x27' :: rest =>
    (readLine '\x27' (cs.length + 1) [] rest).map fun (text, rest) => (String.ofList text, rest)
  | _ =>
    let word := cs.takeWhile isBareKeyChar
    if word.isEmpty then none else some (String.ofList word, cs.drop word.length)

/-- Reads the parts of a key with the white space around them. -/
def readKeyParts : Nat → List Char → Option (List String × List Char)
  | 0, _ => none
  | fuel + 1, cs => do
    let (part, rest) ← readKeyPart (cs.dropWhile isSpace)
    match rest.dropWhile isSpace with
    | '.' :: more => do
      let (parts, rest) ← readKeyParts fuel more
      some (part :: parts, rest)
    | rest => some ([part], rest)

/-- Reads a key: the parts before its last dot and the last part. -/
def readKey (cs : List Char) : Option (List String × String × List Char) := do
  let (parts, rest) ← readKeyParts (cs.length + 1) cs
  if parts.length < nestingLimit then
    some (parts.dropLast, ← parts.getLast?, rest)
  else none

/-! ### Values -/

/-- What follows white space and, at the end of a line, a comment: the characters from
the next line break on, or from the next character that is neither. -/
def skipComment (cs : List Char) : List Char :=
  match cs.dropWhile isSpace with
  | '#' :: rest => rest.dropWhile isVisible
  | rest => rest

/-- What follows white space, comments and line breaks. Behind a comment there has to be a
line break. -/
def skipBlank : Nat → List Char → Option (List Char)
  | 0, _ => none
  | fuel + 1, cs =>
    match cs.dropWhile isSpace with
    | '#' :: rest => (behindNewline? (rest.dropWhile isVisible)).bind (skipBlank fuel)
    | rest =>
      match behindNewline? rest with
      | some rest => skipBlank fuel rest
      | none => some rest

mutual

/-- Reads a value at a depth of nesting. -/
def readValue (depth : Nat) : Nat → List Char → Option (Value × List Char)
  | 0, _ => none
  | fuel + 1, cs =>
    match cs with
    | '[' :: rest =>
      if depth + 1 < nestingLimit then do
        let (items, rest) ← readItems (depth + 1) fuel rest
        some (.array items, rest)
      else none
    | '{' :: rest =>
      if depth + 1 < nestingLimit then do
        match rest.dropWhile isSpace with
        | '}' :: rest => some (.table .braces [], rest)
        | rest =>
          let (members, rest) ← readPairs (depth + 1) fuel [] rest
          some (.table .braces members, rest)
      else none
    | _ => readScalar cs

/-- Reads the items of an array, up to its closing bracket. -/
def readItems (depth : Nat) : Nat → List Char → Option (List Value × List Char)
  | 0, _ => none
  | fuel + 1, cs => do
    match ← skipBlank (cs.length + 1) cs with
    | ']' :: rest => some ([], rest)
    | rest =>
      let (item, rest) ← readValue depth fuel rest
      match ← skipBlank (rest.length + 1) rest with
      | ']' :: rest => some ([item], rest)
      | ',' :: rest =>
        let (items, rest) ← readItems depth fuel rest
        some (item :: items, rest)
      | _ => none

/-- Reads keys and values up to a closing brace, onto the members before them. -/
def readPairs (depth : Nat) : Nat → Members → List Char → Option (Members × List Char)
  | 0, _, _ => none
  | fuel + 1, members, cs => do
    let (path, key, rest) ← readKey cs
    let rest ← Text.behind? ['='] rest
    let (value, rest) ← readValue depth fuel (rest.dropWhile isSpace)
    let members ← members.addDotted path key value
    match rest.dropWhile isSpace with
    | '}' :: rest => some (members, rest)
    | ',' :: rest => readPairs depth fuel members rest
    | _ => none

end

/-! ### Lines -/

/-- The table of a document so far, and the path of the table that the next key goes
into. -/
structure Reading where
  /-- The table of the document. -/
  members : Members := []
  /-- The path of the last header. -/
  path : List String := []
deriving Inhabited

/-- What follows the rest of a line that may hold a comment. -/
def endLine? (cs : List Char) : Option (List Char) :=
  match skipComment cs with
  | [] => some []
  | rest => behindNewline? rest

/-- Reads a header, from behind its opening brackets to the end of its line. -/
def readHeader (repeated : Bool) (reading : Reading) (cs : List Char) :
    Option (Reading × List Char) := do
  let (path, key, rest) ← readKey cs
  let rest ← Text.behind? (if repeated then [']', ']'] else [']']) rest
  let members ←
    if repeated then reading.members.openElement path key
    else reading.members.openTable path key
  some (⟨members, path ++ [key]⟩, ← endLine? rest)

/-- Reads a key with its value, to the end of the line. -/
def readPair (reading : Reading) (cs : List Char) : Option (Reading × List Char) := do
  let (path, key, rest) ← readKey cs
  let rest ← Text.behind? ['='] rest
  let (value, rest) ← readValue 0 (rest.length + 1) (rest.dropWhile isSpace)
  let members ← reading.members.change .implied
    (fun _ inner => inner.addDotted path key value) reading.path .header
  some ({ reading with members }, ← endLine? rest)

/-- Reads a line. -/
def readLineOf (reading : Reading) (cs : List Char) : Option (Reading × List Char) :=
  match cs.dropWhile isSpace with
  | '[' :: '[' :: rest => readHeader true reading rest
  | '[' :: rest => readHeader false reading rest
  | rest =>
    match endLine? rest with
    | some rest => some (reading, rest)
    | none => readPair reading rest

/-- Reads all lines. -/
def readAll : Nat → Reading → List Char → Option Members
  | _, reading, [] => some reading.members
  | 0, _, _ => none
  | fuel + 1, reading, c :: cs => do
    let (reading, rest) ← readLineOf reading (c :: cs)
    readAll fuel reading rest

/-- The members of the document that a text is, which may start with a byte order
mark. -/
def document? (text : String) : Option Members :=
  let cs := text.toList
  let cs := if cs.head? = some '\ufeff' then cs.drop 1 else cs
  readAll (cs.length + 1) {} cs

end Unreferenced.Toml
