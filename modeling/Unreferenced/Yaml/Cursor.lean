/-!
# A reading position in YAML text

The characters that are left to read with the position they start at. Lines and columns
decide the structure of YAML, so every step through the text goes through `Cursor.skip`,
which stays on the line, or `Cursor.skipLine`, which ends it. There are five line breaks;
a carriage return and a line feed after it are one.
-/

namespace Unreferenced.Yaml

/-- Whether a character breaks a line. -/
def isBreak (c : Char) : Bool :=
  c == '\n' || c == '\r' || c == '\u0085' || c == '\u2028' || c == '\u2029'

/-- Whether a character is white space within a line. -/
def isSpace (c : Char) : Bool :=
  c == ' ' || c == '\t'

/-- Whether a character is white space or a line break. -/
def isGap (c : Char) : Bool :=
  isSpace c || isBreak c

/-- Whether a character can stand in the names of anchors, tags and directives. -/
def isWordChar (c : Char) : Bool :=
  c.isAlphanum || c == '_' || c == '-'

/-- Whether YAML text may contain a character at all. -/
def isAllowed (c : Char) : Bool :=
  c == '\t' || c == '\n' || c == '\r' || (' ' ≤ c && c ≤ '~') || c == '\u0085' ||
    ('\u00a0' ≤ c && c ≤ '\ufffd') || 0x10000 ≤ c.toNat

/-- A position in a text. -/
structure Cursor where
  /-- The characters from the position on. -/
  rest : List Char
  /-- How many characters come before the position. -/
  index : Nat := 0
  /-- How many lines come before that of the position. -/
  line : Nat := 0
  /-- How many characters of the line come before the position. -/
  column : Nat := 0
deriving Inhabited

namespace Cursor

/-- The position a number of characters further on the line. -/
def skip (cursor : Cursor) (count : Nat) : Cursor :=
  { cursor with
    rest := cursor.rest.drop count
    index := cursor.index + count
    column := cursor.column + count }

/-- The position behind the line break that the cursor is at, if it is at one. -/
def skipLine (cursor : Cursor) : Cursor :=
  match cursor.rest with
  | '\r' :: '\n' :: rest =>
    { rest, index := cursor.index + 2, line := cursor.line + 1, column := 0 }
  | c :: rest =>
    if isBreak c then { rest, index := cursor.index + 1, line := cursor.line + 1, column := 0 }
    else cursor
  | [] => cursor

/-- The line break that the cursor is at as it counts in a value: the two breaks with a
meaning of their own are kept, all others become line feeds. -/
def lineBreak (cursor : Cursor) : List Char :=
  match cursor.rest with
  | c :: _ => if c == '\u2028' || c == '\u2029' then [c] else if isBreak c then ['\n'] else []
  | [] => []

/-- The characters from the position on that satisfy a condition. -/
def run (cursor : Cursor) (condition : Char → Bool) : List Char :=
  cursor.rest.takeWhile condition

/-- The position behind the characters that satisfy a condition. -/
def skipRun (cursor : Cursor) (condition : Char → Bool) : Cursor :=
  cursor.skip (cursor.run condition).length

/-- Whether the character at a distance satisfies a condition. -/
def seesAt (cursor : Cursor) (distance : Nat) (condition : Char → Bool) : Bool :=
  (cursor.rest[distance]?).any condition

/-- Whether the character at the position is the given one. -/
def sees (cursor : Cursor) (c : Char) : Bool :=
  cursor.rest.head? == some c

/-- Whether the text has ended or goes on with white space or a line break at a
distance. -/
def endsAt (cursor : Cursor) (distance : Nat) : Bool :=
  (cursor.rest[distance]?).all isGap

/-- Whether the line has ended at the position. -/
def atLineEnd (cursor : Cursor) : Bool :=
  cursor.rest.head?.all isBreak

/-- Whether the line starts with the mark between two documents or behind one. -/
def atDocumentMark (cursor : Cursor) : Bool :=
  cursor.column == 0 &&
    (['-', '-', '-'].isPrefixOf cursor.rest || ['.', '.', '.'].isPrefixOf cursor.rest) &&
    cursor.endsAt 3

end Cursor

end Unreferenced.Yaml
