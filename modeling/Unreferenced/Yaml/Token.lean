import Unreferenced.Yaml.Scalar

/-!
# Tokens of YAML text

YAML text cut into indicators, scalars and names, with the starts and ends of blocks,
which have no characters of their own, put in where the indentation implies them.

A mapping key needs no indicator in front, so that a token is known to be one only when
the colon behind it is met. The lexer therefore remembers, for every open collection,
where the last token that could be a key stands, and inserts the missing tokens there. A
key has to end on its line and within `keyLimit` characters. Where a block would continue
with a key, one that is not followed by a colon is an error.
-/

namespace Unreferenced.Yaml

/-- A token. -/
inductive Token where
  /-- A directive that gives the version of the language. -/
  | version (major minor : Nat)
  /-- A directive that gives the expansion of a tag handle. -/
  | tagHandle (handle expansion : String)
  /-- The mark in front of a document. -/
  | documentStart
  /-- The mark behind a document. -/
  | documentEnd
  /-- The start of a block of list items. -/
  | blockSequence
  /-- The start of a block of keys and values. -/
  | blockMapping
  /-- The end of a block. -/
  | blockEnd
  /-- An opening bracket. -/
  | flowSequence
  /-- A closing bracket. -/
  | flowSequenceEnd
  /-- An opening brace. -/
  | flowMapping
  /-- A closing brace. -/
  | flowMappingEnd
  /-- The dash in front of a list item. -/
  | blockEntry
  /-- A comma. -/
  | flowEntry
  /-- The start of a key. -/
  | key
  /-- The start of a value. -/
  | value
  /-- A reference to an anchor. -/
  | alias (name : String)
  /-- An anchor of the node that follows. -/
  | anchor (name : String)
  /-- A tag of the node that follows. -/
  | tag (handle suffix : String)
  /-- A scalar. -/
  | scalar (style : ScalarStyle) (text : String)
deriving DecidableEq, Inhabited, Repr

/-- A token that becomes a key when a colon follows it. -/
structure PendingKey where
  /-- Whether a colon has to follow. -/
  required : Bool
  /-- How many tokens come before it. -/
  token : Nat
  /-- Where it starts: the characters before it. -/
  index : Nat
  /-- Where it starts: the line. -/
  line : Nat
  /-- Where it starts: the column. -/
  column : Nat
deriving Inhabited

/-- How many characters a key without an indicator may have. -/
def keyLimit : Nat := 1024

/-- A lexer at work. -/
structure Lexer where
  /-- The position in the text. -/
  cursor : Cursor
  /-- The tokens so far, last first. -/
  tokens : List Token := []
  /-- The number of tokens so far. -/
  count : Nat := 0
  /-- The columns of the open blocks, innermost first. -/
  blocks : List Nat := []
  /-- The possible keys of the open flow collections, innermost first, and at the end
  that of the blocks around them. -/
  keys : List (Option PendingKey) := [none]
  /-- Whether a key without an indicator may start at the position. -/
  keyAllowed : Bool := true
deriving Inhabited

namespace Lexer

/-! ### Tokens, blocks and possible keys -/

/-- Whether the position is inside a flow collection. -/
def inFlow (lexer : Lexer) : Bool :=
  lexer.keys.length > 1

/-- Adds a token behind all others. -/
def emit (lexer : Lexer) (token : Token) : Lexer :=
  { lexer with tokens := token :: lexer.tokens, count := lexer.count + 1 }

/-- Adds a token behind the given number of tokens. -/
def insert (lexer : Lexer) (place : Nat) (token : Token) : Lexer :=
  { lexer with
    tokens := lexer.tokens.insertIdx (lexer.count - place) token
    count := lexer.count + 1 }

/-- Moves on along the line. -/
def skip (lexer : Lexer) (count : Nat) : Lexer :=
  { lexer with cursor := lexer.cursor.skip count }

/-- Sets whether a key may start. -/
def allowKey (lexer : Lexer) (allowed : Bool) : Lexer :=
  { lexer with keyAllowed := allowed }

/-- Gives up possible keys that have become too long or have left their line. -/
def expireKeys (lexer : Lexer) : Option Lexer := do
  let expire (key? : Option PendingKey) : Option (Option PendingKey) :=
    match key? with
    | none => some none
    | some key =>
      if key.line < lexer.cursor.line || key.index + keyLimit < lexer.cursor.index then
        if key.required then none else some none
      else some (some key)
  let keys ← lexer.keys.mapM expire
  some { lexer with keys }

/-- Gives up the possible key of the innermost collection. -/
def dropKey (lexer : Lexer) : Option Lexer :=
  match lexer.keys with
  | some key :: outer => if key.required then none else some { lexer with keys := none :: outer }
  | _ => some lexer

/-- Notes that the token that comes next may be a key. -/
def noteKey (lexer : Lexer) : Option Lexer :=
  if lexer.keyAllowed then do
    let key : PendingKey := {
      required := !lexer.inFlow && lexer.blocks.head? == some lexer.cursor.column
      token := lexer.count
      index := lexer.cursor.index
      line := lexer.cursor.line
      column := lexer.cursor.column }
    let lexer ← lexer.dropKey
    some { lexer with keys := some key :: lexer.keys.tail }
  else some lexer

/-- Opens a block at a column, behind the given number of tokens, unless one is open at
that column or a later one. -/
def openBlock (lexer : Lexer) (column place : Nat) (token : Token) : Lexer :=
  if lexer.inFlow || lexer.blocks.head?.any (column ≤ ·) then lexer
  else { lexer.insert place token with blocks := column :: lexer.blocks }

/-- Closes the blocks for which the condition holds on their columns. -/
def closeBlocks (lexer : Lexer) (condition : Nat → Bool) : Lexer :=
  if lexer.inFlow then lexer
  else
    let closed := (lexer.blocks.takeWhile condition).length
    { lexer with
      blocks := lexer.blocks.drop closed
      tokens := List.replicate closed .blockEnd ++ lexer.tokens
      count := lexer.count + closed }

/-! ### Names, tags and directives -/

/-- Reads a run of word characters, at least one. -/
def readWord (cursor : Cursor) : Option (List Char × Cursor) :=
  let word := cursor.run isWordChar
  if word.isEmpty then none else some (word, cursor.skip word.length)

/-- Reads the name of an anchor, from behind its indicator. -/
def readAnchor (cursor : Cursor) : Option (String × Cursor) := do
  let (name, cursor) ← readWord cursor
  let mayFollow (c : Char) : Bool :=
    isGap c || ['?', ':', ',', ']', '}', '%', '@', '\x60'].contains c
  if cursor.rest.head?.all mayFollow then some (String.ofList name, cursor) else none

/-- The number of octets that a character takes when it starts with the given one. -/
def octetCount? (first : Nat) : Option Nat :=
  if first < 0x80 then some 1
  else if first / 0x20 = 6 then some 2
  else if first / 0x10 = 14 then some 3
  else if first / 0x08 = 30 then some 4
  else none

/-- Reads one octet written as a percent sign and two hexadecimal digits. -/
def readOctet (cursor : Cursor) : Option (Nat × Cursor) :=
  match cursor.rest with
  | '%' :: high :: low :: _ => do
    let value ← Text.hexNumber? [high, low]
    some (value, cursor.skip 3)
  | _ => none

/-- Reads the further octets of a character onto the bits of those before. -/
def readMoreOctets : Nat → Nat → Cursor → Option (Nat × Cursor)
  | 0, code, cursor => some (code, cursor)
  | count + 1, code, cursor => do
    let (octet, cursor) ← readOctet cursor
    if octet / 0x40 = 2 then readMoreOctets count (code * 0x40 + octet % 0x40) cursor else none

/-- Reads a character written by its octets. -/
def readOctets (cursor : Cursor) : Option (Char × Cursor) := do
  let (first, cursor) ← readOctet cursor
  let count ← octetCount? first
  let bits := if count = 1 then first else first % Nat.pow 2 (7 - count)
  let (code, cursor) ← readMoreOctets (count - 1) bits cursor
  some (Char.ofNat code, cursor)

/-- Whether a character can stand in the suffix of a tag. -/
def isTagChar (verbatim : Bool) (c : Char) : Bool :=
  isWordChar c ||
    [';', '/', '?', ':', '@', '&', '=', '+', '$', '.', '!', '~', '*', '\x27', '(', ')'].contains c ||
    (verbatim && [',', '[', ']'].contains c)

/-- Reads the characters of the suffix of a tag. -/
def readTagChars (verbatim : Bool) : Nat → Cursor → List Char → Option (List Char × Cursor)
  | 0, cursor, text => some (text, cursor)
  | fuel + 1, cursor, text =>
    match cursor.rest with
    | [] => some (text, cursor)
    | c :: _ =>
      if c == '%' then do
        let (value, next) ← readOctets cursor
        readTagChars verbatim fuel next (text ++ [value])
      else if isTagChar verbatim c then
        readTagChars verbatim fuel (cursor.skip 1) (text ++ [c])
      else some (text, cursor)

/-- Reads the suffix of a tag; an empty one only where that is allowed. -/
def readTagSuffix (verbatim mayBeEmpty : Bool) (cursor : Cursor) :
    Option (List Char × Cursor) := do
  let (text, behind) ← readTagChars verbatim (cursor.rest.length + 1) cursor []
  if text.isEmpty && !mayBeEmpty then none else some (text, behind)

/-- Reads a tag handle: word characters between exclamation marks, of which the second
may be missing outside directives. -/
def readTagHandle (directive : Bool) (cursor : Cursor) : Option (List Char × Cursor) :=
  if cursor.sees '!' then
    let word := (cursor.skip 1).run isWordChar
    let behind := cursor.skip (1 + word.length)
    if behind.sees '!' then some ('!' :: word ++ ['!'], behind.skip 1)
    else if directive && !word.isEmpty then none
    else some ('!' :: word, behind)
  else none

/-- Reads a tag: verbatim between angle brackets, or a handle with a suffix. -/
def readTag (cursor : Cursor) : Option (Token × Cursor) :=
  if cursor.seesAt 1 (· == '<') then do
    let (suffix, cursor) ← readTagSuffix true false (cursor.skip 2)
    if cursor.sees '>' then some (.tag "" (String.ofList suffix), cursor.skip 1) else none
  else do
    let (handle, cursor) ← readTagHandle false cursor
    if 1 < handle.length && handle.getLast? = some '!' then
      let (suffix, cursor) ← readTagSuffix false false cursor
      some (.tag (String.ofList handle) (String.ofList suffix), cursor)
    else
      let (more, cursor) ← readTagSuffix false true cursor
      let suffix := handle.drop 1 ++ more
      if suffix.isEmpty then some (.tag "" "!", cursor)
      else some (.tag "!" (String.ofList suffix), cursor)

/-- How many digits a version number may have. -/
def versionDigits : Nat := 9

/-- Reads a part of a version number. -/
def readVersionPart (cursor : Cursor) : Option (Nat × Cursor) :=
  let digits := cursor.run Char.isDigit
  if digits.isEmpty || versionDigits < digits.length then none
  else
    let value := digits.foldl (fun value c => 10 * value + (c.toNat - '0'.toNat)) 0
    some (value, cursor.skip digits.length)

/-- Reads what the directive of the given name says. -/
def readDirectiveValue (name : String) (cursor : Cursor) : Option (Token × Cursor) := do
  let cursor := cursor.skipRun isSpace
  if name = "YAML" then
    let (major, cursor) ← readVersionPart cursor
    if cursor.sees '.' then
      let (minor, cursor) ← readVersionPart (cursor.skip 1)
      some (.version major minor, cursor)
    else none
  else if name = "TAG" then
    let (handle, cursor) ← readTagHandle true cursor
    if cursor.rest.head?.any isSpace then
      let (expansion, cursor) ← readTagSuffix true false (cursor.skipRun isSpace)
      if cursor.endsAt 0 then
        some (.tagHandle (String.ofList handle) (String.ofList expansion), cursor)
      else none
    else none
  else none

/-- Reads a directive with the rest of its line, from its percent sign on. -/
def readDirective (cursor : Cursor) : Option (Token × Cursor) := do
  let (name, cursor) ← readWord (cursor.skip 1)
  if cursor.endsAt 0 then
    let (token, cursor) ← readDirectiveValue (String.ofList name) cursor
    let cursor := cursor.skipRun isSpace
    let cursor := if cursor.sees '#' then cursor.skipRun (! isBreak ·) else cursor
    if cursor.atLineEnd then some (token, cursor.skipLine) else none
  else none

/-! ### One token after the other -/

/-- Moves on to the next token, over white space, comments and line breaks. A line break
outside flow collections allows a key. A tab is passed over where no key can start. -/
def skipToToken : Nat → Lexer → Lexer
  | 0, lexer => lexer
  | fuel + 1, lexer =>
    let cursor := lexer.cursor
    let cursor := if cursor.index == 0 && cursor.sees '\ufeff' then cursor.skip 1 else cursor
    let tabs := lexer.inFlow || !lexer.keyAllowed
    let cursor := cursor.skipRun fun c => c == ' ' || (tabs && c == '\t')
    let cursor := if cursor.sees '#' then cursor.skipRun (! isBreak ·) else cursor
    if cursor.rest.head?.any isBreak then
      skipToToken fuel
        { lexer with
          cursor := cursor.skipLine
          keyAllowed := lexer.keyAllowed || !lexer.inFlow }
    else { lexer with cursor }

/-- Takes a token that ends all blocks: a directive or a mark around a document. -/
def atMargin (lexer : Lexer) : Option Lexer :=
  ((lexer.closeBlocks fun _ => true).dropKey).map (·.allowKey false)

/-- Takes a bracket or brace that opens a collection. -/
def openFlow (lexer : Lexer) (token : Token) : Option Lexer := do
  let lexer ← lexer.noteKey
  some (({ lexer with keys := none :: lexer.keys }.allowKey true).skip 1 |>.emit token)

/-- Takes a bracket or brace that closes a collection. -/
def closeFlow (lexer : Lexer) (token : Token) : Option Lexer := do
  let lexer ← lexer.dropKey
  let keys := if lexer.inFlow then lexer.keys.tail else lexer.keys
  some (({ lexer with keys }.allowKey false).skip 1 |>.emit token)

/-- Takes a comma. -/
def takeFlowEntry (lexer : Lexer) : Option Lexer := do
  let lexer ← lexer.dropKey
  some ((lexer.allowKey true).skip 1 |>.emit .flowEntry)

/-- Opens a block at the position, where a block may start. -/
def startBlock (lexer : Lexer) (token : Token) : Option Lexer :=
  if lexer.inFlow then some lexer
  else if lexer.keyAllowed then
    some (lexer.openBlock lexer.cursor.column lexer.count token)
  else none

/-- Takes the dash of a list item. -/
def takeBlockEntry (lexer : Lexer) : Option Lexer := do
  let lexer ← (← lexer.startBlock .blockSequence).dropKey
  some ((lexer.allowKey true).skip 1 |>.emit .blockEntry)

/-- Takes the indicator of a key. -/
def takeKey (lexer : Lexer) : Option Lexer := do
  let lexer ← (← lexer.startBlock .blockMapping).dropKey
  some ((lexer.allowKey !lexer.inFlow).skip 1 |>.emit .key)

/-- Takes the colon in front of a value. -/
def takeValue (lexer : Lexer) : Option Lexer :=
  match lexer.keys with
  | some key :: outer =>
    let lexer := { lexer with keys := none :: outer }.insert key.token .key
    let lexer := lexer.openBlock key.column key.token .blockMapping
    some ((lexer.allowKey false).skip 1 |>.emit .value)
  | _ => do
    let lexer ← lexer.startBlock .blockMapping
    some ((lexer.allowKey !lexer.inFlow).skip 1 |>.emit .value)

/-- Takes a token that may be a key, given how it is read. -/
def takeWith (lexer : Lexer) (read : Cursor → Option (Token × Cursor)) : Option Lexer := do
  let lexer := (← lexer.noteKey).allowKey false
  let (token, cursor) ← read lexer.cursor
  some ({ lexer with cursor }.emit token)

/-- The least column at which the text of a scalar can go on on a further line. -/
def scalarColumn (lexer : Lexer) : Nat :=
  (lexer.blocks.head?.map (· + 1)).getD 0

/-- Takes a plain scalar. -/
def takePlain (lexer : Lexer) : Option Lexer := do
  let lexer := (← lexer.noteKey).allowKey false
  let (text, cursor, broken) ←
    readPlain lexer.inFlow lexer.scalarColumn (lexer.cursor.rest.length + 1) lexer.cursor [] {}
  some ({ lexer with cursor, keyAllowed := broken }.emit (.scalar .plain (String.ofList text)))

/-- Takes a block scalar. -/
def takeBlock (lexer : Lexer) (style : ScalarStyle) : Option Lexer := do
  let lexer := (← lexer.dropKey).allowKey true
  let (text, cursor) ←
    readBlock (style == .folded) lexer.scalarColumn (lexer.cursor.skip 1)
  some ({ lexer with cursor }.emit (.scalar style (String.ofList text)))

/-- Reads a quoted scalar, from its opening quote on. -/
def readQuotedToken (style : ScalarStyle) (cursor : Cursor) : Option (Token × Cursor) :=
  (readQuoted (style == .singleQuoted) (cursor.rest.length + 1) (cursor.skip 1) []).map
    fun (text, cursor) => (.scalar style (String.ofList text), cursor)

/-- Reads a tag and checks what comes behind it. -/
def readTagToken (inFlow : Bool) (cursor : Cursor) : Option (Token × Cursor) := do
  let (token, cursor) ← readTag cursor
  if cursor.endsAt 0 || (inFlow && cursor.sees ',') then some (token, cursor) else none

/-- Whether a plain scalar can start with a character, given whether white space other
than a line break follows it, whether the text ends or has any white space there, and
whether the position is in a flow collection. -/
def startsPlain (lexer : Lexer) (c : Char) : Bool :=
  let indicators : List Char :=
    ['-', '?', ':', ',', '[', ']', '{', '}', '#', '&', '*', '!', '|', '>', '\x27', '\x22',
      '%', '@', '\x60']
  (!isGap c && !indicators.contains c) ||
    (c == '-' && !lexer.cursor.seesAt 1 isSpace) ||
    (!lexer.inFlow && (c == '?' || c == ':') && !lexer.cursor.endsAt 1)

/-- Takes the token that starts with the given character at the position. -/
def takeToken (lexer : Lexer) (c : Char) : Option Lexer :=
  let cursor := lexer.cursor
  let indicates := lexer.inFlow || cursor.endsAt 1
  if cursor.column == 0 && c == '%' then do
    let lexer ← lexer.atMargin
    let (token, cursor) ← readDirective lexer.cursor
    some ({ lexer with cursor }.emit token)
  else if cursor.atDocumentMark then do
    let lexer ← lexer.atMargin
    some ((lexer.skip 3).emit (if c == '-' then .documentStart else .documentEnd))
  else if c == '[' then lexer.openFlow .flowSequence
  else if c == '{' then lexer.openFlow .flowMapping
  else if c == ']' then lexer.closeFlow .flowSequenceEnd
  else if c == '}' then lexer.closeFlow .flowMappingEnd
  else if c == ',' then lexer.takeFlowEntry
  else if c == '-' && cursor.endsAt 1 then lexer.takeBlockEntry
  else if c == '?' && indicates then lexer.takeKey
  else if c == ':' && indicates then lexer.takeValue
  else if c == '*' then
    lexer.takeWith fun cursor =>
      (readAnchor (cursor.skip 1)).map fun (name, next) => (.alias name, next)
  else if c == '&' then
    lexer.takeWith fun cursor =>
      (readAnchor (cursor.skip 1)).map fun (name, next) => (.anchor name, next)
  else if c == '!' then lexer.takeWith (readTagToken lexer.inFlow)
  else if c == '|' && !lexer.inFlow then lexer.takeBlock .literal
  else if c == '>' && !lexer.inFlow then lexer.takeBlock .folded
  else if c == '\x27' then lexer.takeWith (readQuotedToken .singleQuoted)
  else if c == '\x22' then lexer.takeWith (readQuotedToken .doubleQuoted)
  else if lexer.startsPlain c then lexer.takePlain
  else none

/-- Takes all tokens that are left, at most as many as the first argument says. -/
def takeAll : Nat → Lexer → Option Lexer
  | 0, _ => none
  | fuel + 1, lexer => do
    let lexer := skipToToken (lexer.cursor.rest.length + 1) lexer
    let lexer ← lexer.expireKeys
    let lexer := lexer.closeBlocks (lexer.cursor.column < ·)
    match lexer.cursor.rest with
    | [] => lexer.atMargin
    | c :: _ => takeAll fuel (← lexer.takeToken c)

end Lexer

/-- The tokens of a text, when it is made of tokens. -/
def tokens? (text : List Char) : Option (List Token) :=
  if text.all isAllowed then
    (Lexer.takeAll (text.length + 1) { cursor := { rest := text } }).map (·.tokens.reverse)
  else none

end Unreferenced.Yaml
