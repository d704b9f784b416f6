import Unreferenced.Text.Digits
import Unreferenced.Yaml.Cursor

/-!
# Scalars of YAML text

The five ways of writing a scalar, each with its rules about line breaks. In plain and
quoted scalars a single line break becomes a space and further ones are kept; a literal
block keeps its lines and a folded one joins those that are not indented further.

Every reader takes a position at the start of the scalar and answers with the text and
the position behind it, or with nothing when the scalar is malformed.
-/

namespace Unreferenced.Yaml

/-- How a scalar is written. -/
inductive ScalarStyle where
  /-- Without quotes. -/
  | plain
  /-- Between single quotes. -/
  | singleQuoted
  /-- Between double quotes. -/
  | doubleQuoted
  /-- As an indented block whose line breaks count. -/
  | literal
  /-- As an indented block whose line breaks fold. -/
  | folded
deriving DecidableEq, Inhabited, Repr

/-! ### White space inside a scalar -/

/-- The white space met inside a scalar before its next character. -/
structure Gap where
  /-- White space on the line, as long as no line break came. -/
  spaces : List Char := []
  /-- Whether a line break came. -/
  broken : Bool := false
  /-- The first line break. -/
  firstBreak : List Char := []
  /-- The line breaks after the first. -/
  moreBreaks : List Char := []
deriving Inhabited

/-- What stands for the gap in the value. -/
def Gap.fold (gap : Gap) : List Char :=
  if gap.broken then
    if gap.firstBreak.head? = some '\n' then
      if gap.moreBreaks.isEmpty then [' '] else gap.moreBreaks
    else gap.firstBreak ++ gap.moreBreaks
  else gap.spaces

/-- Reads white space. On a further line a tab that stands before the column `indent` is
refused. -/
def readGap (indent : Nat) : Nat → Cursor → Gap → Option (Gap × Cursor)
  | 0, cursor, gap => some (gap, cursor)
  | fuel + 1, cursor, gap =>
    match cursor.rest with
    | [] => some (gap, cursor)
    | c :: _ =>
      if isSpace c then
        if gap.broken then
          if c == '\t' && cursor.column < indent then none
          else readGap indent fuel (cursor.skip 1) gap
        else readGap indent fuel (cursor.skip 1) { gap with spaces := gap.spaces ++ [c] }
      else if isBreak c then
        if gap.broken then
          readGap indent fuel cursor.skipLine
            { gap with moreBreaks := gap.moreBreaks ++ cursor.lineBreak }
        else
          readGap indent fuel cursor.skipLine
            { gap with spaces := [], broken := true, firstBreak := cursor.lineBreak }
      else some (gap, cursor)

/-! ### Plain scalars -/

/-- Whether a character ends plain scalars in a flow collection. -/
def isFlowEnd (c : Char) : Bool :=
  c == ',' || c == '[' || c == ']' || c == '{' || c == '}'

/-- Reads the characters of a plain scalar up to white space or to what ends it. In a
flow collection a colon right before an indicator is refused. -/
def readPlainRun (inFlow : Bool) : Nat → Cursor → List Char → Option (List Char × Cursor)
  | 0, cursor, text => some (text, cursor)
  | fuel + 1, cursor, text =>
    match cursor.rest with
    | [] => some (text, cursor)
    | c :: _ =>
      if isGap c then some (text, cursor)
      else if inFlow && c == ':' && cursor.seesAt 1 (fun d => isFlowEnd d || d == '?') then none
      else if (c == ':' && cursor.endsAt 1) || (inFlow && isFlowEnd c) then some (text, cursor)
      else readPlainRun inFlow fuel (cursor.skip 1) (text ++ [c])

/-- Reads a plain scalar after the given text and gap. The last part of the answer tells
whether the scalar was left on a line of its own. -/
def readPlain (inFlow : Bool) (indent : Nat) :
    Nat → Cursor → List Char → Gap → Option (List Char × Cursor × Bool)
  | 0, _, _, _ => none
  | fuel + 1, cursor, text, gap =>
    if cursor.atDocumentMark || cursor.sees '#' then some (text, cursor, gap.broken)
    else do
      let (run, behind) ← readPlainRun inFlow (cursor.rest.length + 1) cursor []
      let (text, gap) := if run.isEmpty then (text, gap) else (text ++ gap.fold ++ run, {})
      if behind.rest.head?.any isGap then
        let (gap, next) ← readGap indent (behind.rest.length + 1) behind gap
        if !inFlow && next.column < indent then some (text, next, gap.broken)
        else readPlain inFlow indent fuel next text gap
      else some (text, behind, gap.broken)

/-! ### Quoted scalars -/

/-- The number of hexadecimal digits behind a backslash and the given letter. -/
def escapeDigits? (c : Char) : Option Nat :=
  match c with
  | 'x' => some 2
  | 'u' => some 4
  | 'U' => some 8
  | _ => none

/-- The character that a backslash and the given character stand for. -/
def escaped? (c : Char) : Option Char :=
  match c with
  | '0' => some '\x00'
  | 'a' => some '\x07'
  | 'b' => some '\x08'
  | 't' => some '\t'
  | '\t' => some '\t'
  | 'n' => some '\n'
  | 'v' => some '\x0b'
  | 'f' => some '\x0c'
  | 'r' => some '\r'
  | 'e' => some '\x1b'
  | ' ' => some ' '
  | '\x22' => some '\x22'
  | '/' => some '/'
  | '\\' => some '\\'
  | 'N' => some '\u0085'
  | '_' => some '\u00a0'
  | 'L' => some '\u2028'
  | 'P' => some '\u2029'
  | _ => none

/-- Reads the escape that starts with the backslash at the position. -/
def readEscape (cursor : Cursor) : Option (Char × Cursor) := do
  let letter ← cursor.rest[1]?
  match escapeDigits? letter with
  | some count =>
    let digits := (cursor.rest.drop 2).take count
    if digits.length < count then none
    else
      let c ← Text.charOfCode? (← Text.hexNumber? digits)
      some (c, cursor.skip (2 + count))
  | none => (escaped? letter).map (·, cursor.skip 2)

/-- Reads the characters of a quoted scalar up to white space or the closing quote. The
last part of the answer tells whether an escaped line break was passed. -/
def readQuotedRun (single : Bool) :
    Nat → Cursor → List Char → Option (List Char × Cursor × Bool)
  | 0, _, _ => none
  | fuel + 1, cursor, text =>
    match cursor.rest with
    | [] => some (text, cursor, false)
    | c :: rest =>
      if isGap c then some (text, cursor, false)
      else if single then
        if c == '\x27' then
          if rest.head? = some '\x27' then
            readQuotedRun single fuel (cursor.skip 2) (text ++ [c])
          else some (text, cursor, false)
        else readQuotedRun single fuel (cursor.skip 1) (text ++ [c])
      else if c == '\x22' then some (text, cursor, false)
      else if c == '\\' then
        if rest.head?.any isBreak then some (text, (cursor.skip 1).skipLine, true)
        else do
          let (value, next) ← readEscape cursor
          readQuotedRun single fuel next (text ++ [value])
      else readQuotedRun single fuel (cursor.skip 1) (text ++ [c])

/-- Reads a quoted scalar, from behind its opening quote to behind its closing one, after
the given text. -/
def readQuoted (single : Bool) : Nat → Cursor → List Char → Option (List Char × Cursor)
  | 0, _, _ => none
  | fuel + 1, cursor, text =>
    if cursor.atDocumentMark || cursor.rest.isEmpty then none
    else do
      let (text, behind, broken) ← readQuotedRun single (cursor.rest.length + 1) cursor text
      if behind.sees (if single then '\x27' else '\x22') then some (text, behind.skip 1)
      else
        let (gap, next) ← readGap 0 (behind.rest.length + 1) behind { broken }
        readQuoted single fuel next (text ++ gap.fold)

/-! ### Block scalars -/

/-- What becomes of the line breaks at the end of a block. -/
inductive Chomping where
  /-- All are dropped. -/
  | strip
  /-- The first is kept. -/
  | clip
  /-- All are kept. -/
  | keep
deriving DecidableEq, Inhabited, Repr

/-- Reads the line breaks before the next line of a block, with the indentation up to
`indent`, or as far as it goes when the indentation is still to be found. The last part
of the answer is the greatest column that was reached. -/
def readBlockBreaks (indent? : Option Nat) :
    Nat → Cursor → List Char → Nat → Option (List Char × Cursor × Nat)
  | 0, cursor, breaks, reached => some (breaks, cursor, reached)
  | fuel + 1, cursor, breaks, reached =>
    let spaces := (cursor.run (· == ' ')).length
    let count := match indent? with
      | none => spaces
      | some indent => min spaces (indent - cursor.column)
    let cursor := cursor.skip count
    let reached := max reached cursor.column
    if indent?.all (cursor.column < ·) && cursor.sees '\t' then none
    else if cursor.rest.head?.any isBreak then
      readBlockBreaks indent? fuel cursor.skipLine (breaks ++ cursor.lineBreak) reached
    else some (breaks, cursor, reached)

/-- Reads the lines of a block with a known indentation, after the given text, the break
behind its last line and the breaks after that one. -/
def readBlockLines (folded : Bool) (indent : Nat) :
    Nat → Cursor → List Char → List Char → List Char → Bool →
      Option (List Char × List Char × List Char × Cursor)
  | 0, _, _, _, _, _ => none
  | fuel + 1, cursor, text, lastBreak, breaks, leadingBlank =>
    if cursor.column = indent && !cursor.rest.isEmpty then do
      let blank := cursor.rest.head?.any isSpace
      let joint :=
        if folded && lastBreak.head? = some '\n' && !leadingBlank && !blank then
          if breaks.isEmpty then [' '] else []
        else lastBreak
      let line := cursor.run (! isBreak ·)
      let lineEnd := cursor.skip line.length
      let (more, next, _) ←
        readBlockBreaks (some indent) (lineEnd.rest.length + 1) lineEnd.skipLine [] 0
      readBlockLines folded indent fuel next (text ++ joint ++ breaks ++ line)
        lineEnd.lineBreak more blank
    else some (text, lastBreak, breaks, cursor)

/-- Reads the signs behind the indicator of a block: how to end it and by how much it is
indented, in either order. -/
def readBlockHeader (cursor : Cursor) : Option (Chomping × Option Nat × Cursor) :=
  let chomping? (cursor : Cursor) : Option Chomping :=
    if cursor.sees '+' then some .keep else if cursor.sees '-' then some .strip else none
  let digit? (cursor : Cursor) : Option Nat :=
    (cursor.rest.head?.filter Char.isDigit).map fun c => c.toNat - '0'.toNat
  match chomping? cursor, digit? cursor with
  | some chomping, _ =>
    let cursor := cursor.skip 1
    match digit? cursor with
    | some 0 => none
    | some increment => some (chomping, some increment, cursor.skip 1)
    | none => some (chomping, none, cursor)
  | none, some 0 => none
  | none, some increment =>
    let cursor := cursor.skip 1
    match chomping? cursor with
    | some chomping => some (chomping, some increment, cursor.skip 1)
    | none => some (.clip, some increment, cursor)
  | none, none => some (.clip, none, cursor)

/-- Reads a block scalar from behind its indicator. The indentation is found from the
first line unless the header gives it, and is at least `least`. -/
def readBlock (folded : Bool) (least : Nat) (cursor : Cursor) :
    Option (List Char × Cursor) := do
  let (chomping, increment?, cursor) ← readBlockHeader cursor
  let cursor := cursor.skipRun isSpace
  let cursor := if cursor.sees '#' then cursor.skipRun (! isBreak ·) else cursor
  if !cursor.atLineEnd then none
  else
    let cursor := cursor.skipLine
    let given? := increment?.map fun increment => least - 1 + increment
    let (breaks, cursor, reached) ←
      readBlockBreaks given? (cursor.rest.length + 1) cursor [] 0
    let indent := given?.getD (max reached (max least 1))
    let (text, lastBreak, breaks, cursor) ←
      readBlockLines folded indent (cursor.rest.length + 1) cursor [] [] breaks false
    match chomping with
    | .strip => some (text, cursor)
    | .clip => some (text ++ lastBreak, cursor)
    | .keep => some (text ++ lastBreak ++ breaks, cursor)

end Unreferenced.Yaml
