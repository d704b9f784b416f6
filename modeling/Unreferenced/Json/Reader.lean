import Unreferenced.Json
import Unreferenced.Text.Digits
import Unreferenced.Text.Search

/-!
# Reading JSON texts

`Json.parse?` takes a text to the value that it denotes by the grammar of JSON, or to
nothing when the grammar does not admit it. It knows nothing of how this library writes
values: white space may stand wherever the grammar allows it, every escape is understood,
and numbers may have fractions and exponents. Members of an object are kept as they come,
repeated keys too.

A reader takes the characters from where its part of the text starts to the value of that
part and the characters behind it. The readers of nested parts count down a number of
steps; a text has no more of them than twice its characters.
-/

namespace Unreferenced.Json

/-- Whether a character is white space between the parts of a text. -/
def isSpace (c : Char) : Bool :=
  c == ' ' || c == '\n' || c == '\r' || c == '\t'

/-- The characters without the white space at their start. -/
def skipSpace (cs : List Char) : List Char :=
  cs.dropWhile isSpace

/-! ### Strings -/

/-- Reads the four hexadecimal digits of an escape. -/
def readUnit? : List Char → Option (Nat × List Char)
  | a :: b :: c :: d :: rest => (Text.hexNumber? [a, b, c, d]).map (·, rest)
  | _ => none

/-- Reads what follows the first half of a pair of escapes that stand for one character. -/
def readSecondHalf? (first : Nat) (cs : List Char) : Option (Char × List Char) := do
  let (second, rest) ← readUnit? (← Text.behind? ['\\', 'u'] cs)
  if 0xdc00 ≤ second && second < 0xe000 then
    let c ← Text.charOfCode? (0x10000 + 0x400 * (first - 0xd800) + (second - 0xdc00))
    some (c, rest)
  else none

/-- Reads an escape by number from behind its letter. -/
def readNumberedEscape? (cs : List Char) : Option (Char × List Char) := do
  let (unit, rest) ← readUnit? cs
  if 0xd800 ≤ unit && unit < 0xdc00 then readSecondHalf? unit rest
  else (Text.charOfCode? unit).map (·, rest)

/-- Reads an escape from behind its backslash. -/
def readEscape? : List Char → Option (Char × List Char)
  | '\x22' :: rest => some ('\x22', rest)
  | '\\' :: rest => some ('\\', rest)
  | '/' :: rest => some ('/', rest)
  | 'b' :: rest => some ('\x08', rest)
  | 'f' :: rest => some ('\x0c', rest)
  | 'n' :: rest => some ('\n', rest)
  | 'r' :: rest => some ('\r', rest)
  | 't' :: rest => some ('\t', rest)
  | 'u' :: rest => readNumberedEscape? rest
  | _ => none

/-- Reads the characters of a string up to its closing quote. -/
def readChars? : Nat → List Char → Option (List Char × List Char)
  | 0, _ => none
  | _ + 1, [] => none
  | steps + 1, c :: rest =>
    if c = '\x22' then some ([], rest)
    else if c = '\\' then do
      let (d, rest) ← readEscape? rest
      let (cs, rest) ← readChars? steps rest
      some (d :: cs, rest)
    else if c.toNat < 0x20 then none
    else do
      let (cs, rest) ← readChars? steps rest
      some (c :: cs, rest)

/-- Reads a string. -/
def readString? (cs : List Char) : Option (String × List Char) := do
  let (text, rest) ← readChars? cs.length (← Text.behind? ['\x22'] cs)
  some (String.ofList text, rest)

/-! ### Numbers -/

/-- Reads digits, of which there has to be one at least. -/
def readDigits? (cs : List Char) : Option (List Char × List Char) :=
  let digits := cs.takeWhile Char.isDigit
  if digits.isEmpty then none else some (digits, cs.dropWhile Char.isDigit)

/-- Reads the digits in front of a point; a zero stands alone. -/
def readWhole? (cs : List Char) : Option (List Char × List Char) := do
  let (digits, rest) ← readDigits? cs
  if digits.head? = some '0' && digits.length ≠ 1 then none else some (digits, rest)

/-- Reads a point and the digits behind it, if a point stands here. -/
def readFraction? (cs : List Char) : Option (List Char × List Char) :=
  match cs with
  | '.' :: rest => readDigits? rest
  | _ => some ([], cs)

/-- The integer of the given digits. -/
def signed (negative : Bool) (digits : List Char) : Int :=
  if negative then -(Nat.ofDigitChars 10 digits 0 : Int) else Nat.ofDigitChars 10 digits 0

/-- Reads an exponent, if one stands here. -/
def readExponent? (cs : List Char) : Option (Int × List Char) :=
  match cs with
  | c :: rest =>
    if c = 'e' || c = 'E' then do
      let (negative, rest) := match rest with
        | '-' :: rest => (true, rest)
        | '+' :: rest => (false, rest)
        | rest => (false, rest)
      let (digits, rest) ← readDigits? rest
      some (signed negative digits, rest)
    else some (0, cs)
  | [] => some (0, [])

/-- Reads a number. -/
def readNumber? (cs : List Char) : Option (Json × List Char) := do
  let (negative, rest) := match cs with
    | '-' :: rest => (true, rest)
    | cs => (false, cs)
  let (whole, rest) ← readWhole? rest
  let (fraction, rest) ← readFraction? rest
  let (exponent, rest) ← readExponent? rest
  some (.number (signed negative (whole ++ fraction)) (exponent - fraction.length), rest)

/-! ### Values -/

mutual

/-- Reads a value and the white space in front of it. -/
def readValue? : Nat → List Char → Option (Json × List Char)
  | 0, _ => none
  | steps + 1, cs =>
    match skipSpace cs with
    | '\x22' :: rest => (readString? ('\x22' :: rest)).map fun (text, rest) => (.string text, rest)
    | '[' :: rest =>
      match skipSpace rest with
      | ']' :: rest => some (.array [], rest)
      | _ => (readItems? steps rest).map fun (items, rest) => (.array items, rest)
    | '{' :: rest =>
      match skipSpace rest with
      | '}' :: rest => some (.object [], rest)
      | _ => (readMembers? steps rest).map fun (members, rest) => (.object members, rest)
    | 'n' :: rest => (Text.behind? ['u', 'l', 'l'] rest).map (.null, ·)
    | 't' :: rest => (Text.behind? ['r', 'u', 'e'] rest).map (.bool true, ·)
    | 'f' :: rest => (Text.behind? ['a', 'l', 's', 'e'] rest).map (.bool false, ·)
    | rest => readNumber? rest

/-- Reads the items of an array, one at least, and the closing bracket. -/
def readItems? : Nat → List Char → Option (List Json × List Char)
  | 0, _ => none
  | steps + 1, cs => do
    let (item, rest) ← readValue? steps cs
    match skipSpace rest with
    | ',' :: rest =>
      let (items, rest) ← readItems? steps rest
      some (item :: items, rest)
    | ']' :: rest => some ([item], rest)
    | _ => none

/-- Reads the members of an object, one at least, and the closing brace. -/
def readMembers? : Nat → List Char → Option (List (String × Json) × List Char)
  | 0, _ => none
  | steps + 1, cs => do
    let (key, rest) ← readString? (skipSpace cs)
    let rest ← Text.behind? [':'] (skipSpace rest)
    let (value, rest) ← readValue? steps rest
    match skipSpace rest with
    | ',' :: rest =>
      let (members, rest) ← readMembers? steps rest
      some ((key, value) :: members, rest)
    | '}' :: rest => some ([(key, value)], rest)
    | _ => none

end

/-- The value that a text denotes, when the grammar admits the text. -/
def parse? (text : String) : Option Json := do
  let cs := text.toList
  let (value, rest) ← readValue? (2 * cs.length + 1) cs
  if (skipSpace rest).isEmpty then some value else none

end Unreferenced.Json
