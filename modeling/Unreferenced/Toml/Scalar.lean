import Unreferenced.Text.Digits
import Unreferenced.Text.Search
import Unreferenced.Toml.Value

/-!
# Scalars of TOML text

Strings in their four forms, numbers, truth values and moments. A reader takes the
characters from where the scalar starts and answers with the value and the characters
behind it, or with nothing when there is no such scalar; what may follow a scalar is
checked by those who call for one.
-/

namespace Unreferenced.Toml

/-- Whether a character is white space within a line. -/
def isSpace (c : Char) : Bool :=
  c == ' ' || c == '\t'

/-- Whether a character may stand in comments and strings: no control but the tab. -/
def isVisible (c : Char) : Bool :=
  c == '\t' || (0x20 ≤ c.toNat && c.toNat ≠ 0x7f)

/-- What follows a line break at the start of the characters. -/
def behindNewline? : List Char → Option (List Char)
  | '\n' :: rest => some rest
  | '\r' :: '\n' :: rest => some rest
  | _ => none

/-! ### Strings -/

/-- Reads the character whose code point is written in so many hexadecimal digits. -/
def readCode (count : Nat) (cs : List Char) : Option (Char × List Char) := do
  let digits := cs.take count
  if digits.length < count then none
  else (Text.charOfCode? (← Text.hexNumber? digits)).map (·, cs.drop count)

/-- Reads an escape from behind its backslash. -/
def readEscape : List Char → Option (Char × List Char)
  | 'b' :: rest => some ('\x08', rest)
  | 't' :: rest => some ('\t', rest)
  | 'n' :: rest => some ('\n', rest)
  | 'f' :: rest => some ('\x0c', rest)
  | 'r' :: rest => some ('\r', rest)
  | '\x22' :: rest => some ('\x22', rest)
  | '\\' :: rest => some ('\\', rest)
  | 'u' :: rest => readCode 4 rest
  | 'U' :: rest => readCode 8 rest
  | _ => none

/-- Reads a string on one line from behind its opening quote, after the given text. Only
between double quotes are there escapes. -/
def readLine (quote : Char) : Nat → List Char → List Char → Option (List Char × List Char)
  | 0, _, _ => none
  | fuel + 1, text, cs =>
    match cs with
    | [] => none
    | c :: rest =>
      if c == quote then some (text, rest)
      else if c == '\\' && quote == '\x22' then do
        let (value, rest) ← readEscape rest
        readLine quote fuel (text ++ [value]) rest
      else if isVisible c then readLine quote fuel (text ++ [c]) rest
      else none

/-- The characters behind a backslash that ends its line: all white space and line breaks
are passed over, of which there has to be a line break after no more than spaces. -/
def behindLineEnd? (cs : List Char) : Option (List Char) :=
  (behindNewline? (cs.dropWhile isSpace)).map skipLines
where
  skipLines : List Char → List Char
  | '\r' :: '\n' :: rest => skipLines rest
  | c :: rest => if isSpace c || c == '\n' then skipLines rest else c :: rest
  | [] => []

/-- Reads a string over several lines from behind its opening quotes, after the given
text. Line breaks become line feeds; up to two quotes may stand before the closing
three. -/
def readLines (quote : Char) : Nat → List Char → List Char → Option (List Char × List Char)
  | 0, _, _ => none
  | fuel + 1, text, cs =>
    match cs with
    | [] => none
    | c :: rest =>
      if c == quote then
        let quotes := (cs.takeWhile (· == quote)).length
        if quotes < 3 then readLines quote fuel (text ++ [c]) rest
        else
          let inner := min (quotes - 3) 2
          some (text ++ List.replicate inner quote, cs.drop (inner + 3))
      else if c == '\\' && quote == '\x22' then
        match behindLineEnd? rest with
        | some rest => readLines quote fuel text rest
        | none => do
          let (value, rest) ← readEscape rest
          readLines quote fuel (text ++ [value]) rest
      else
        match behindNewline? cs with
        | some rest => readLines quote fuel (text ++ ['\n']) rest
        | none => if isVisible c then readLines quote fuel (text ++ [c]) rest else none

/-- Reads a string in the given quotes, in either of their two forms. -/
def readQuoted (quote : Char) (cs : List Char) : Option (String × List Char) :=
  let result := match Text.behind? [quote, quote, quote] cs with
    | some rest =>
      readLines quote (cs.length + 1) [] ((behindNewline? rest).getD rest)
    | none => (Text.behind? [quote] cs).bind (readLine quote (cs.length + 1) [])
  result.map fun (text, rest) => (String.ofList text, rest)

/-! ### Numbers -/

/-- Reads digits, between which single underscores may stand. -/
def readDigits (isDigit : Char → Bool) : List Char → Option (List Char × List Char)
  | [] => none
  | [c] => if isDigit c then some ([c], []) else none
  | c :: '_' :: rest =>
    if isDigit c then (readDigits isDigit rest).map fun (digits, rest) => (c :: digits, rest)
    else none
  | c :: d :: rest =>
    if isDigit c then
      match readDigits isDigit (d :: rest) with
      | some (digits, rest) => some (c :: digits, rest)
      | none => if isDigit d then none else some ([c], d :: rest)
    else none

/-- Reads a sign: whether it is a minus, and what follows. -/
def readSign : List Char → Bool × List Char
  | '-' :: rest => (true, rest)
  | '+' :: rest => (false, rest)
  | cs => (false, cs)

/-- Reads the digits of a decimal integer, without leading zeros. -/
def readWhole (cs : List Char) : Option (List Char × List Char) :=
  match cs with
  | '0' :: rest => some (['0'], rest)
  | _ => readDigits Char.isDigit cs

/-- The least number that is too large for an integer. -/
def integerBound : Nat := 0x8000000000000000

/-- Reads an integer in one of the bases written by a letter. -/
def readBased (mark : Char) (base : Nat) (isDigit : Char → Bool) (cs : List Char) :
    Option (List Char) := do
  let (digits, rest) ← readDigits isDigit (← Text.behind? ['0', mark] cs)
  if Text.digitsValue base digits < integerBound then some rest else none

/-- Reads a decimal integer. -/
def readDecimal (cs : List Char) : Option (List Char) := do
  let (negative, cs) := readSign cs
  let (digits, rest) ← readWhole cs
  let value := Text.digitsValue 10 digits
  if value < integerBound || (negative && value = integerBound) then some rest else none

/-- Reads an integer. -/
def readInteger (cs : List Char) : Option (List Char) :=
  match cs with
  | '0' :: 'x' :: _ => readBased 'x' 16 (fun c => (Text.hexValue? c).isSome) cs
  | '0' :: 'o' :: _ => readBased 'o' 8 (fun c => '0' ≤ c && c ≤ '7') cs
  | '0' :: 'b' :: _ => readBased 'b' 2 (fun c => c == '0' || c == '1') cs
  | _ => readDecimal cs

/-- Reads the exponent of a float: its sign and its digits. -/
def readExponent (cs : List Char) : Option (Bool × List Char × List Char) :=
  match cs with
  | c :: rest =>
    if c == 'e' || c == 'E' then do
      let (negative, rest) := readSign rest
      let (digits, rest) ← readDigits Char.isDigit rest
      some (negative, digits, rest)
    else none
  | [] => none

/-- Reads the fraction of a float. -/
def readFraction (cs : List Char) : Option (List Char × List Char) :=
  (Text.behind? ['.'] cs).bind (readDigits Char.isDigit)

/-- The least number that is too large for a float: halfway from the greatest float to
the next power of two. -/
def floatBound : Nat := Nat.pow 2 1024 - Nat.pow 2 970

/-- Whether `mantissa * 10 ^ (raise - lower)` reaches the bound of floats. An exponent
far from the number of digits decides without the power. -/
def exceedsFloat (mantissa raise lower : Nat) : Bool :=
  let digits := (Nat.toDigits 10 mantissa).length
  if mantissa = 0 then false
  else if digits + raise < lower + 300 then false
  else if lower + 320 < digits + raise then true
  else if lower ≤ raise then floatBound ≤ mantissa * Nat.pow 10 (raise - lower)
  else floatBound * Nat.pow 10 (lower - raise) ≤ mantissa

/-- Reads a float with a fraction or an exponent. Positive ones have to stay below the
bound of floats. -/
def readDecimalFloat (cs : List Char) : Option (List Char) := do
  let (negative, cs) := readSign cs
  let (whole, cs) ← readWhole cs
  let (fraction, cs, hasFraction) :=
    match readFraction cs with
    | some (fraction, rest) => (fraction, rest, true)
    | none => ([], cs, false)
  let mantissa := Text.digitsValue 10 (whole ++ fraction)
  match readExponent cs with
  | some (negativeExponent, digits, rest) =>
    let exponent := Text.digitsValue 10 digits
    let raise := if negativeExponent then 0 else exponent
    let lower := fraction.length + if negativeExponent then exponent else 0
    if !negative && exceedsFloat mantissa raise lower then none else some rest
  | none =>
    if !hasFraction || (!negative && exceedsFloat mantissa 0 fraction.length) then none
    else some cs

/-- Reads a float that is no number or not finite. -/
def readSpecialFloat (cs : List Char) : Option (List Char) :=
  let (_, cs) := readSign cs
  (Text.behind? ['i', 'n', 'f'] cs).or (Text.behind? ['n', 'a', 'n'] cs)

/-! ### Moments -/

/-- Reads a number of exactly so many digits that lies between bounds. -/
def readBetween (count least greatest : Nat) (cs : List Char) : Option (Nat × List Char) :=
  let digits := cs.take count
  let value := Text.digitsValue 10 digits
  if digits.length = count && digits.all Char.isDigit && least ≤ value && value ≤ greatest then
    some (value, cs.drop count)
  else none

/-- The number of days in a month. -/
def daysIn (year month : Nat) : Nat :=
  if month = 2 then
    if year % 4 = 0 && (year % 100 ≠ 0 || year % 400 = 0) then 29 else 28
  else if month = 4 || month = 6 || month = 9 || month = 11 then 30
  else 31

/-- Reads a date. -/
def readDate (cs : List Char) : Option (List Char) := do
  let (year, cs) ← readBetween 4 0 9999 cs
  let (month, cs) ← readBetween 2 1 12 (← Text.behind? ['-'] cs)
  let (_, cs) ← readBetween 2 1 (daysIn year month) (← Text.behind? ['-'] cs)
  some cs

/-- Reads a time of day. -/
def readTime (cs : List Char) : Option (List Char) := do
  let (_, cs) ← readBetween 2 0 23 cs
  let (_, cs) ← readBetween 2 0 59 (← Text.behind? [':'] cs)
  let (_, cs) ← readBetween 2 0 60 (← Text.behind? [':'] cs)
  match Text.behind? ['.'] cs with
  | some fraction =>
    let digits := fraction.takeWhile Char.isDigit
    some (if digits.isEmpty then cs else fraction.drop digits.length)
  | none => some cs

/-- Reads an offset from universal time. -/
def readOffset (cs : List Char) : Option (List Char) :=
  match cs with
  | c :: rest =>
    if c == 'Z' || c == 'z' then some rest
    else if c == '+' || c == '-' then do
      let (_, rest) ← readBetween 2 0 23 rest
      let (_, rest) ← readBetween 2 0 59 (← Text.behind? [':'] rest)
      some rest
    else none
  | [] => none

/-- Reads a date with or without a time, or a time alone. -/
def readMoment (cs : List Char) : Option (List Char) :=
  match readDate cs with
  | some behindDate =>
    let time? : Option (List Char) :=
      match behindDate with
      | c :: rest => if c == 'T' || c == 't' || c == ' ' then readTime rest else none
      | [] => none
    match time? with
    | some behindTime => some ((readOffset behindTime).getD behindTime)
    | none => some behindDate
  | none => readTime cs

/-! ### Any scalar -/

/-- Reads a scalar. -/
def readScalar (cs : List Char) : Option (Value × List Char) :=
  match cs with
  | [] => none
  | c :: _ =>
    if c == '\x22' || c == '\x27' then
      (readQuoted c cs).map fun (text, rest) => (.string text, rest)
    else
      let truth := fun (word : String) (value : Bool) =>
        (Text.behind? word.toList cs).map fun rest => (Value.boolean value, rest)
      let moment := (readMoment cs).map fun rest => (Value.moment, rest)
      let number := (((readDecimalFloat cs).or (readSpecialFloat cs)).or (readInteger cs)).map
        fun rest => (Value.number, rest)
      (((truth "true" true).or (truth "false" false)).or moment).or number

end Unreferenced.Toml
