/-!
# Styled text for terminals

A line is made of spans, each in one style or in none. Written plainly it is the
concatenation of its texts. Written in colour, each styled span stands between the
opening of its style and a reset; a text that itself contains a reset gets the style
opened again behind it, so that the rest of the span keeps its style.
-/

namespace Unreferenced

/-- A style of a span. -/
inductive Style where
  /-- Faint. -/
  | dimmed
  /-- Bold. -/
  | bold
  /-- Green, for good news. -/
  | green
  /-- Yellow, for findings. -/
  | yellow
  /-- White, for names. -/
  | white
  /-- Bold cyan, for headings. -/
  | heading
deriving DecidableEq, Inhabited, Repr

/-- The parameters that select a style. -/
def Style.parameters : Style → List Char
  | .dimmed => ['2']
  | .bold => ['1']
  | .green => ['3', '2']
  | .yellow => ['3', '3']
  | .white => ['3', '7']
  | .heading => ['1', ';', '3', '6']

/-- The sequence that opens a style. -/
def Style.opening (style : Style) : List Char :=
  ['\x1b', '['] ++ style.parameters ++ ['m']

/-- The sequence that ends any style. -/
def styleReset : List Char :=
  ['\x1b', '[', '0', 'm']

/-- A text with an opening put behind each reset in it. -/
def reopen (opening : List Char) : List Char → List Char
  | '\x1b' :: '[' :: '0' :: 'm' :: rest => styleReset ++ opening ++ reopen opening rest
  | c :: rest => c :: reopen opening rest
  | [] => []

/-- A stretch of text in one style or in none. -/
structure Span where
  /-- The style. -/
  style? : Option Style
  /-- The text. -/
  text : String
deriving DecidableEq, Inhabited, Repr

/-- A stretch in a style. -/
def styled (style : Style) (text : String) : Span :=
  ⟨some style, text⟩

/-- A stretch in no style. -/
def unstyled (text : String) : Span :=
  ⟨none, text⟩

/-- A stretch as it is written, in colour or plainly. -/
def Span.write (coloured : Bool) (span : Span) : List Char :=
  match coloured, span.style? with
  | true, some style => style.opening ++ reopen style.opening span.text.toList ++ styleReset
  | _, _ => span.text.toList

/-- A line of styled text. -/
abbrev StyledLine := List Span

/-- A line as it is written, with its line break. -/
def StyledLine.write (coloured : Bool) (line : StyledLine) : List Char :=
  line.flatMap (Span.write coloured) ++ ['\n']

/-- Several lines as they are written. -/
def writeLines (coloured : Bool) (lines : List StyledLine) : String :=
  String.ofList (lines.flatMap (StyledLine.write coloured))

end Unreferenced
