import Unreferenced.Styled

/-!
# Reading styled text

What a terminal makes of a text: some characters are shown, and the sequences among them
change the style of what follows. `signals` cuts a text into the two, reading nothing but
the form of a sequence, so that it says of any text what is shown and which sequences it
holds, in order.
-/

namespace Unreferenced

/-- What a terminal takes from a text at a time. -/
inductive Signal where
  /-- A character that is shown. -/
  | shown (c : Char)
  /-- A sequence with the given parameters. -/
  | sequence (parameters : List Char)
deriving DecidableEq, Inhabited, Repr

namespace Signal

/-- Whether a character can stand among the parameters of a sequence. -/
def isParameter (c : Char) : Bool :=
  c.isDigit || c == ';'

/-- The parameters of the sequence that some characters begin with. -/
def parametersAt? : List Char → Option (List Char)
  | '\x1b' :: '[' :: rest =>
    if (rest.dropWhile isParameter).head? = some 'm' then some (rest.takeWhile isParameter)
    else none
  | _ => none

/-- The signals of a text, of which the given number of characters is passed over first. -/
def after : Nat → List Char → List Signal
  | _, [] => []
  | skip + 1, _ :: rest => after skip rest
  | 0, c :: rest =>
    match parametersAt? (c :: rest) with
    | some parameters => .sequence parameters :: after (parameters.length + 2) rest
    | none => .shown c :: after 0 rest

/-- The character that a signal shows. -/
def char? : Signal → Option Char
  | .shown c => some c
  | .sequence _ => none

/-- The parameters of a signal that is a sequence. -/
def parameters? : Signal → Option (List Char)
  | .shown _ => none
  | .sequence parameters => some parameters

end Signal

/-- The signals of a text. -/
def signals (cs : List Char) : List Signal :=
  Signal.after 0 cs

/-- The characters of a text that are shown. -/
def shownText (cs : List Char) : List Char :=
  (signals cs).filterMap Signal.char?

/-- The parameters of the sequences in a text. -/
def sequencesIn (cs : List Char) : List (List Char) :=
  (signals cs).filterMap Signal.parameters?

end Unreferenced
