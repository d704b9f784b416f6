import Unreferenced.Text.Digits
import Unreferenced.Text.Table.Unprintable

/-!
# Quoted names in messages

A name that appears in a message is put between quotes, and everything that would not
show as itself is escaped: quotes and backslashes, the common controls by letter, all
else that does not print by its number in hexadecimal.
-/

namespace Unreferenced.Text

/-- One character of a quoted name. -/
def quoteChar (c : Char) : List Char :=
  if c = '\x00' then ['\\', '0']
  else if c = '\t' then ['\\', 't']
  else if c = '\n' then ['\\', 'n']
  else if c = '\r' then ['\\', 'r']
  else if c = '\\' || c = '\x22' then ['\\', c]
  else if unprintableRanges.has c then ['\\', 'u', '{'] ++ hexDigits c.toNat ++ ['}']
  else [c]

/-- A name between quotes, with its escapes. -/
def quoted (name : String) : String :=
  String.ofList (['\x22'] ++ name.toList.flatMap quoteChar ++ ['\x22'])

end Unreferenced.Text
