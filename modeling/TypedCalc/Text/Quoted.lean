import TypedCalc.Text.Numeral
import TypedCalc.Text.Printable

/-!
# Quoted strings in messages

A string in a message stands between single quotes, or between double quotes when it holds a
single quote and no double one.  The quote in use and the backslash are escaped, line ends and
tabs have short escapes, and every other character that does not print is written by its number
in two, four or eight hexadecimal digits.
-/

namespace TypedCalc.Text

/-- A character inside quotes. -/
def quoteChar (quote c : Char) : List Char :=
  if c = quote ∨ c = '\\' then ['\\', c]
  else if c = '\n' then ['\\', 'n']
  else if c = '\r' then ['\\', 'r']
  else if c = '\t' then ['\\', 't']
  else if isPrintable c then [c]
  else if c.toNat < 0x100 then ['\\', 'x'] ++ Numeral.writePadded 16 2 c.toNat
  else if c.toNat < 0x10000 then ['\\', 'u'] ++ Numeral.writePadded 16 4 c.toNat
  else ['\\', 'U'] ++ Numeral.writePadded 16 8 c.toNat

/-- The quote that surrounds a string. -/
def quoteFor (cs : List Char) : Char :=
  if cs.contains '\'' && !cs.contains '"' then '"' else '\''

/-- A string between quotes. -/
def quote (text : String) : String :=
  let mark := quoteFor text.toList
  String.ofList (mark :: (text.toList.flatMap (quoteChar mark) ++ [mark]))

end TypedCalc.Text
