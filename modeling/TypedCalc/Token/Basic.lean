import TypedCalc.Operand.Operator
import TypedCalc.Value.Basic

/-!
# Tokens

The words of an expression: numbers with their units attached, names, operator symbols,
parentheses, commas and references to earlier results.  A token remembers where it stands in the
text and how many characters it takes up.  The end of the text is a token of its own, which takes
up none.
-/

namespace TypedCalc

/-- What a token says. -/
inductive TokenKind
  /-- A number, with its unit attached. -/
  | number (value : Value)
  /-- The name of a constant or a function. -/
  | name (text : String)
  /-- An operator symbol. -/
  | operator (symbol : OperatorSymbol)
  /-- An opening parenthesis. -/
  | openParen
  /-- A closing parenthesis. -/
  | closeParen
  /-- A comma. -/
  | comma
  /-- A reference to the result that many steps back. -/
  | history (index : Nat)
  /-- The end of the text. -/
  | endOfInput
  deriving DecidableEq

/-- A token and its place in the text. -/
structure Token where
  /-- What it says. -/
  kind : TokenKind
  /-- The index of its first character. -/
  position : Nat
  /-- The number of its characters. -/
  length : Nat := 1
  deriving DecidableEq

namespace TokenKind

/-- The name of the sort of token. -/
def sortName : TokenKind → String
  | .number _ => "NUMBER"
  | .name _ => "IDENTIFIER"
  | .operator _ => "OPERATOR"
  | .openParen => "LPAREN"
  | .closeParen => "RPAREN"
  | .comma => "COMMA"
  | .history _ => "HISTORY_REF"
  | .endOfInput => "EOF"

/-- The token as messages name it. -/
def describe : TokenKind → String
  | .number value => "number " ++ value.describe
  | .name text => "'" ++ text ++ "'"
  | .operator symbol => "'" ++ symbol.text ++ "'"
  | .openParen => "'('"
  | .closeParen => "')'"
  | .comma => "','"
  | .history index => "'$" ++ toString index ++ "'"
  | .endOfInput => "end of input"

end TokenKind

/-! ## Characters of tokens -/

/-- Whether a name can start with this character: an ASCII letter or an underscore. -/
def isNameStart (c : Char) : Bool := c.isAlpha || c == '_'

/-- Whether a name can go on with this character. -/
def isNameChar (c : Char) : Bool := isNameStart c || c.isDigit

/-- Whether this character, directly after a number, would make it malformed. -/
def continuesNumber (c : Char) : Bool := isNameChar c || c == '.' || c == '°'

/-- Whether this character, directly after a history reference, would make it malformed. -/
def continuesHistory (c : Char) : Bool := isNameChar c || c == '.'

/-- A base in which an integer can be written, announced by `0` and a letter. -/
inductive Radix
  | hexadecimal | octal | binary
  deriving DecidableEq, Repr

namespace Radix

/-- The radix that a letter announces. -/
def ofLetter? : Char → Option Radix
  | 'x' => some .hexadecimal
  | 'o' => some .octal
  | 'b' => some .binary
  | _ => none

/-- The letter that announces the radix. -/
def letter : Radix → Char
  | .hexadecimal => 'x'
  | .octal => 'o'
  | .binary => 'b'

/-- The base. -/
def base : Radix → Nat
  | .hexadecimal => 16
  | .octal => 8
  | .binary => 2

/-- The word for the radix in messages. -/
def name : Radix → String
  | .hexadecimal => "hexadecimal"
  | .octal => "octal"
  | .binary => "binary"

end Radix

/-- Whether this character is the suffix of a size. -/
def isSizeSuffix (c : Char) : Bool := "BKMGTP".toList.contains c

/-- Whether this character says the scale after a degree sign. -/
def isScaleLetter (c : Char) : Bool := "CFK".toList.contains c

/-- The length of the suffix that a text starts with, zero if there is none. -/
def suffixLength : List Char → Nat
  | '°' :: c :: _ => if isScaleLetter c then 2 else 1
  | '°' :: [] => 1
  | c :: _ => if isSizeSuffix c then 1 else 0
  | [] => 0

end TypedCalc
