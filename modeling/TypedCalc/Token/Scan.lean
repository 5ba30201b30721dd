import TypedCalc.Text.Blank
import TypedCalc.Token.Fault
import TypedCalc.Value.Cast

/-!
# From text to tokens

A text is read from left to right.  Blanks are passed over; any other character starts a token,
which takes in as many characters as it can.  A number swallows the whole run of characters that
could belong to it, so it is followed by none of them: a run that is not a number as a whole is an
error and never two tokens.

* `Token.readOne` reads the one token that starts at a character.
* `Token.scan` reads a whole text and keeps the tokens before the first error.
* `Token.ofText?` is the list of all tokens, the end of the text included, or the first error.

An interpreter can have a limit for the decimal digits of a whole number that it converts.  What it
says about a longer number ends the reading as well, and is none of the errors of a text.
-/

namespace TypedCalc.Token

/-- A token that was read and the number of characters it takes up. -/
structure Lexeme where
  /-- What the token says. -/
  kind : TokenKind
  /-- The number of its characters. -/
  length : Nat
  deriving DecidableEq

/-! ## Numbers -/

/-- Refuses a number of decimal digits above the limit of the interpreter, if there is one. -/
def checkDigits (position : Nat) (fault : Nat → LexicalFault) (count : Nat) :
    Option Nat → Except LexicalError PUnit
  | none => .ok ⟨⟩
  | some limit => if limit < count then .error ⟨fault limit, position⟩ else .ok ⟨⟩

/-- An integer literal, refused when it does not fit the type of literals.  The error says which
number it is, in decimal digits. -/
def literalInteger (position number : Nat) (limit : Option Nat := none) :
    Except LexicalError Number := do
  if FixedInt.literalType.maximum < number then
    checkDigits position .tooManyDigitsToWrite (Numeral.write 10 number).length limit
    .error ⟨.integerTooLarge number, position⟩
  else .ok (.integer (.ofInt FixedInt.literalType number))

/-- The number that a run of decimal digits denotes. -/
def convertDigits (position : Nat) (digits : List Char) (limit : Option Nat := none) :
    Except LexicalError Nat := do
  checkDigits position (.tooManyDigits · digits.length) digits.length limit
  return Numeral.read 10 digits

theorem convertDigits_none (position : Nat) (digits : List Char) :
    convertDigits position digits = .ok (Numeral.read 10 digits) := rfl

/-- The digits after `0` and the letter of a radix, with the number of characters read.  These
digits are converted however many there are. -/
def readRadixInteger (position : Nat) (radix : Radix) (cs : List Char)
    (limit : Option Nat := none) : Except LexicalError (Number × Nat) := do
  let digits := (cs.drop 2).takeWhile (Numeral.isDigitOf radix.base)
  if digits.isEmpty then
    .error ⟨.missingDigits radix (String.ofList (cs.take 3)), position⟩
  let number ← literalInteger position (Numeral.read radix.base digits) limit
  return (number, 2 + digits.length)

/-- Decimal digits with an optional fraction, with the number of characters read.  Digits with a
fraction are read as they stand, others are converted into a whole number first. -/
def readDecimal (position : Nat) (cs : List Char) (limit : Option Nat := none) :
    Except LexicalError (Number × Nat) := do
  let whole := cs.takeWhile Char.isDigit
  match cs.drop whole.length with
  | '.' :: rest =>
    let fraction := rest.takeWhile Char.isDigit
    if fraction.isEmpty then
      .error ⟨.missingFraction (String.ofList (whole ++ ['.'])), position⟩
    let decimal : Decimal := ⟨Numeral.read 10 (whole ++ fraction), -(fraction.length : Int)⟩
    return (.float (decimal.toBinary64 false), whole.length + 1 + fraction.length)
  | _ =>
    let value ← convertDigits position whole limit
    let number ← literalInteger position value limit
    return (number, whole.length)

/-- The radix announced by the first two characters. -/
def announcedRadix? : List Char → Option Radix
  | '0' :: letter :: _ => Radix.ofLetter? letter
  | _ => none

/-- A number without its suffix, with the number of characters read. -/
def readMagnitude (position : Nat) (cs : List Char) (limit : Option Nat := none) :
    Except LexicalError (Number × Nat) :=
  match announcedRadix? cs with
  | some radix => readRadixInteger position radix cs limit
  | none => readDecimal position cs limit

/-- A number with the unit whose suffix a text starts with, if it starts with one, and the length
of the suffix. -/
def readSuffix (position : Nat) (number : Number) (cs : List Char) :
    Except LexicalError (Value × Nat) :=
  let length := suffixLength cs
  if length = 0 then .ok (⟨number, none⟩, 0)
  else
    let suffix := String.ofList (cs.take length)
    match Measure.ofSuffix? suffix with
    | some unit => .ok ((Value.mk number none).attach unit, length)
    | none => .error ⟨.unknownSuffix suffix, position⟩

/-- A number with its suffix.  A character that cannot follow a number makes the whole run of
such characters malformed. -/
def readNumber (position : Nat) (cs : List Char) (limit : Option Nat := none) :
    Except LexicalError Lexeme := do
  let (number, digits) ← readMagnitude position cs limit
  let (value, suffix) ← readSuffix (position + digits) number (cs.drop digits)
  let length := digits + suffix
  match (cs.drop length).head? with
  | some c =>
    if continuesNumber c then
      let literal := cs.take length ++ (cs.drop length).takeWhile continuesNumber
      .error ⟨.malformedNumber (String.ofList literal) c (position + length), position⟩
    else return ⟨.number value, length⟩
  | none => return ⟨.number value, length⟩

/-! ## Other tokens -/

/-- A dollar sign with the index of an earlier result, which has no leading zero.  The error about
leading zeros says which number it is. -/
def readHistory (position : Nat) (cs : List Char) (limit : Option Nat := none) :
    Except LexicalError Lexeme := do
  let digits := (cs.drop 1).takeWhile Char.isDigit
  if digits.isEmpty then
    .error ⟨.missingHistoryIndex (String.ofList (cs.take 2)), position⟩
  if 1 < digits.length ∧ digits.head? = some '0' then
    let _ ← convertDigits position digits limit
    .error ⟨.leadingZeros digits, position⟩
  let length := 1 + digits.length
  match (cs.drop length).head? with
  | some c =>
    if continuesHistory c then
      .error ⟨.malformedHistory (String.ofList (cs.take (length + 1))) c, position + length⟩
    else return ⟨.history (← convertDigits position digits limit), length⟩
  | none => return ⟨.history (← convertDigits position digits limit), length⟩

/-- The name that a text starts with. -/
def readName (cs : List Char) : Lexeme :=
  let name := cs.takeWhile isNameChar
  ⟨.name (String.ofList name), name.length⟩

/-- The error about a character that no token starts with. -/
def refuse (position : Nat) (c : Char) : LexicalError :=
  ⟨if c.toNat < 32 then .controlCharacter c else .invalidCharacter c, position⟩

/-- Whether a number starts here: with a digit, or with a point and a digit. -/
def startsNumber : List Char → Bool
  | '.' :: c :: _ => c.isDigit
  | c :: _ => c.isDigit
  | [] => false

/-- The token that starts at the first character of a text, which is not blank. -/
def readOne (position : Nat) (cs : List Char) (limit : Option Nat := none) :
    Except LexicalError Lexeme :=
  match cs with
  | [] => .ok ⟨.endOfInput, 0⟩
  | c :: _ =>
    if startsNumber cs then readNumber position cs limit
    else if c = '$' then readHistory position cs limit
    else if isNameStart c then .ok (readName cs)
    else if c = '(' then .ok ⟨.openParen, 1⟩
    else if c = ')' then .ok ⟨.closeParen, 1⟩
    else if c = ',' then .ok ⟨.comma, 1⟩
    else
      match OperatorSymbol.match? cs with
      | some (symbol, length) => .ok ⟨.operator symbol, length⟩
      | none => .error (refuse position c)

/-! ## Whole texts -/

/-- The tokens of a text up to its end or up to the first error. -/
structure Scan where
  /-- The tokens, the end of the text included if it was reached. -/
  tokens : List Token
  /-- The error that ended the scan, if any. -/
  failure : Option LexicalError
  deriving DecidableEq

/-- Reads a text from a position on; the first `skip` characters belong to the token before. -/
def scanFrom (position skip : Nat) (cs : List Char) (limit : Option Nat := none) : Scan :=
  match cs with
  | [] => ⟨[⟨.endOfInput, position, 0⟩], none⟩
  | c :: rest =>
    match skip with
    | skip + 1 => scanFrom (position + 1) skip rest limit
    | 0 =>
      if Text.isBlank c then scanFrom (position + 1) 0 rest limit
      else
        match readOne position (c :: rest) limit with
        | .error error => ⟨[], some error⟩
        | .ok lexeme =>
          let more := scanFrom (position + 1) (lexeme.length - 1) rest limit
          ⟨⟨lexeme.kind, position, lexeme.length⟩ :: more.tokens, more.failure⟩

/-- The tokens of a text up to its end or up to the first error. -/
def scan (text : String) (limit : Option Nat := none) : Scan := scanFrom 0 0 text.toList limit

/-- All tokens of a text, or the first error. -/
def ofText? (text : String) (limit : Option Nat := none) : Except LexicalError (List Token) :=
  let result := scan text limit
  match result.failure with
  | some error => .error error
  | none => .ok result.tokens

end TypedCalc.Token
