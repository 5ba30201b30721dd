import TypedCalc.Report
import TypedCalc.Token.Basic

/-!
# Faults of texts

Why a text can fail to fall into tokens, and how each failure reads.
-/

namespace TypedCalc

/-- A reason why no token can be read. -/
inductive LexicalFault
  /-- A radix is announced and no digit of it follows. -/
  | missingDigits (radix : Radix) (literal : String)
  /-- A decimal point is not followed by a digit. -/
  | missingFraction (literal : String)
  /-- A number is followed by a suffix that no unit has. -/
  | unknownSuffix (suffix : String)
  /-- An integer does not fit the type of literals. -/
  | integerTooLarge (number : Nat)
  /-- A number runs into characters that cannot follow it. -/
  | malformedNumber (literal : String) (offender : Char) (offenderPosition : Nat)
  /-- A dollar sign is not followed by a digit. -/
  | missingHistoryIndex (found : String)
  /-- The index of a history reference starts with a zero. -/
  | leadingZeros (digits : List Char)
  /-- A history reference runs into a character that cannot follow it. -/
  | malformedHistory (reference : String) (offender : Char)
  /-- A control character that separates nothing. -/
  | controlCharacter (c : Char)
  /-- A character that no token starts with. -/
  | invalidCharacter (c : Char)
  /-- There are more decimal digits than the interpreter converts into a number. -/
  | tooManyDigits (limit count : Nat)
  /-- The number of an error has more decimal digits than the interpreter writes. -/
  | tooManyDigitsToWrite (limit : Nat)
  deriving DecidableEq

/-- A fault and the index of the character where it was noticed. -/
structure LexicalError where
  /-- What is wrong. -/
  fault : LexicalFault
  /-- Where. -/
  position : Nat
  deriving DecidableEq

namespace LexicalFault

/-- Whether the interpreter refuses to convert a number, which is no error of the calculator. -/
def isConversion : LexicalFault → Bool
  | .tooManyDigits .. | .tooManyDigitsToWrite .. => true
  | _ => false

/-- What to do about a character that no token starts with. -/
def advice (c : Char) : String :=
  match c with
  | '°' => "Temperature suffixes must follow a number directly: 100°F, not 100 °F"
  | '.' => "Decimal points must be followed by digits: .5 or 0.5"
  | '=' => "Use == to compare values"
  | '[' | ']' => "Use parentheses ( ) for grouping, not brackets [ ]"
  | '{' | '}' => "Use parentheses ( ) for grouping, not braces \x7b \x7d"
  | c => "'" ++ c.toString ++ "' is not a valid character in an expression"

/-- What the interpreter says about its limit of digits. -/
def digitLimit (limit : Nat) : String :=
  "Exceeds the limit (" ++ toString limit ++ " digits) for integer string conversion"

/-- What the interpreter says is to be done about its limit of digits. -/
def digitAdvice : String := "use sys.set_int_max_str_digits() to increase the limit"

/-- The wording of a fault. -/
def report : LexicalFault → Report
  | .missingDigits radix literal => {
      errorClass := .lexical
      message := "Expected digit in " ++ radix.name ++ " literal"
      received := "Literal: " ++ literal
      expected := "At least one " ++ radix.name ++ " digit after '0" ++
        radix.letter.toString ++ "'"
      illustration := "Valid: 0xFF, 0o755, 0b1010"
      suggestion := "Add " ++ radix.name ++ " digits after the prefix" }
  | .missingFraction literal => {
      errorClass := .lexical
      message := "Expected digit in float literal"
      received := "Literal: " ++ literal
      expected := "At least one digit after the decimal point"
      illustration := "Valid: 1.5, 0.25, .5\nInvalid: 1., 2.x"
      suggestion := "Add digits after the decimal point" }
  | .unknownSuffix suffix => {
      errorClass := .lexical
      message := "Unknown unit suffix: " ++ suffix
      received := "Suffix: " ++ suffix
      expected := "One of B K M G T P ° °C °F °K" }
  | .integerTooLarge number => {
      errorClass := .lexical
      message := "Integer literal too large"
      received := "Value: " ++ toString number
      expected := "At most " ++ toString FixedInt.literalType.maximum ++ " (" ++
        FixedInt.literalType.name ++ ")"
      suggestion := "Use a float literal such as 18446744073709551616.0 for larger magnitudes" }
  | .malformedNumber literal offender offenderPosition => {
      errorClass := .lexical
      message := "Invalid numeric literal: " ++ literal
      received := "Malformed number token: " ++ literal
      expected := "Digits, optionally followed by one unit suffix: B K M G T P ° °C °F °K"
      illustration := "Valid: 42, 1.5, 0xFF, 4K, 100°F\nInvalid: 12abc, 1.2.3, 4KB"
      suggestion := "Unexpected character '" ++ offender.toString ++ "' at position " ++
        toString offenderPosition
      context :=
        "Numbers may only be followed by an operator, a parenthesis, a comma or whitespace" }
  | .missingHistoryIndex found => {
      errorClass := .lexical
      message := "Expected digit after '$'"
      received := "Found: " ++ found
      expected := "History reference: $ followed by digits"
      illustration := "Valid: $0 (most recent result), $1, $2"
      suggestion := "Use $0 to refer to the previous result" }
  | .leadingZeros digits => {
      errorClass := .lexical
      message := "Invalid history reference: $" ++ String.ofList digits
      received := "Reference: $" ++ String.ofList digits
      expected := "No leading zeros"
      illustration := "Valid: $" ++ toString (Numeral.read 10 digits)
      suggestion := "Remove the leading zeros" }
  | .malformedHistory reference offender => {
      errorClass := .lexical
      message := "Invalid character in history reference: " ++ offender.toString
      received := "Reference: " ++ reference
      expected := "Only digits after '$'"
      illustration := "Valid: $0, $3" }
  | .controlCharacter c =>
    let shown := "\\u" ++ String.ofList (Numeral.writePadded 16 4 c.toNat)
    { errorClass := .lexical
      message := "Invalid control character in expression: " ++ shown
      received := "Control character: " ++ shown ++ " (code " ++ toString c.toNat ++ ")"
      expected := "Numbers, names, operators, parentheses or commas"
      suggestion := "Remove the control character" }
  | .invalidCharacter c => {
      errorClass := .lexical
      message := "Invalid character: " ++ c.toString
      received := "Character: " ++ c.toString ++ " (code " ++ toString c.toNat ++ ")"
      expected := "Numbers, names, operators, parentheses or commas"
      illustration := "Valid: (1 + 2) * 3, sin(PI / 2), 4K + 512B, $0 * 2"
      suggestion := advice c }
  | .tooManyDigits limit count => {
      errorClass := .conversion
      message := digitLimit limit ++ ": value has " ++ toString count ++ " digits; " ++
        digitAdvice }
  | .tooManyDigitsToWrite limit => {
      errorClass := .conversion
      message := digitLimit limit ++ "; " ++ digitAdvice }

end LexicalFault

/-- The report on an error, with its place.  What the interpreter says has none. -/
def LexicalError.report (error : LexicalError) : Report :=
  if error.fault.isConversion then error.fault.report
  else error.fault.report.atPosition error.position

theorem LexicalError.message_report (error : LexicalError) :
    error.report.message = error.fault.report.message := by
  unfold report
  split <;> rfl

theorem LexicalError.errorClass_report (error : LexicalError) :
    error.report.errorClass = error.fault.report.errorClass := by
  unfold report
  split <;> rfl

theorem LexicalError.report_of_not_isConversion {error : LexicalError}
    (h : error.fault.isConversion = false) :
    error.report = error.fault.report.atPosition error.position := by
  rw [report, h, if_neg Bool.false_ne_true]

end TypedCalc
