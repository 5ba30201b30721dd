import TypedCalc.Report
import TypedCalc.Text.Blank
import TypedCalc.Token.Basic

/-!
# Faults of expressions

Why tokens can fail to form an expression, and how each failure reads.  An opening parenthesis
that is still open is remembered as a frame, which says where it is, what it belongs to and how
the text goes on from there.
-/

namespace TypedCalc

/-- What an opening parenthesis belongs to. -/
inductive Opening
  /-- A parenthesized expression. -/
  | group
  /-- The arguments of a function. -/
  | call (name : String)
  deriving DecidableEq, Repr

/-- An opening parenthesis that is not closed yet. -/
structure Frame where
  /-- Where it is. -/
  position : Nat
  /-- What it belongs to. -/
  opening : Opening
  /-- How the text goes on. -/
  snippet : String
  deriving DecidableEq, Repr

/-- A reason why tokens do not form an expression. -/
inductive GrammarFault
  /-- There is nothing but the end of the text. -/
  | emptyExpression
  /-- A closing parenthesis follows a complete expression. -/
  | unmatchedClose
  /-- A token follows a complete expression. -/
  | trailingToken (found : TokenKind)
  /-- Parentheses, calls and prefix operators are nested more deeply than allowed. -/
  | tooDeep (limit : Int)
  /-- The interpreter has no room for another call of the parser. -/
  | stackExhausted (limit : Int)
  /-- Something other than a closing parenthesis stands at the end of a group or call. -/
  | missingClose (found : TokenKind) (opened : Nat)
  /-- The text ends before all parentheses are closed; the frames are those still open, the
  innermost first. -/
  | unclosed (frames : List Frame)
  /-- An argument of a call is missing. -/
  | emptyArgument (name : String) (found : TokenKind)
  /-- The text ends where an operand should be. -/
  | unexpectedEnd
  /-- A closing parenthesis stands where an operand should be. -/
  | unexpectedClose
  /-- Another token stands where an operand should be. -/
  | unexpectedToken (found : TokenKind)
  /-- A parenthesis is to be closed and none is open, which is a defect of the reader. -/
  | noOpenParen
  deriving DecidableEq

/-- A fault and its place in the text. -/
structure GrammarError where
  /-- What is wrong. -/
  fault : GrammarFault
  /-- Where. -/
  position : Nat
  deriving DecidableEq

/-- The label of a frame in messages. -/
def Opening.label : Opening → String
  | .group => "parenthesized expression"
  | .call name => "call to " ++ name

/-- The number of characters of a text that a snippet shows. -/
def snippetLength : Nat := 30

/-- The text from a position on, with single spaces between words and cut off after
`snippetLength` characters. -/
def snippetAt (text : List Char) (position : Nat) : String :=
  let rest := text.drop position
  let shown := Text.squeeze (rest.take snippetLength)
  String.ofList (if snippetLength < rest.length then shown ++ ['.', '.', '.'] else shown)

namespace GrammarFault

/-- The numbered lines that list open parentheses. -/
def frameLines (frames : List Frame) : List String :=
  (frames.zipIdx 1).map fun entry =>
    "  " ++ toString entry.2 ++ ". " ++ entry.1.opening.label ++ " at position " ++
      toString entry.1.position ++ ": " ++ entry.1.snippet

/-- The report on parentheses that are still open, the innermost first. -/
def unclosedReport (frames : List Frame) : Report :=
  let count := frames.length
  let word := if count = 1 then "parenthesis" else "parentheses"
  let closing := String.intercalate " " (List.replicate count ")")
  { errorClass := .grammar
    message := "Unmatched opening parenthesis - missing " ++ toString count ++ " closing " ++ word
    received := "Reached end of input"
    expected := "Add \"" ++ closing ++ "\" to close all groups"
    illustration := "Correct: (1 + 2) * 3\nIncorrect: (1 + 2 * 3"
    suggestion := "Add " ++ toString count ++ " closing " ++ word ++ ": " ++ closing
    context := "Unclosed parentheses:\n" ++
      String.intercalate "\n" (frameLines frames.reverse) }

/-- What an operand can start with. -/
def operandStarts : String := "A number, name, '$N', '(' or a prefix operator"

/-- The wording of a fault. -/
def report (fault : GrammarFault) (wording : LimitWording := {}) : Report :=
  match fault with
  | .emptyExpression => {
      errorClass := .grammar
      message := "Empty expression"
      expected := "A numeric expression"
      illustration := "42 or (1 + 2) * 3 or sqrt(2)"
      suggestion := "Provide a complete expression to evaluate"
      context := "Expression cannot be empty or contain only whitespace" }
  | .unmatchedClose => {
      errorClass := .grammar
      message := "Unmatched closing parenthesis"
      received := "Found: ')'"
      expected := "End of expression"
      illustration := "Correct: (1 + 2) * 3\nIncorrect: 1 + 2) * 3"
      suggestion := "Remove the extra ')' or add a matching '('" }
  | .trailingToken found => {
      errorClass := .grammar
      message := "Unexpected token after complete expression"
      received := "Found: " ++ found.describe
      expected := "An operator or end of expression"
      illustration := "Correct: 2 * 3\nIncorrect: 2 3"
      suggestion := "Add an operator between the values or remove the extra tokens"
      context := "Each evaluation can only handle one complete expression" }
  | .tooDeep limit => {
      errorClass := .grammar
      message := "Expression too deeply nested (max depth: " ++ wording.nesting limit ++ ")"
      expected := "At most " ++ wording.nesting limit ++
        " levels of parentheses, calls or prefix operators"
      suggestion := "Simplify the expression or increase max_depth" }
  | .stackExhausted limit => {
      errorClass := .grammar
      message := "Expression too deeply nested to parse"
      expected := "Fewer levels of parentheses, calls or prefix operators"
      suggestion := "Simplify the expression or lower max_depth (currently " ++
        wording.nesting limit ++ ")" }
  | .missingClose found opened => {
      errorClass := .grammar
      message := "Expected ')'"
      received := "Found: " ++ found.describe
      expected := "')' or an operator"
      illustration := "Correct: (1 + 2) * 3, max(1, 2)\nIncorrect: (1 2), max(1 2)"
      suggestion := "Separate function arguments with ',' and join values with an operator"
      context := "Inside the parenthesis opened at position " ++ toString opened }
  | .unclosed frames => unclosedReport frames
  | .emptyArgument name found => {
      errorClass := .grammar
      message := "Empty argument in call to " ++ name
      received := "Found: " ++ found.describe
      expected := "An expression before each ',' and before ')' after a ','"
      illustration := "Correct: max(1, 2)\nIncorrect: max(1,), max(,2)"
      suggestion := "Remove the stray ',' or add the missing argument" }
  | .unexpectedEnd => {
      errorClass := .grammar
      message := "Unexpected end of expression"
      received := "Reached end of input"
      expected := operandStarts
      illustration := "Correct: 1 + 2\nIncorrect: 1 +"
      suggestion := "Complete the expression after the last operator" }
  | .unexpectedClose => {
      errorClass := .grammar
      message := "Unexpected ')'"
      received := "Found: ')'"
      expected := operandStarts
      illustration := "Correct: (1 + 2)\nIncorrect: (), (1 + )"
      suggestion := "Parentheses must contain an expression" }
  | .unexpectedToken found => {
      errorClass := .grammar
      message := "Unexpected token: " ++ found.describe
      received := "Token: " ++ found.describe ++ " (type: " ++ found.sortName ++ ")"
      expected := operandStarts
      illustration := "Valid starts: 42, 0xFF, PI, sqrt(2), $0, (, -"
      suggestion := "Binary operators need a value on both sides"
      context := found.describe ++ " cannot start an operand" }
  | .noOpenParen => {
      errorClass := .general
      message := "Paren stack underflow - trying to pop from empty stack" }

end GrammarFault

/-- The report on an error, with its place. -/
def GrammarError.report (error : GrammarError) (wording : LimitWording := {}) : Report :=
  (error.fault.report wording).atPosition error.position

end TypedCalc
