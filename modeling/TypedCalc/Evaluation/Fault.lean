import TypedCalc.Operand.Fault
import TypedCalc.Registry.Basic

/-!
# Faults of evaluation

Why an expression can fail to have a value, and how each failure reads.
-/

namespace TypedCalc

/-- A reason why an expression has no value. -/
inductive EvaluationFault
  /-- An operator or a function refuses its operands. -/
  | operand (fault : OperandFault)
  /-- A function is broken, with a text that says how. -/
  | brokenFunction (name text : String)
  /-- There is no result that many steps back. -/
  | historyOutOfRange (index size capacity : Nat)
  /-- A function is named without arguments. -/
  | functionAsConstant (name : String)
  /-- No constant has this name. -/
  | unknownConstant (name : String) (similar : List String)
  /-- A constant is called. -/
  | constantAsFunction (name call : String)
  /-- No function has this name. -/
  | unknownFunction (name call : String) (similar : List String)
  /-- A function is called with the wrong number of arguments. -/
  | wrongArity (name call : String) (arity given : Nat)
  /-- The tree is deeper than allowed. -/
  | tooDeep (limit : Int)
  /-- The interpreter has no room for another call of the evaluator. -/
  | stackExhausted
  deriving DecidableEq

/-- A fault and its place in the text. -/
structure EvaluationError where
  /-- What is wrong. -/
  fault : EvaluationFault
  /-- Where. -/
  position : Nat
  deriving DecidableEq

namespace EvaluationFault

/-- A suggestion made of similar names. -/
def suggest (similar : List String) : String :=
  if similar.isEmpty then "Names are case sensitive"
  else "Did you mean: " ++ String.intercalate ", " similar ++ "?"

/-- A number of arguments in words. -/
def argumentCount (arity : Nat) : String :=
  toString arity ++ " argument" ++ (if arity = 1 then "" else "s")

/-- The advice on a fault that is not the user's. -/
def internalAdvice : String := "This is an internal error - please report this issue"

/-- The wording of a fault. -/
def report (fault : EvaluationFault) (wording : LimitWording := {}) : Report :=
  match fault with
  | .operand fault => fault.report
  | .brokenFunction name text => {
      errorClass := .evaluation
      message := "Error in built-in function '" ++ name ++ "'"
      context := text
      suggestion := internalAdvice }
  | .historyOutOfRange index size capacity =>
    let available :=
      if size = 0 then "none - the history is empty" else "$0 to $" ++ toString (size - 1)
    { errorClass := .historyRange
      message := "History reference out of range: $" ++ toString index
      received := "$" ++ toString index
      expected := "An index below " ++ toString size ++ " (available: " ++ available ++ ")"
      suggestion := "$0 is the most recent result, $1 the one before it"
      context := "The history holds " ++ toString size ++ " of at most " ++
        wording.capacity capacity ++ " results" }
  | .functionAsConstant name => {
      errorClass := .unknownName
      message := "'" ++ name ++ "' is a function, not a constant"
      received := "Bare name: " ++ name
      expected := "A call with parentheses"
      illustration := usageExample name
      suggestion := "Call it: " ++ name ++ "(...)" }
  | .unknownConstant name similar => {
      errorClass := .unknownName
      message := "Unknown constant: " ++ name
      received := "Name: " ++ name
      expected := "A built-in constant such as PI, E, INF or MAX_U8"
      suggestion := suggest similar
      context := "User-defined variables are not supported" }
  | .constantAsFunction name call => {
      errorClass := .unknownName
      message := "'" ++ name ++ "' is a constant, not a function"
      received := "Call: " ++ call
      expected := "A function name"
      suggestion := "Use the constant without parentheses: " ++ name }
  | .unknownFunction name call similar => {
      errorClass := .unknownName
      message := "Unknown function: " ++ name
      received := "Call: " ++ call
      expected := "A built-in function, cast (u8 ... i64, f64) or unit (kilobyte, celsius, ...)"
      suggestion := suggest similar
      context := "User-defined functions are not supported" }
  | .wrongArity name call arity given => {
      errorClass := .arity
      message := name ++ " takes " ++ argumentCount arity ++ ", got " ++ toString given
      received := "Call: " ++ call
      expected := argumentCount arity
      illustration := usageExample name }
  | .tooDeep limit => {
      errorClass := .evaluation
      message := "Expression too deeply nested (max depth: " ++ toString limit ++ ")"
      suggestion := "Split the calculation and use $0 to refer to the previous result"
      illustration := "First: 1 + 2 + 3, then: $0 + 4" }
  | .stackExhausted => {
      errorClass := .evaluation
      message := "Expression too deeply nested to evaluate"
      suggestion := "Split the calculation and use $0 to refer to the previous result" }

end EvaluationFault

/-- The report on an error, with its place. -/
def EvaluationError.report (error : EvaluationError) (wording : LimitWording := {}) : Report :=
  (error.fault.report wording).atPosition error.position

end TypedCalc
