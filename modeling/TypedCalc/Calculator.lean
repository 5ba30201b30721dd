import TypedCalc.Evaluation.Basic
import TypedCalc.Expr.OfTokens
import TypedCalc.Registry.Builtin
import TypedCalc.Token.Scan

/-!
# The calculator

A calculator evaluates one text at a time and keeps the results.  A text that has a value becomes
the most recent result; a text that has none leaves the calculator as it was.

Each step is made on an interpreter; unless one is named, it is one in which nothing runs out.
-/

namespace TypedCalc

/-- Why a text has no value. -/
inductive CalculatorError
  /-- The text does not fall into tokens. -/
  | lexical (error : LexicalError)
  /-- The tokens do not form an expression. -/
  | grammar (error : GrammarError)
  /-- The expression has no value. -/
  | evaluation (error : EvaluationError)
  deriving DecidableEq

/-- The report on an error. -/
def CalculatorError.report (error : CalculatorError) (wording : LimitWording := {}) : Report :=
  match error with
  | .lexical error => error.report
  | .grammar error => error.report wording
  | .evaluation error => error.report wording

/-- The state of a calculator. -/
structure Calculator where
  /-- The earlier results. -/
  history : History
  /-- The names that can be used. -/
  registry : Registry := .standard
  /-- How many groups, calls and prefix operators can be nested. -/
  nestingLimit : Int := Expr.defaultLimit
  /-- How deep the tree of an expression can be. -/
  evaluationLimit : Int := Expr.defaultEvaluationLimit

namespace Calculator

/-- The tree that a text stands for. -/
def parse (nestingLimit : Int) (text : String) (interpreter : Interpreter := {}) :
    Except CalculatorError Expr := do
  let tokens ← (Token.ofText? text interpreter.digits).mapError .lexical
  (Expr.ofTokens? tokens text.toList nestingLimit interpreter.stack).mapError .grammar

/-- The value of a text. -/
def value (calculator : Calculator) (text : String) (interpreter : Interpreter := {}) :
    Except CalculatorError Value := do
  let expr ← parse calculator.nestingLimit text interpreter
  let env : Environment := ⟨calculator.history, calculator.registry⟩
  (expr.evaluate env calculator.evaluationLimit interpreter.stack).mapError .evaluation

/-- The value of a text and the calculator that has it as its most recent result. -/
def evaluate (calculator : Calculator) (text : String) (interpreter : Interpreter := {}) :
    Except CalculatorError (Value × Calculator) := do
  let value ← calculator.value text interpreter
  return (value, { calculator with history := calculator.history.push value })

end Calculator

end TypedCalc
