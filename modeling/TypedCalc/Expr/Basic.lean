import TypedCalc.Operand.Operator
import TypedCalc.Value.Basic

/-!
# Expressions

The tree that an expression stands for.  Every node keeps the position of its own number, name or
operator in the text, so that an error can point there.  `Expr.describe` writes a tree back as
text, with parentheses around every infix operation.

Writing a tree is recursive and takes up the stack of the interpreter: one call for every node, and
one more for the arguments of a call (`Expr.describeCalls`).
-/

namespace TypedCalc

/-- An expression. -/
inductive Expr
  /-- A number. -/
  | literal (position : Nat) (value : Value)
  /-- The result that many steps back. -/
  | history (position : Nat) (index : Nat)
  /-- A constant. -/
  | constant (position : Nat) (name : String)
  /-- A prefix operator with its operand. -/
  | unary (position : Nat) (op : PrefixOperator) (operand : Expr)
  /-- An infix operator between its operands. -/
  | binary (position : Nat) (op : InfixOperator) (left right : Expr)
  /-- A function with its arguments. -/
  | call (position : Nat) (name : String) (arguments : List Expr)

namespace Expr

/-- The position of the node itself. -/
def position : Expr → Nat
  | .literal p _ => p
  | .history p _ => p
  | .constant p _ => p
  | .unary p _ _ => p
  | .binary p _ _ _ => p
  | .call p _ _ => p

mutual

/-- The text of an expression. -/
def describe : Expr → String
  | .literal _ value => value.describe
  | .history _ index => "$" ++ toString index
  | .constant _ name => name
  | .unary _ op operand => op.symbol ++ operand.describe
  | .binary _ op left right =>
    "(" ++ left.describe ++ " " ++ op.symbol ++ " " ++ right.describe ++ ")"
  | .call _ name arguments =>
    name ++ "(" ++ String.intercalate ", " (describeAll arguments) ++ ")"

/-- The texts of the arguments of a call. -/
def describeAll : List Expr → List String
  | [] => []
  | argument :: rest => argument.describe :: describeAll rest

end

mutual

/-- How many calls, each inside the one before, the text of an expression takes. -/
def describeCalls : Expr → Nat
  | .literal .. | .history .. | .constant .. => 1
  | .unary _ _ operand => operand.describeCalls + 1
  | .binary _ _ left right => max left.describeCalls right.describeCalls + 1
  | .call _ _ arguments => describeCallsAll arguments + 2

/-- How many calls the texts of arguments take, of which one is written after the other. -/
def describeCallsAll : List Expr → Nat
  | [] => 0
  | argument :: rest => max argument.describeCalls (describeCallsAll rest)

end

end Expr

end TypedCalc
