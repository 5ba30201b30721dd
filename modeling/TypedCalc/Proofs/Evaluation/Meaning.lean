import TypedCalc.Evaluation.Basic
import TypedCalc.Proofs.Result

/-!
# Plain recursion

What the value of an expression is by recursion on its operands and arguments, with no limit and no
stack.

* `Expr.meaning`: the value, or the first error.
* `Expr.failsOnly_isOfNode`: the errors are those of nodes.
-/

namespace TypedCalc

open Result

/-! ## Values -/

mutual

/-- The value of an expression by recursion on its operands and arguments, without a limit. -/
def Expr.meaning (env : Environment) : Expr → Except EvaluationError Value
  | .literal _ value => .ok value
  | .history position index => env.resolveHistory position index
  | .constant position name => env.resolveConstant position name
  | .unary position op operand => do
    let value ← operand.meaning env
    placeAt position (Operand.applyPrefix op value)
  | .binary position op left right => do
    let leftValue ← left.meaning env
    let rightValue ← right.meaning env
    placeAt position (Operand.applyInfix op leftValue rightValue)
  | .call position name arguments => do
    let text := (Expr.call position name arguments).describe
    let function ← env.resolveFunction position name text
    let values ← Expr.meaningAll env arguments
    if values.length = function.arity then function.apply position values
    else .error ⟨.wrongArity name text function.arity values.length, position⟩

/-- The values of arguments, from left to right. -/
def Expr.meaningAll (env : Environment) : List Expr → Except EvaluationError (List Value)
  | [] => .ok []
  | argument :: rest => do
    let value ← argument.meaning env
    let values ← Expr.meaningAll env rest
    return value :: values

end

/-! ## Errors -/

/-- Whether a fault is about no other capacity than a given one. -/
def EvaluationFault.Concerns (capacity : Nat) (fault : EvaluationFault) : Prop :=
  ∀ index size found, fault = .historyOutOfRange index size found → found = capacity

/-- Whether an error can be one of a node: it is about no other capacity than a given one, and it is
neither about the depth of the tree nor about the stack. -/
def EvaluationError.IsOfNode (capacity : Nat) (error : EvaluationError) : Prop :=
  error.fault.Concerns capacity ∧ (∀ limit, error.fault ≠ .tooDeep limit) ∧
    error.fault ≠ .stackExhausted

section

variable (env : Environment)

theorem failsOnly_isOfNode_placeAt (capacity position : Nat) (result : Except OperandFault Value) :
    FailsOnly (EvaluationError.IsOfNode capacity) (placeAt position result) :=
  .mapError fun _ _ => ⟨nofun, nofun, nofun⟩

theorem NamedFunction.failsOnly_isOfNode_apply (capacity : Nat) (function : NamedFunction)
    (position : Nat) (arguments : List Value) :
    FailsOnly (EvaluationError.IsOfNode capacity) (function.apply position arguments) := by
  unfold NamedFunction.apply
  split
  · exact .ok _
  · exact .error ⟨nofun, nofun, nofun⟩
  · exact .error ⟨nofun, nofun, nofun⟩

theorem Environment.failsOnly_isOfNode_resolveHistory (position index : Nat) :
    FailsOnly (EvaluationError.IsOfNode env.history.capacity)
      (env.resolveHistory position index) := by
  unfold Environment.resolveHistory
  split
  · exact .ok _
  · refine .error ⟨?_, nofun, nofun⟩
    rintro _ _ _ ⟨⟩
    rfl

theorem Environment.failsOnly_isOfNode_resolveConstant (capacity position : Nat) (name : String) :
    FailsOnly (EvaluationError.IsOfNode capacity) (env.resolveConstant position name) := by
  unfold Environment.resolveConstant
  split
  · exact .ok _
  · split <;> exact .error ⟨nofun, nofun, nofun⟩

theorem Environment.failsOnly_isOfNode_resolveFunction (capacity position : Nat)
    (name call : String) :
    FailsOnly (EvaluationError.IsOfNode capacity) (env.resolveFunction position name call) := by
  unfold Environment.resolveFunction
  split
  · exact .ok _
  · split <;> exact .error ⟨nofun, nofun, nofun⟩

mutual

/-- **Plain recursion** fails with errors of nodes. -/
theorem Expr.failsOnly_isOfNode : (e : Expr) →
    FailsOnly (EvaluationError.IsOfNode env.history.capacity) (e.meaning env)
  | .literal position value => by
    rw [Expr.meaning]
    exact .ok value
  | .history position index => by
    rw [Expr.meaning]
    exact env.failsOnly_isOfNode_resolveHistory position index
  | .constant position name => by
    rw [Expr.meaning]
    exact env.failsOnly_isOfNode_resolveConstant _ position name
  | .unary position op operand => by
    rw [Expr.meaning]
    exact .bind (Expr.failsOnly_isOfNode operand) fun value _ =>
      failsOnly_isOfNode_placeAt _ position _
  | .binary position op left right => by
    rw [Expr.meaning]
    refine .bind (Expr.failsOnly_isOfNode left) fun leftValue _ => ?_
    exact .bind (Expr.failsOnly_isOfNode right) fun rightValue _ =>
      failsOnly_isOfNode_placeAt _ position _
  | .call position name arguments => by
    rw [Expr.meaning]
    refine .bind (env.failsOnly_isOfNode_resolveFunction _ position name _) fun function _ => ?_
    refine .bind (Expr.failsOnly_isOfNodeAll arguments) fun values _ => ?_
    split
    · exact function.failsOnly_isOfNode_apply _ position values
    · exact .error ⟨nofun, nofun, nofun⟩

theorem Expr.failsOnly_isOfNodeAll : (arguments : List Expr) →
    FailsOnly (EvaluationError.IsOfNode env.history.capacity) (Expr.meaningAll env arguments)
  | [] => .ok []
  | argument :: rest => by
    rw [Expr.meaningAll]
    refine .bind (Expr.failsOnly_isOfNode argument) fun value _ => ?_
    exact .bind (Expr.failsOnly_isOfNodeAll rest) fun values _ => .ok _

end

end

end TypedCalc
