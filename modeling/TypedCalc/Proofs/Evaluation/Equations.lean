import TypedCalc.Evaluation.Basic

/-!
# The evaluator, one node at a time

The value of each kind of node in terms of the values of its operands and arguments, first on any
stack and then on one that never runs out.
-/

namespace TypedCalc

@[simp] theorem Stack.descend_unlimited_bind {α : Type} (position : Nat)
    (next : Stack → Except EvaluationError α) :
    (Stack.unlimited.descend position >>= next) = next .unlimited := rfl

theorem Expr.quote_of_holds {α : Type} {e : Expr} {stack : Stack}
    (h : stack.Holds e.describeCalls) (result : Except EvaluationError α) :
    e.quote stack result = result := by
  cases result with
  | ok a => rfl
  | error error => exact if_pos h

@[simp] theorem Expr.quote_unlimited {α : Type} (e : Expr) (result : Except EvaluationError α) :
    e.quote .unlimited result = result :=
  quote_of_holds (Stack.holds_unlimited _) result

/-! ## On any stack -/

section

variable (env : Environment) (stack : Stack) {limit : Int} {depth : Nat}

theorem Expr.evaluateAt_of_lt_on (h : limit < depth) (e : Expr) :
    e.evaluateAt env limit depth stack = (do
      let _ ← stack.descend e.position
      .error ⟨.tooDeep limit, e.position⟩) := by
  rw [evaluateAt.eq_def]
  simp only [if_pos h]

variable (h : ¬ limit < depth)

include h

theorem Expr.evaluateAt_literal_on (position : Nat) (value : Value) :
    (literal position value).evaluateAt env limit depth stack = (do
      let _ ← stack.descend position
      .ok value) := by
  rw [evaluateAt.eq_def]
  simp only [if_neg h]
  rfl

theorem Expr.evaluateAt_history_on (position index : Nat) :
    (history position index).evaluateAt env limit depth stack = (do
      let _ ← stack.descend position
      env.resolveHistory position index) := by
  rw [evaluateAt.eq_def]
  simp only [if_neg h]
  rfl

theorem Expr.evaluateAt_constant_on (position : Nat) (name : String) :
    (constant position name).evaluateAt env limit depth stack = (do
      let _ ← stack.descend position
      env.resolveConstant position name) := by
  rw [evaluateAt.eq_def]
  simp only [if_neg h]
  rfl

theorem Expr.evaluateAt_unary_on (position : Nat) (op : PrefixOperator) (operand : Expr) :
    (unary position op operand).evaluateAt env limit depth stack = (do
      let stack ← stack.descend position
      let value ← operand.evaluateAt env limit (depth + 1) stack
      placeAt position (Operand.applyPrefix op value)) := by
  rw [evaluateAt.eq_def]
  simp only [if_neg h]
  rfl

/-- An infix operator is evaluated by unrolling its chain. -/
theorem Expr.evaluateAt_binary_unroll_on (position : Nat) (op : InfixOperator)
    (left right : Expr) :
    (binary position op left right).evaluateAt env limit depth stack = (do
      let stack ← stack.descend position
      let stack ← stack.descend position
      let first ←
        ((left.unroll [⟨position, op, right⟩]).1).evaluateAt env limit (depth + 1) stack
      Link.evaluateAllAt env limit (depth + 1) first (left.unroll [⟨position, op, right⟩]).2
        stack) := by
  rw [evaluateAt.eq_def]
  simp only [if_neg h]
  rfl

theorem Expr.evaluateAt_call_on (position : Nat) (name : String) (arguments : List Expr) :
    (call position name arguments).evaluateAt env limit depth stack = (do
      let stack ← stack.descend position
      let stack ← stack.descend position
      let text := (call position name arguments).describe
      let function ←
        (call position name arguments).quote stack (env.resolveFunction position name text)
      let values ← Expr.evaluateAllAt env limit (depth + 1) arguments stack
      if values.length = function.arity then function.apply position values
      else
        (call position name arguments).quote stack
          (.error ⟨.wrongArity name text function.arity values.length, position⟩)) := by
  rw [evaluateAt.eq_def]
  simp only [if_neg h]
  rfl

end

section

variable (env : Environment) (limit : Int) (stack : Stack) (depth : Nat)

@[simp] theorem Link.evaluateAllAt_nil (value : Value) :
    Link.evaluateAllAt env limit depth value [] stack = pure value := by
  rw [Link.evaluateAllAt]
  rfl

theorem Link.evaluateAllAt_cons (value : Value) (link : Link) (rest : List Link) :
    Link.evaluateAllAt env limit depth value (link :: rest) stack = (do
      let right ← link.right.evaluateAt env limit depth stack
      let next ← placeAt link.position (Operand.applyInfix link.op value right)
      Link.evaluateAllAt env limit depth next rest stack) := by
  rw [Link.evaluateAllAt]

@[simp] theorem Expr.evaluateAllAt_nil :
    Expr.evaluateAllAt env limit depth [] stack = .ok [] := by
  rw [Expr.evaluateAllAt]

theorem Expr.evaluateAllAt_cons (argument : Expr) (rest : List Expr) :
    Expr.evaluateAllAt env limit depth (argument :: rest) stack = (do
      let value ← argument.evaluateAt env limit depth stack
      let values ← Expr.evaluateAllAt env limit depth rest stack
      return value :: values) := by
  rw [Expr.evaluateAllAt]

end

/-! ## On a stack that never runs out -/

section

variable (env : Environment) {limit : Int} {depth : Nat}

theorem Expr.evaluateAt_of_lt (h : limit < depth) (e : Expr) :
    e.evaluateAt env limit depth = .error ⟨.tooDeep limit, e.position⟩ :=
  evaluateAt_of_lt_on env .unlimited h e

variable (h : ¬ limit < depth)

include h

theorem Expr.evaluateAt_literal (position : Nat) (value : Value) :
    (literal position value).evaluateAt env limit depth = .ok value :=
  evaluateAt_literal_on env .unlimited h position value

theorem Expr.evaluateAt_history (position index : Nat) :
    (history position index).evaluateAt env limit depth = env.resolveHistory position index :=
  evaluateAt_history_on env .unlimited h position index

theorem Expr.evaluateAt_constant (position : Nat) (name : String) :
    (constant position name).evaluateAt env limit depth = env.resolveConstant position name :=
  evaluateAt_constant_on env .unlimited h position name

theorem Expr.evaluateAt_unary (position : Nat) (op : PrefixOperator) (operand : Expr) :
    (unary position op operand).evaluateAt env limit depth = (do
      let value ← operand.evaluateAt env limit (depth + 1)
      placeAt position (Operand.applyPrefix op value)) :=
  evaluateAt_unary_on env .unlimited h position op operand

theorem Expr.evaluateAt_call (position : Nat) (name : String) (arguments : List Expr) :
    (call position name arguments).evaluateAt env limit depth = (do
      let text := (call position name arguments).describe
      let function ← env.resolveFunction position name text
      let values ← Expr.evaluateAllAt env limit (depth + 1) arguments
      if values.length = function.arity then function.apply position values
      else .error ⟨.wrongArity name text function.arity values.length, position⟩) := by
  simp only [evaluateAt_call_on env .unlimited h, Stack.descend_unlimited_bind, quote_unlimited]

end

end TypedCalc
