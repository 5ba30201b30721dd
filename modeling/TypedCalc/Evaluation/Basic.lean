import TypedCalc.Evaluation.Fault
import TypedCalc.Expr.Basic
import TypedCalc.History
import TypedCalc.Interpreter
import TypedCalc.Operand.Apply
import TypedCalc.Text.Similarity

/-!
# The value of an expression

Operands and arguments are evaluated from left to right and the first error ends the evaluation.
An error of an operator or a function is placed at its own node.

The depth of a tree is limited.  A chain of infix operators that nests to the left, such as
`1 + 2 + 3`, counts as one level however long it is: its operands are all one level below it.  The
chain is taken apart first (`Expr.unroll`) and its operators are then applied in a loop, from the
innermost one outwards.

The recursion takes up the stack of the interpreter: one call for every operand or argument that is
evaluated, and one more for what a chain or a call does.  An error that quotes a call needs room to
write it out.  Where there is no room, the evaluation ends in an error at the root of the tree.
-/

namespace TypedCalc

/-- What an expression is evaluated in. -/
structure Environment where
  /-- The earlier results. -/
  history : History
  /-- The names. -/
  registry : Registry

/-! ## Chains of infix operators -/

/-- An infix operator of a chain with its right operand. -/
structure Link where
  /-- The position of the operator. -/
  position : Nat
  /-- The operator. -/
  op : InfixOperator
  /-- The right operand. -/
  right : Expr

/-- The operand at the left end of a chain, and its operators, the innermost first, in front of
those already taken off. -/
def Expr.unroll : Expr → List Link → Expr × List Link
  | .binary position op left right, links => left.unroll (⟨position, op, right⟩ :: links)
  | start, links => (start, links)

mutual

/-- The number of nodes of an expression. -/
def Expr.nodeCount : Expr → Nat
  | .literal .. | .history .. | .constant .. => 1
  | .unary _ _ operand => operand.nodeCount + 1
  | .binary _ _ left right => left.nodeCount + right.nodeCount + 1
  | .call _ _ arguments => Expr.nodeCountAll arguments + 1

/-- The number of nodes of a list of arguments, each argument counted once more. -/
def Expr.nodeCountAll : List Expr → Nat
  | [] => 0
  | argument :: rest => argument.nodeCount + Expr.nodeCountAll rest + 1

end

/-- The number of nodes in the links of a chain. -/
def Link.nodeCountAll : List Link → Nat
  | [] => 0
  | link :: rest => link.right.nodeCount + Link.nodeCountAll rest + 1

theorem Expr.nodeCount_pos (e : Expr) : 0 < e.nodeCount := by
  cases e <;> simp [Expr.nodeCount]

/-- Unrolling a chain keeps all of its nodes. -/
theorem Expr.nodeCount_unroll (e : Expr) (links : List Link) :
    (e.unroll links).1.nodeCount + Link.nodeCountAll (e.unroll links).2 =
      e.nodeCount + Link.nodeCountAll links := by
  fun_induction Expr.unroll e links with
  | case1 position op left right links ih =>
    simp only [ih, Link.nodeCountAll, Expr.nodeCount]
    omega
  | case2 => rfl

/-- A link already taken off stays. -/
theorem Link.nodeCountAll_le_unroll (e : Expr) (links : List Link) :
    Link.nodeCountAll links ≤ Link.nodeCountAll (e.unroll links).2 := by
  fun_induction Expr.unroll e links with
  | case1 position op left right links ih =>
    simp only [Link.nodeCountAll] at ih
    omega
  | case2 => exact Nat.le_refl _

/-- The start of a chain is smaller than the chain. -/
theorem Expr.nodeCount_unroll_lt (position : Nat) (op : InfixOperator) (left right : Expr) :
    ((Expr.binary position op left right).unroll []).1.nodeCount <
      (Expr.binary position op left right).nodeCount := by
  have hkept := Expr.nodeCount_unroll (.binary position op left right) []
  have hlinks := Link.nodeCountAll_le_unroll left [⟨position, op, right⟩]
  rw [Expr.unroll] at hkept ⊢
  simp only [Link.nodeCountAll] at hkept hlinks
  omega

/-- The links of a chain are together smaller than the chain. -/
theorem Link.nodeCountAll_unroll_lt (position : Nat) (op : InfixOperator) (left right : Expr) :
    Link.nodeCountAll ((Expr.binary position op left right).unroll []).2 <
      (Expr.binary position op left right).nodeCount := by
  have hkept := Expr.nodeCount_unroll (.binary position op left right) []
  have hstart := ((Expr.binary position op left right).unroll []).1.nodeCount_pos
  rw [Link.nodeCountAll] at hkept
  omega

/-! ## Names -/

namespace Environment

/-- The result that many steps back. -/
def resolveHistory (env : Environment) (position index : Nat) : Except EvaluationError Value :=
  match env.history.get? index with
  | some value => .ok value
  | none =>
    .error ⟨.historyOutOfRange index env.history.size env.history.capacity, position⟩

/-- The value of a bare name. -/
def resolveConstant (env : Environment) (position : Nat) (name : String) :
    Except EvaluationError Value :=
  match env.registry.constant? name with
  | some constant => .ok constant.value
  | none =>
    match env.registry.function? name with
    | some _ => .error ⟨.functionAsConstant name, position⟩
    | none =>
      let similar := Text.similarNames name env.registry.constantNames
      .error ⟨.unknownConstant name similar, position⟩

/-- The function that a call names; `call` is the text of the call. -/
def resolveFunction (env : Environment) (position : Nat) (name call : String) :
    Except EvaluationError NamedFunction :=
  match env.registry.function? name with
  | some function => .ok function
  | none =>
    match env.registry.constant? name with
    | some _ => .error ⟨.constantAsFunction name call, position⟩
    | none =>
      let similar := Text.similarNames name env.registry.functionNames
      .error ⟨.unknownFunction name call similar, position⟩

end Environment

/-- The arguments of a function in the type that it takes them in. -/
def NamedFunction.castArguments (function : NamedFunction) (arguments : List Value) :
    List Value :=
  match function.parameterType with
  | some type => arguments.map (·.castTo type)
  | none => arguments

/-- The result of a function on evaluated arguments. -/
def NamedFunction.apply (function : NamedFunction) (position : Nat) (arguments : List Value) :
    Except EvaluationError Value :=
  match function.run (function.castArguments arguments) with
  | .ok value => .ok value
  | .error (.operand fault) => .error ⟨.operand fault, position⟩
  | .error (.broken text) => .error ⟨.brokenFunction function.name text, position⟩

/-- A result of an operator, with its fault placed at a position. -/
def placeAt (position : Nat) (result : Except OperandFault Value) :
    Except EvaluationError Value :=
  result.mapError fun fault => ⟨.operand fault, position⟩

/-! ## The stack -/

/-- The stack inside one more call of the evaluator, for a node at a position. -/
def Stack.descend (stack : Stack) (position : Nat) : Except EvaluationError Stack :=
  match stack.call? with
  | some inner => .ok inner
  | none => .error ⟨.stackExhausted, position⟩

/-- A result whose error quotes an expression, which is written out on a stack. -/
def Expr.quote {α : Type} (e : Expr) (stack : Stack) (result : Except EvaluationError α) :
    Except EvaluationError α :=
  match result with
  | .ok a => .ok a
  | .error error =>
    if stack.Holds e.describeCalls then .error error
    else .error ⟨.stackExhausted, e.position⟩

/-! ## Values -/

mutual

/-- The value of an expression that stands `depth` levels below the root. -/
def Expr.evaluateAt (env : Environment) (limit : Int) (depth : Nat) (e : Expr)
    (stack : Stack := .unlimited) : Except EvaluationError Value := do
  let stack ← stack.descend e.position
  if limit < depth then .error ⟨.tooDeep limit, e.position⟩
  else
    match e with
    | .literal _ value => .ok value
    | .history position index => env.resolveHistory position index
    | .constant position name => env.resolveConstant position name
    | .unary position op operand =>
      let value ← Expr.evaluateAt env limit (depth + 1) operand stack
      placeAt position (Operand.applyPrefix op value)
    | .binary position op left right =>
      let stack ← stack.descend position
      let chain := (Expr.binary position op left right).unroll []
      have := Expr.nodeCount_unroll_lt position op left right
      have := Link.nodeCountAll_unroll_lt position op left right
      let first ← Expr.evaluateAt env limit (depth + 1) chain.1 stack
      Link.evaluateAllAt env limit (depth + 1) first chain.2 stack
    | .call position name arguments =>
      let stack ← stack.descend position
      let call := Expr.call position name arguments
      let text := call.describe
      let function ← call.quote stack (env.resolveFunction position name text)
      let values ← Expr.evaluateAllAt env limit (depth + 1) arguments stack
      if values.length = function.arity then function.apply position values
      else
        call.quote stack
          (.error ⟨.wrongArity name text function.arity values.length, position⟩)
termination_by e.nodeCount
decreasing_by all_goals (first | omega | (rw [Expr.nodeCount]; omega))

/-- The value of a chain, of which the operators up to a link have given a value. -/
def Link.evaluateAllAt (env : Environment) (limit : Int) (depth : Nat) (value : Value)
    (links : List Link) (stack : Stack := .unlimited) : Except EvaluationError Value :=
  match links with
  | [] => .ok value
  | link :: rest => do
    let right ← Expr.evaluateAt env limit depth link.right stack
    let next ← placeAt link.position (Operand.applyInfix link.op value right)
    Link.evaluateAllAt env limit depth next rest stack
termination_by Link.nodeCountAll links
decreasing_by all_goals (rw [Link.nodeCountAll]; omega)

/-- The values of the arguments of a call. -/
def Expr.evaluateAllAt (env : Environment) (limit : Int) (depth : Nat) (arguments : List Expr)
    (stack : Stack := .unlimited) : Except EvaluationError (List Value) :=
  match arguments with
  | [] => .ok []
  | argument :: rest => do
    let value ← Expr.evaluateAt env limit depth argument stack
    let values ← Expr.evaluateAllAt env limit depth rest stack
    return value :: values
termination_by Expr.nodeCountAll arguments
decreasing_by all_goals (rw [Expr.nodeCountAll]; omega)

end

/-- How deep a tree can be when nothing else is said. -/
def Expr.defaultEvaluationLimit : Int := 200

/-- An error of a tree with its root at a position, which is where the tree has no room. -/
def EvaluationError.atRoot (root : Nat) (error : EvaluationError) : EvaluationError :=
  if error.fault = .stackExhausted then { error with position := root } else error

/-- The value of an expression. -/
def Expr.evaluate (e : Expr) (env : Environment)
    (limit : Int := Expr.defaultEvaluationLimit) (stack : Stack := .unlimited) :
    Except EvaluationError Value :=
  (e.evaluateAt env limit 0 stack).mapError (·.atRoot e.position)

end TypedCalc
