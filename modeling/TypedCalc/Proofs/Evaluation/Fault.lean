import TypedCalc.Proofs.Evaluation.Chain
import TypedCalc.Proofs.Expr.Places
import TypedCalc.Proofs.Registry.Builtin

/-!
# What an evaluation can end with

In an environment with sound functions an evaluation gives a value or an error that the expression
is to blame for, and that error stands at a node of the expression.

* `Expr.failsOnly_evaluateAt`: the errors of an expression at any depth.
* `EvaluationFault.errorClass_report`: how they are classed.
-/

namespace TypedCalc

open Result

/-- Whether a fault is about an expression and not about a broken function or an operator that there
is none of. -/
def EvaluationFault.AboutExpression (fault : EvaluationFault) : Prop :=
  (∀ name text, fault ≠ .brokenFunction name text) ∧
    ∀ operandFault, fault = .operand operandFault → operandFault.AboutOperands

theorem EvaluationFault.AboutExpression.of_ne {fault : EvaluationFault}
    (hbroken : ∀ name text, fault ≠ .brokenFunction name text)
    (hoperand : ∀ operandFault, fault ≠ .operand operandFault) : fault.AboutExpression :=
  ⟨hbroken, fun operandFault hfault => absurd hfault (hoperand operandFault)⟩

theorem OperandFault.AboutOperands.aboutExpression {fault : OperandFault}
    (h : fault.AboutOperands) : (EvaluationFault.operand fault).AboutExpression := by
  refine ⟨nofun, ?_⟩
  rintro _ ⟨⟩
  exact h

/-- Whether an error is about an expression and stands at one of some places. -/
def EvaluationError.IsWithin (places : List Nat) (error : EvaluationError) : Prop :=
  error.position ∈ places ∧ error.fault.AboutExpression

theorem Result.FailsOnly.widen {α : Type} {places more : List Nat}
    {result : Except EvaluationError α}
    (h : FailsOnly (EvaluationError.IsWithin places) result) (hmore : places ⊆ more) :
    FailsOnly (EvaluationError.IsWithin more) result :=
  h.mono fun _ herror => ⟨hmore herror.1, herror.2⟩

theorem singleton_subset_cons (position : Nat) (places : List Nat) :
    [position] ⊆ position :: places :=
  List.cons_subset_cons _ (List.nil_subset _)

theorem EvaluationFault.errorClass_report (fault : EvaluationFault) (wording : LimitWording) :
    (fault.report wording).errorClass = .typing ∨
      (fault.report wording).errorClass.isEvaluation = true := by
  cases fault with
  | operand fault => exact fault.errorClass_report
  | _ => exact .inr rfl

theorem EvaluationFault.position_report (fault : EvaluationFault) (wording : LimitWording) :
    (fault.report wording).position = none := by
  cases fault with
  | operand fault => exact fault.position_report
  | _ => rfl

/-! ## Names, operators and calls -/

section

variable (env : Environment) (position : Nat)

theorem Environment.failsOnly_resolveHistory (index : Nat) :
    FailsOnly (EvaluationError.IsWithin [position]) (env.resolveHistory position index) := by
  unfold Environment.resolveHistory
  split
  · exact .ok _
  · exact .error ⟨List.mem_singleton_self _, .of_ne (by rintro _ _ ⟨⟩) (by rintro _ ⟨⟩)⟩

theorem Environment.failsOnly_resolveConstant (name : String) :
    FailsOnly (EvaluationError.IsWithin [position]) (env.resolveConstant position name) := by
  unfold Environment.resolveConstant
  split
  · exact .ok _
  split
  · exact .error ⟨List.mem_singleton_self _, .of_ne nofun fun _ => nofun⟩
  · exact .error ⟨List.mem_singleton_self _, .of_ne nofun fun _ => nofun⟩

theorem Environment.failsOnly_resolveFunction (name call : String) :
    FailsOnly (EvaluationError.IsWithin [position]) (env.resolveFunction position name call) := by
  unfold Environment.resolveFunction
  split
  · exact .ok _
  split
  · exact .error ⟨List.mem_singleton_self _, .of_ne nofun fun _ => nofun⟩
  · exact .error ⟨List.mem_singleton_self _, .of_ne nofun fun _ => nofun⟩

theorem failsOnly_placeAt {result : Except OperandFault Value}
    (h : FailsOnly OperandFault.AboutOperands result) :
    FailsOnly (EvaluationError.IsWithin [position]) (placeAt position result) :=
  .mapError (h.mono fun _ hfault => ⟨List.mem_singleton_self _, hfault.aboutExpression⟩)

theorem NamedFunction.Sound.failsOnly_apply {function : NamedFunction} (h : function.Sound)
    {arguments : List Value} (hlength : arguments.length = function.arity) :
    FailsOnly (EvaluationError.IsWithin [position]) (function.apply position arguments) := by
  have hrun := h arguments hlength
  unfold NamedFunction.apply
  cases hresult : function.run (function.castArguments arguments) with
  | ok value => exact .ok _
  | error fault =>
    obtain ⟨operandFault, hfault, rfl⟩ := hrun fault hresult
    exact .error ⟨List.mem_singleton_self _, hfault.aboutExpression⟩

/-- A function that is found is one of the registry. -/
theorem Environment.mem_functions_of_resolveFunction {name call : String}
    {function : NamedFunction} (h : env.resolveFunction position name call = .ok function) :
    function ∈ env.registry.functions := by
  unfold Environment.resolveFunction at h
  split at h
  · rename_i hfound
    cases h
    exact List.mem_of_find?_eq_some hfound
  split at h
  · nomatch h
  · nomatch h

end

/-! ## Expressions -/

section

variable {env : Environment} (limit : Int)

/-- A node below the limit is refused, and that is an error at the node. -/
theorem Expr.failsOnly_of (depth : Nat) (e : Expr)
    (h : ¬ limit < depth → FailsOnly (EvaluationError.IsWithin e.positions)
      (e.evaluateAt env limit depth)) :
    FailsOnly (EvaluationError.IsWithin e.positions) (e.evaluateAt env limit depth) := by
  by_cases hdeep : limit < depth
  · rw [Expr.evaluateAt_of_lt env hdeep]
    exact .error ⟨e.position_mem_positions, .of_ne nofun fun _ => nofun⟩
  · exact h hdeep

mutual

/-- **An evaluation** ends with a value or with an error at a node of the expression that the
expression is to blame for. -/
theorem Expr.failsOnly_evaluateAt (hsound : env.registry.Sound) (depth : Nat) : (e : Expr) →
    FailsOnly (EvaluationError.IsWithin e.positions) (e.evaluateAt env limit depth)
  | .literal position value => by
    refine Expr.failsOnly_of limit depth _ fun h => ?_
    rw [Expr.evaluateAt_literal _ h]
    exact .ok _
  | .history position index => by
    refine Expr.failsOnly_of limit depth _ fun h => ?_
    rw [Expr.evaluateAt_history _ h, Expr.positions]
    exact env.failsOnly_resolveHistory position index
  | .constant position name => by
    refine Expr.failsOnly_of limit depth _ fun h => ?_
    rw [Expr.evaluateAt_constant _ h, Expr.positions]
    exact env.failsOnly_resolveConstant position name
  | .unary position op operand => by
    refine Expr.failsOnly_of limit depth _ fun h => ?_
    rw [Expr.evaluateAt_unary _ h, Expr.positions]
    have hoperand := Expr.failsOnly_evaluateAt hsound (depth + 1) operand
    refine .bind (hoperand.widen (List.subset_cons_self _ _)) fun value _ => ?_
    have happly := failsOnly_placeAt position (Operand.failsOnly_applyPrefix op value)
    exact happly.widen (singleton_subset_cons _ _)
  | .binary position op left right => by
    refine Expr.failsOnly_of limit depth _ fun h => ?_
    rw [Expr.evaluateAt_binary _ h, Expr.positions]
    have hleft := Expr.failsOnly_evaluateAt hsound (left.leftDepth depth) left
    have hright := Expr.failsOnly_evaluateAt hsound (depth + 1) right
    have hleftPlaces := List.subset_append_left left.positions right.positions
    have hrightPlaces := List.subset_append_right left.positions right.positions
    refine .bind (hleft.widen (List.subset_cons_of_subset _ hleftPlaces)) fun leftValue _ => ?_
    refine .bind (hright.widen (List.subset_cons_of_subset _ hrightPlaces)) fun rightValue _ => ?_
    have happly := failsOnly_placeAt position (Operand.failsOnly_applyInfix op leftValue rightValue)
    exact happly.widen (singleton_subset_cons _ _)
  | .call position name arguments => by
    refine Expr.failsOnly_of limit depth _ fun h => ?_
    rw [Expr.evaluateAt_call _ h, Expr.positions]
    -- the function that is applied is one of the registry, and it is given its number of arguments
    have hresolve := env.failsOnly_resolveFunction position name
      (Expr.call position name arguments).describe
    have harguments := Expr.failsOnly_evaluateAllAt hsound (depth + 1) arguments
    refine .bind (hresolve.widen (singleton_subset_cons _ _)) fun function hfunction => ?_
    refine .bind (harguments.widen (List.subset_cons_self _ _)) fun values _ => ?_
    split
    · rename_i hlength
      have hfound := env.mem_functions_of_resolveFunction position hfunction
      have happly := (hsound function hfound).failsOnly_apply position hlength
      exact happly.widen (singleton_subset_cons _ _)
    · exact .error ⟨List.mem_cons_self, .of_ne nofun fun _ => nofun⟩

theorem Expr.failsOnly_evaluateAllAt (hsound : env.registry.Sound) (depth : Nat) :
    (arguments : List Expr) →
    FailsOnly (EvaluationError.IsWithin (Expr.positionsAll arguments))
      (Expr.evaluateAllAt env limit depth arguments)
  | [] => by
    rw [Expr.evaluateAllAt_nil]
    exact .ok _
  | argument :: rest => by
    rw [Expr.evaluateAllAt_cons, Expr.positionsAll]
    have hargument := Expr.failsOnly_evaluateAt hsound depth argument
    have hrest := Expr.failsOnly_evaluateAllAt hsound depth rest
    refine .bind (hargument.widen (List.subset_append_left _ _)) fun value _ => ?_
    exact .bind (hrest.widen (List.subset_append_right _ _)) fun values _ => .ok _

end

end

end TypedCalc
