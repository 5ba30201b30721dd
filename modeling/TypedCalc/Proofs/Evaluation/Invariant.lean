import TypedCalc.Proofs.Evaluation.Fault

/-!
# Properties that evaluation keeps

Let a property of values hold of the earlier results and of the constants, and let the operators and
the functions keep it.  Then every value of an expression has it, if the literals of the expression
do.

* `Environment.Keeps`: an environment with such results, names and operators.
* `Expr.givesOnly_evaluateAt`: the values of expressions in it.
-/

namespace TypedCalc

open Result

/-- Whether a function gives values with a property for arguments that have it. -/
def NamedFunction.Keeps (p : Value → Prop) (function : NamedFunction) : Prop :=
  ∀ arguments : List Value, (∀ v ∈ arguments, p v) →
    GivesOnly p (function.run (function.castArguments arguments))

/-- Whether the results and the constants of an environment have a property, and the functions and
the operators keep it. -/
structure Environment.Keeps (p : Value → Prop) (env : Environment) : Prop where
  history : ∀ v ∈ env.history.recent, p v
  constants : ∀ constant ∈ env.registry.constants, p constant.value
  functions : ∀ function ∈ env.registry.functions, function.Keeps p
  applyPrefix : ∀ op v, p v → GivesOnly p (Operand.applyPrefix op v)
  applyInfix : ∀ op left right, p left → p right → GivesOnly p (Operand.applyInfix op left right)

section

variable {p : Value → Prop} {env : Environment}

/-! ## Names and calls -/

theorem Environment.Keeps.resolveHistory (h : env.Keeps p) (position index : Nat) :
    GivesOnly p (env.resolveHistory position index) := by
  unfold Environment.resolveHistory
  split
  · rename_i hfound
    exact .ok (h.history _ (List.mem_of_getElem? hfound))
  · exact .error _

theorem Environment.Keeps.resolveConstant (h : env.Keeps p) (position : Nat) (name : String) :
    GivesOnly p (env.resolveConstant position name) := by
  unfold Environment.resolveConstant
  split
  · rename_i hfound
    exact .ok (h.constants _ (List.mem_of_find?_eq_some hfound))
  split
  · exact .error _
  · exact .error _

theorem NamedFunction.Keeps.apply {function : NamedFunction} (h : function.Keeps p)
    (position : Nat) {arguments : List Value} (harguments : ∀ v ∈ arguments, p v) :
    GivesOnly p (function.apply position arguments) := by
  intro v hv
  refine h arguments harguments v ?_
  unfold NamedFunction.apply at hv
  split at hv
  · rename_i hrun
    cases hv
    exact hrun
  · cases hv
  · cases hv

/-! ## Expressions -/

variable (limit : Int)

/-- A node below the limit has no value. -/
theorem Expr.givesOnly_of (depth : Nat) (e : Expr)
    (h : ¬ limit < depth → GivesOnly p (e.evaluateAt env limit depth)) :
    GivesOnly p (e.evaluateAt env limit depth) := by
  by_cases hdeep : limit < depth
  · rw [Expr.evaluateAt_of_lt env hdeep]
    exact .error _
  · exact h hdeep

mutual

/-- **The value of an expression** has every property that its environment keeps and its literals
have. -/
theorem Expr.givesOnly_evaluateAt (henv : env.Keeps p) (depth : Nat) : (e : Expr) →
    e.HasLiterals p → GivesOnly p (e.evaluateAt env limit depth)
  | .literal position value, .literal _ hvalue => by
    refine Expr.givesOnly_of limit depth _ fun h => ?_
    rw [Expr.evaluateAt_literal _ h]
    exact .ok hvalue
  | .history position index, _ => by
    refine Expr.givesOnly_of limit depth _ fun h => ?_
    rw [Expr.evaluateAt_history _ h]
    exact henv.resolveHistory position index
  | .constant position name, _ => by
    refine Expr.givesOnly_of limit depth _ fun h => ?_
    rw [Expr.evaluateAt_constant _ h]
    exact henv.resolveConstant position name
  | .unary position op operand, .unary _ _ hoperand => by
    refine Expr.givesOnly_of limit depth _ fun h => ?_
    rw [Expr.evaluateAt_unary _ h]
    have hvalues := Expr.givesOnly_evaluateAt henv (depth + 1) operand hoperand
    refine .bind hvalues fun value hvalue => ?_
    exact (henv.applyPrefix op value hvalue).mapError _
  | .binary position op left right, .binary _ _ hleft hright => by
    refine Expr.givesOnly_of limit depth _ fun h => ?_
    rw [Expr.evaluateAt_binary _ h]
    refine .bind (Expr.givesOnly_evaluateAt henv _ left hleft) fun leftValue hleftValue => ?_
    refine .bind (Expr.givesOnly_evaluateAt henv _ right hright) fun rightValue hrightValue => ?_
    exact (henv.applyInfix op leftValue rightValue hleftValue hrightValue).mapError _
  | .call position name arguments, .call _ _ harguments => by
    refine Expr.givesOnly_of limit depth _ fun h => ?_
    rw [Expr.evaluateAt_call _ h]
    intro value hvalue
    obtain ⟨function, hfunction, hvalue⟩ := bind_eq_ok_iff.mp hvalue
    obtain ⟨values, hvalues, hvalue⟩ := bind_eq_ok_iff.mp hvalue
    split at hvalue
    · have hfound := env.mem_functions_of_resolveFunction position hfunction
      have hkept := Expr.givesOnly_evaluateAllAt henv (depth + 1) arguments harguments
      exact (henv.functions function hfound).apply position (hkept values hvalues) value hvalue
    · cases hvalue

/-- So have the values of arguments. -/
theorem Expr.givesOnly_evaluateAllAt (henv : env.Keeps p) (depth : Nat) :
    (arguments : List Expr) → (∀ argument ∈ arguments, argument.HasLiterals p) →
    GivesOnly (fun values => ∀ v ∈ values, p v) (Expr.evaluateAllAt env limit depth arguments)
  | [], _ => by
    rw [Expr.evaluateAllAt_nil]
    exact .ok fun _ hmem => absurd hmem List.not_mem_nil
  | argument :: rest, h => by
    rw [Expr.evaluateAllAt_cons]
    obtain ⟨hargument, hrest⟩ := List.forall_mem_cons.mp h
    refine .bind (Expr.givesOnly_evaluateAt henv depth argument hargument) fun value hvalue => ?_
    refine .bind (Expr.givesOnly_evaluateAllAt henv depth rest hrest) fun values hvalues => ?_
    exact .ok (List.forall_mem_cons.mpr ⟨hvalue, hvalues⟩)

end

end

end TypedCalc
