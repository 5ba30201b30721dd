import TypedCalc.Proofs.Evaluation.Chain

/-!
# Expressions with the references filled in

A reference to an earlier result has the value that the history holds, wherever it stands.  So the
history can be written into an expression: every reference that the history answers becomes a
number.

* `Expr.evaluateAt_recall`: what is left needs no history for its value.
-/

namespace TypedCalc

mutual

/-- An expression with every reference to a known result replaced by that result. -/
def Expr.recall (found : Nat → Option Value) : Expr → Expr
  | .literal position value => .literal position value
  | .history position index =>
    match found index with
    | some value => .literal position value
    | none => .history position index
  | .constant position name => .constant position name
  | .unary position op operand => .unary position op (operand.recall found)
  | .binary position op left right =>
    .binary position op (left.recall found) (right.recall found)
  | .call position name arguments => .call position name (Expr.recallAll found arguments)

/-- Arguments with every reference to a known result replaced by that result. -/
def Expr.recallAll (found : Nat → Option Value) : List Expr → List Expr
  | [] => []
  | argument :: rest => argument.recall found :: Expr.recallAll found rest

end

/-- Whether two results are the same value, if one of them is a value at all. -/
def SameValue {ε α : Type} (first second : Except ε α) : Prop :=
  ∀ a, first = .ok a ↔ second = .ok a

section

variable {ε α β : Type}

theorem SameValue.refl (result : Except ε α) : SameValue result result := fun _ => Iff.rfl

theorem SameValue.of_error (fault fault' : ε) :
    SameValue (.error fault : Except ε α) (.error fault') :=
  fun _ => ⟨nofun, nofun⟩

theorem SameValue.bind {first second : Except ε α} (h : SameValue first second)
    {next next' : α → Except ε β} (hnext : ∀ a, SameValue (next a) (next' a)) :
    SameValue (first >>= next) (second >>= next') := by
  intro b
  simp only [Result.bind_eq_ok_iff]
  exact exists_congr fun a => and_congr (h a) (hnext a b)

end

theorem Environment.sameValue_resolveFunction (env : Environment) (position : Nat)
    (name call call' : String) :
    SameValue (env.resolveFunction position name call)
      (env.resolveFunction position name call') := by
  unfold resolveFunction
  split
  · exact .refl _
  · split <;> exact .of_error _ _

theorem Expr.isInfix_recall (found : Nat → Option Value) (e : Expr) :
    (e.recall found).isInfix = e.isInfix := by
  cases e with
  | history position index =>
    rw [Expr.recall]
    split <;> rfl
  | _ => rfl

section

variable (env : Environment) (limit : Int)

/-- The environment without any results. -/
def Environment.forgetful : Environment := ⟨env.history.clear, env.registry⟩

/-- A node below the limit has no value in either form. -/
theorem Expr.sameValue_recall_of (depth : Nat) (e : Expr)
    (h : ¬ limit < depth → SameValue
      ((e.recall env.history.get?).evaluateAt env.forgetful limit depth)
      (e.evaluateAt env limit depth)) :
    SameValue ((e.recall env.history.get?).evaluateAt env.forgetful limit depth)
      (e.evaluateAt env limit depth) := by
  by_cases hdeep : limit < depth
  · rw [Expr.evaluateAt_of_lt _ hdeep, Expr.evaluateAt_of_lt _ hdeep]
    exact .of_error _ _
  · exact h hdeep

mutual

/-- **An expression sees the history in its references only.**  It has the value that it has
without a history when the results that the history holds are written into it. -/
theorem Expr.evaluateAt_recall (depth : Nat) : (e : Expr) →
    SameValue ((e.recall env.history.get?).evaluateAt env.forgetful limit depth)
      (e.evaluateAt env limit depth)
  | .literal position value => by
    refine Expr.sameValue_recall_of env limit depth _ fun h => ?_
    rw [Expr.recall, Expr.evaluateAt_literal _ h, Expr.evaluateAt_literal _ h]
    exact .refl _
  | .history position index => by
    refine Expr.sameValue_recall_of env limit depth _ fun h => ?_
    rw [Expr.recall]
    cases hfound : env.history.get? index with
    | some value =>
      rw [Expr.evaluateAt_literal _ h, Expr.evaluateAt_history _ h, Environment.resolveHistory,
        hfound]
      exact .refl _
    | none =>
      rw [Expr.evaluateAt_history _ h, Expr.evaluateAt_history _ h, Environment.resolveHistory,
        Environment.resolveHistory, hfound]
      exact .of_error _ _
  | .constant position name => by
    refine Expr.sameValue_recall_of env limit depth _ fun h => ?_
    rw [Expr.recall, Expr.evaluateAt_constant _ h, Expr.evaluateAt_constant _ h]
    exact .refl _
  | .unary position op operand => by
    refine Expr.sameValue_recall_of env limit depth _ fun h => ?_
    rw [Expr.recall, Expr.evaluateAt_unary _ h, Expr.evaluateAt_unary _ h]
    exact (Expr.evaluateAt_recall (depth + 1) operand).bind fun _ => .refl _
  | .binary position op left right => by
    refine Expr.sameValue_recall_of env limit depth _ fun h => ?_
    have hdepth : (left.recall env.history.get?).leftDepth depth = left.leftDepth depth := by
      rw [Expr.leftDepth, left.isInfix_recall, Expr.leftDepth]
    rw [Expr.recall, Expr.evaluateAt_binary _ h, Expr.evaluateAt_binary _ h, hdepth]
    exact (Expr.evaluateAt_recall (left.leftDepth depth) left).bind fun _ =>
      (Expr.evaluateAt_recall (depth + 1) right).bind fun _ => .refl _
  | .call position name arguments => by
    refine Expr.sameValue_recall_of env limit depth _ fun h => ?_
    rw [Expr.recall, Expr.evaluateAt_call _ h, Expr.evaluateAt_call _ h]
    refine (env.sameValue_resolveFunction position name _ _).bind fun function => ?_
    refine (Expr.evaluateAllAt_recall (depth + 1) arguments).bind fun values => ?_
    -- the texts of the two calls differ, but only errors show them
    split
    · exact .refl _
    · exact .of_error _ _

theorem Expr.evaluateAllAt_recall (depth : Nat) : (arguments : List Expr) →
    SameValue
      (Expr.evaluateAllAt env.forgetful limit depth (Expr.recallAll env.history.get? arguments))
      (Expr.evaluateAllAt env limit depth arguments)
  | [] => by
    rw [Expr.recallAll, Expr.evaluateAllAt_nil, Expr.evaluateAllAt_nil]
    exact .refl _
  | argument :: rest => by
    rw [Expr.recallAll, Expr.evaluateAllAt_cons, Expr.evaluateAllAt_cons]
    exact (Expr.evaluateAt_recall depth argument).bind fun _ =>
      (Expr.evaluateAllAt_recall depth rest).bind fun _ => .refl _

end

end

end TypedCalc
