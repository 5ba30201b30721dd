import TypedCalc.Proofs.Evaluation.Chain

/-!
# Evaluation on a stack

An evaluation on any stack is the one on a stack that never runs out, or ends because there is no
room for a call.  It takes two calls for each level of the tree, down to the deepest one or to the
limit, and what it takes to write out a call that an error quotes.

* `Expr.FitsOn`: the stacks with that much room.
* `Expr.cut_evaluate`: on any other stack the evaluation may end early, at the root of the tree.
* `Expr.cut_limit`: a limit changes nothing but that the evaluation may end early because of it.
* `Expr.evaluate_refines_meaning`: the evaluator and plain recursion, on every stack.
-/

namespace TypedCalc

open Result

/-! ## Room -/

mutual

/-- How many calls it takes to write out the largest call of a function in an expression. -/
def Expr.quotedCalls : Expr → Nat
  | .literal .. | .history .. | .constant .. => 0
  | .unary _ _ operand => operand.quotedCalls
  | .binary _ _ left right => max left.quotedCalls right.quotedCalls
  | .call position name arguments =>
    max (Expr.call position name arguments).describeCalls (Expr.quotedCallsAll arguments)

/-- How many calls it takes to write out the largest call of a function in some arguments. -/
def Expr.quotedCallsAll : List Expr → Nat
  | [] => 0
  | argument :: rest => max argument.quotedCalls (Expr.quotedCallsAll rest)

end

/-- Whether a stack has room for the evaluation of an expression under a limit: for two calls at
each level, down to the deepest one or to the first one below the limit, and for an error that
quotes a call. -/
def Expr.FitsOn (e : Expr) (limit : Int) (stack : Stack) : Prop :=
  ∃ levels : Nat, (e.chainDepth ≤ levels ∨ limit < levels) ∧
    stack.Holds (2 * (levels + 1) + e.quotedCalls)

/-- Whether there was no room for a call. -/
def EvaluationError.IsExhausted (error : EvaluationError) : Prop := error.fault = .stackExhausted

/-- One more call needs one more place. -/
theorem Stack.cut_descend {α : Type} {stack : Stack} {calls position : Nat}
    {body : Stack → Except EvaluationError α} {full : Except EvaluationError α} (inside : Nat)
    (hcalls : inside + 1 ≤ calls)
    (h : ∀ inner : Stack, Cut EvaluationError.IsExhausted (inner.Holds inside) (body inner) full) :
    Cut EvaluationError.IsExhausted (stack.Holds calls) (stack.descend position >>= body) full := by
  unfold descend
  cases hcall : stack.call? with
  | none =>
    have hnone : ¬ stack.Holds calls := by
      intro hholds
      obtain ⟨inner, hinner, -⟩ := holds_succ_iff.mp (hholds.mono hcalls)
      cases hcall.symm.trans hinner
    exact .inr ⟨hnone, _, rfl, rfl⟩
  | some inner => exact (h inner).mono fun hholds => (hholds.mono hcalls).of_call? hcall

theorem Expr.cut_quote {α : Type} (e : Expr) (stack : Stack) (result : Except EvaluationError α) :
    Cut EvaluationError.IsExhausted (stack.Holds e.describeCalls) (e.quote stack result)
      result := by
  by_cases h : stack.Holds e.describeCalls
  · exact .inl (quote_of_holds h result)
  · cases result with
    | ok a => exact .refl _
    | error error =>
      rw [quote, if_neg h]
      exact .inr ⟨h, _, rfl, rfl⟩

section

variable (env : Environment) {limit : Int} {depth : Nat}

theorem Expr.exists_of_isInfix {e : Expr} (h : e.isInfix = true) :
    ∃ position op left right, e = .binary position op left right := by
  cases e with
  | binary position op left right => exact ⟨position, op, left, right, rfl⟩
  | literal | history | constant | unary | call => cases h

/-- A node below the limit takes one call. -/
theorem Expr.cut_evaluateAt_of {stack : Stack} {calls : Nat} (hcalls : 1 ≤ calls) (e : Expr)
    (h : ¬ limit < depth → Cut EvaluationError.IsExhausted (stack.Holds calls)
      (e.evaluateAt env limit depth stack) (e.evaluateAt env limit depth)) :
    Cut EvaluationError.IsExhausted (stack.Holds calls)
      (e.evaluateAt env limit depth stack) (e.evaluateAt env limit depth) := by
  by_cases hdeep : limit < depth
  · rw [evaluateAt_of_lt_on env stack hdeep, evaluateAt_of_lt env hdeep]
    exact Stack.cut_descend 0 hcalls fun _ => .refl _
  · exact h hdeep

mutual

/-- **An evaluation fits on a stack** with two places for each level that it can come to, and those
that an error needs to quote a call. -/
theorem Expr.cut_evaluateAt (levels depth : Nat) (stack : Stack) : (e : Expr) →
    (e.chainDepth ≤ levels ∨ limit < (depth + levels : Nat)) →
    Cut EvaluationError.IsExhausted (stack.Holds (2 * (levels + 1) + e.quotedCalls))
      (e.evaluateAt env limit depth stack) (e.evaluateAt env limit depth)
  | .literal position value, _ => by
    refine cut_evaluateAt_of env (by omega) _ fun h => ?_
    rw [evaluateAt_literal_on env stack h, evaluateAt_literal env h]
    exact Stack.cut_descend 0 (by omega) fun _ => .refl _
  | .history position index, _ => by
    refine cut_evaluateAt_of env (by omega) _ fun h => ?_
    rw [evaluateAt_history_on env stack h, evaluateAt_history env h]
    exact Stack.cut_descend 0 (by omega) fun _ => .refl _
  | .constant position name, _ => by
    refine cut_evaluateAt_of env (by omega) _ fun h => ?_
    rw [evaluateAt_constant_on env stack h, evaluateAt_constant env h]
    exact Stack.cut_descend 0 (by omega) fun _ => .refl _
  | .unary position op operand, hlevels => by
    refine cut_evaluateAt_of env (by omega) _ fun h => ?_
    rw [chainDepth] at hlevels
    obtain ⟨below, rfl⟩ : ∃ below, levels = below + 1 := ⟨levels - 1, by omega⟩
    rw [evaluateAt_unary_on env stack h, evaluateAt_unary env h, quotedCalls]
    refine Stack.cut_descend (2 * (below + 1) + operand.quotedCalls) (by omega) fun inner => ?_
    exact (Expr.cut_evaluateAt below (depth + 1) inner operand (by omega)).bind fun _ => .refl _
  | .binary position op left right, hlevels => by
    refine cut_evaluateAt_of env (by omega) _ fun h => ?_
    have hfull := evaluateLeftAt_eq env h (.binary position op left right)
    rw [leftDepth, isInfix, if_pos rfl, evaluateLeftAt_binary] at hfull
    rw [chainDepth] at hlevels
    obtain ⟨below, rfl⟩ : ∃ below, levels = below + 1 := ⟨levels - 1, by omega⟩
    rw [evaluateAt_binary_on env stack h, ← hfull, quotedCalls]
    simp only [evaluateLeftAt_binary]
    refine Stack.cut_descend (2 * (below + 1) + max left.quotedCalls right.quotedCalls + 1)
      (by omega) fun inner => ?_
    refine Stack.cut_descend (2 * (below + 1) + max left.quotedCalls right.quotedCalls)
      (by omega) fun inner => ?_
    have hleft := Expr.cut_evaluateLeftAt h (below + 1) inner left (by omega)
    have hright := Expr.cut_evaluateAt below (depth + 1) inner right (by omega)
    refine .bind (hleft.mono fun hholds => hholds.mono (by omega)) fun leftValue => ?_
    exact .bind (hright.mono fun hholds => hholds.mono (by omega)) fun rightValue => .refl _
  | .call position name arguments, hlevels => by
    refine cut_evaluateAt_of env (by omega) _ fun h => ?_
    rw [chainDepth] at hlevels
    rw [evaluateAt_call_on env stack h, evaluateAt_call env h, quotedCalls]
    have hquote {α : Type} (inner : Stack) (result : Except EvaluationError α) :=
      ((Expr.call position name arguments).cut_quote inner result).mono fun
        (hholds : inner.Holds (2 * levels + max (Expr.call position name arguments).describeCalls
          (Expr.quotedCallsAll arguments))) => hholds.mono (by omega)
    refine Stack.cut_descend (2 * levels + max (Expr.call position name arguments).describeCalls
      (Expr.quotedCallsAll arguments) + 1) (by omega) fun inner => ?_
    refine Stack.cut_descend (2 * levels + max (Expr.call position name arguments).describeCalls
      (Expr.quotedCallsAll arguments)) (by omega) fun inner => ?_
    have harguments := Expr.cut_evaluateAllAt h levels inner arguments hlevels
    refine .bind (hquote inner _) fun function => ?_
    refine .bind (harguments.mono fun hholds => hholds.mono (by omega)) fun values => ?_
    split
    · exact .refl _
    · exact hquote inner _
termination_by e => (sizeOf e, 0)

/-- So does the operand at the start of a chain, in which levels are counted from the chain on. -/
theorem Expr.cut_evaluateLeftAt {depth : Nat} (h : ¬ limit < depth) (levels : Nat) (stack : Stack)
    (e : Expr)
    (hlevels : (if e.isInfix then e.chainDepth else e.chainDepth + 1) ≤ levels ∨
      limit < (depth + levels : Nat)) :
    Cut EvaluationError.IsExhausted (stack.Holds (2 * levels + e.quotedCalls))
      (e.evaluateLeftAt env limit depth stack) (e.evaluateLeftAt env limit depth) := by
  by_cases hinfix : e.isInfix = true
  · obtain ⟨position, op, left, right, he⟩ := exists_of_isInfix hinfix
    have hsmaller : sizeOf left < sizeOf e ∧ sizeOf right < sizeOf e := by
      rw [he, binary.sizeOf_spec]
      omega
    rw [if_pos hinfix, he, chainDepth] at hlevels
    obtain ⟨below, rfl⟩ : ∃ below, levels = below + 1 := ⟨levels - 1, by omega⟩
    rw [he, evaluateLeftAt_binary, evaluateLeftAt_binary, quotedCalls]
    have hleft := Expr.cut_evaluateLeftAt h (below + 1) stack left (by omega)
    have hright := Expr.cut_evaluateAt below (depth + 1) stack right (by omega)
    refine .bind (hleft.mono fun hholds => hholds.mono (by omega)) fun leftValue => ?_
    exact .bind (hright.mono fun hholds => hholds.mono (by omega)) fun rightValue => .refl _
  · rw [if_neg hinfix] at hlevels
    obtain ⟨below, rfl⟩ : ∃ below, levels = below + 1 := ⟨levels - 1, by omega⟩
    rw [Bool.not_eq_true] at hinfix
    rw [evaluateLeftAt_of_not_isInfix env limit stack depth hinfix,
      evaluateLeftAt_of_not_isInfix env limit .unlimited depth hinfix]
    exact Expr.cut_evaluateAt below (depth + 1) stack e (by omega)
termination_by (sizeOf e, 1)

theorem Expr.cut_evaluateAllAt {depth : Nat} (h : ¬ limit < depth) (levels : Nat) (stack : Stack) :
    (arguments : List Expr) →
    (Expr.chainDepthAll arguments ≤ levels ∨ limit < (depth + levels : Nat)) →
    Cut EvaluationError.IsExhausted (stack.Holds (2 * levels + Expr.quotedCallsAll arguments))
      (Expr.evaluateAllAt env limit (depth + 1) arguments stack)
      (Expr.evaluateAllAt env limit (depth + 1) arguments)
  | [], _ => by
    rw [evaluateAllAt_nil, evaluateAllAt_nil]
    exact .refl _
  | argument :: rest, hlevels => by
    rw [chainDepthAll] at hlevels
    obtain ⟨below, rfl⟩ : ∃ below, levels = below + 1 := ⟨levels - 1, by omega⟩
    rw [evaluateAllAt_cons, evaluateAllAt_cons, quotedCallsAll]
    have hargument := Expr.cut_evaluateAt below (depth + 1) stack argument (by omega)
    have hrest := Expr.cut_evaluateAllAt h (below + 1) stack rest (by omega)
    refine .bind (hargument.mono fun hholds => hholds.mono (by omega)) fun value => ?_
    exact .bind (hrest.mono fun hholds => hholds.mono (by omega)) fun values => .refl _
termination_by arguments => (sizeOf arguments, 0)

end

/-- **The stack shows only where an evaluation does not fit on it**, as an error at the root. -/
theorem Expr.cut_evaluate (limit : Int) (e : Expr) (stack : Stack) :
    Cut (· = ⟨.stackExhausted, e.position⟩) (e.FitsOn limit stack) (e.evaluate env limit stack)
      (e.evaluate env limit) := by
  have hcut (levels : Nat) (hlevels : e.chainDepth ≤ levels ∨ limit < levels) :=
    Expr.cut_evaluateAt env levels 0 stack e (by rwa [Nat.zero_add])
  rcases hcut e.chainDepth (.inl (Nat.le_refl _)) with heq | ⟨hroom, error, herror, hfault⟩
  · left
    rw [evaluate, heq, ← evaluate]
  · by_cases hfits : e.FitsOn limit stack
    · obtain ⟨levels, hlevels, hholds⟩ := hfits
      left
      rw [evaluate, (hcut levels hlevels).eq_of_room hholds, ← evaluate]
    · right
      refine ⟨hfits, _, ?_, rfl⟩
      obtain ⟨_, position⟩ := error
      obtain rfl := hfault
      rw [evaluate, herror]
      rfl

/-! ## Raising the limit -/

theorem Expr.exists_evaluateAt_eq_bind (limit : Int) (depth : Nat) (e : Expr) (stack : Stack) :
    ∃ body : Stack → Except EvaluationError Value,
      e.evaluateAt env limit depth stack = stack.descend e.position >>= body :=
  ⟨_, evaluateAt.eq_def env limit depth e stack⟩

/-- Whether an error is about the depth of the tree. -/
def EvaluationError.IsTooDeep (limit : Int) (error : EvaluationError) : Prop :=
  error.fault = .tooDeep limit

variable {larger : Int}

/-- A node below the limit is refused, and nodes below the larger limit are below both. -/
theorem Expr.cut_limit_of (hle : limit ≤ larger) (stack : Stack) (e : Expr)
    (h : ¬ limit < depth → ¬ larger < depth → Cut (EvaluationError.IsTooDeep limit) False
      (e.evaluateAt env limit depth stack) (e.evaluateAt env larger depth stack)) :
    Cut (EvaluationError.IsTooDeep limit) False
      (e.evaluateAt env limit depth stack) (e.evaluateAt env larger depth stack) := by
  by_cases hdeep : limit < depth
  · obtain ⟨body, hbody⟩ := e.exists_evaluateAt_eq_bind env larger depth stack
    rw [evaluateAt_of_lt_on env stack hdeep, hbody]
    exact .bind (.refl _) fun inner => .inr ⟨id, _, rfl, rfl⟩
  · exact h hdeep (by omega)

mutual

/-- **A larger limit changes nothing** but errors about the depth. -/
theorem Expr.cut_limit (hle : limit ≤ larger) (depth : Nat) (stack : Stack) : (e : Expr) →
    Cut (EvaluationError.IsTooDeep limit) False
      (e.evaluateAt env limit depth stack) (e.evaluateAt env larger depth stack)
  | .literal position value => by
    refine cut_limit_of env hle stack _ fun h h' => ?_
    rw [evaluateAt_literal_on env stack h, evaluateAt_literal_on env stack h']
    exact .refl _
  | .history position index => by
    refine cut_limit_of env hle stack _ fun h h' => ?_
    rw [evaluateAt_history_on env stack h, evaluateAt_history_on env stack h']
    exact .refl _
  | .constant position name => by
    refine cut_limit_of env hle stack _ fun h h' => ?_
    rw [evaluateAt_constant_on env stack h, evaluateAt_constant_on env stack h']
    exact .refl _
  | .unary position op operand => by
    refine cut_limit_of env hle stack _ fun h h' => ?_
    rw [evaluateAt_unary_on env stack h, evaluateAt_unary_on env stack h']
    refine .bind (.refl _) fun inner => ?_
    exact .bind (Expr.cut_limit hle (depth + 1) inner operand) fun value => .refl _
  | .binary position op left right => by
    refine cut_limit_of env hle stack _ fun h h' => ?_
    rw [evaluateAt_binary_on env stack h, evaluateAt_binary_on env stack h']
    simp only [evaluateLeftAt_binary]
    refine .bind (.refl _) fun inner => .bind (.refl _) fun inner => ?_
    refine .bind (Expr.cut_limit_left hle depth inner left) fun leftValue => ?_
    exact .bind (Expr.cut_limit hle (depth + 1) inner right) fun rightValue => .refl _
  | .call position name arguments => by
    refine cut_limit_of env hle stack _ fun h h' => ?_
    rw [evaluateAt_call_on env stack h, evaluateAt_call_on env stack h']
    refine .bind (.refl _) fun inner => .bind (.refl _) fun inner => ?_
    refine .bind (.refl _) fun function => ?_
    exact .bind (Expr.cut_limit_all hle (depth + 1) inner arguments) fun values => .refl _
termination_by e => (sizeOf e, 0)

theorem Expr.cut_limit_left (hle : limit ≤ larger) (depth : Nat) (stack : Stack) (e : Expr) :
    Cut (EvaluationError.IsTooDeep limit) False
      (e.evaluateLeftAt env limit depth stack) (e.evaluateLeftAt env larger depth stack) := by
  by_cases hinfix : e.isInfix = true
  · obtain ⟨position, op, left, right, he⟩ := exists_of_isInfix hinfix
    have hsmaller : sizeOf left < sizeOf e ∧ sizeOf right < sizeOf e := by
      rw [he, binary.sizeOf_spec]
      omega
    rw [he, evaluateLeftAt_binary, evaluateLeftAt_binary]
    refine .bind (Expr.cut_limit_left hle depth stack left) fun leftValue => ?_
    exact .bind (Expr.cut_limit hle (depth + 1) stack right) fun rightValue => .refl _
  · rw [Bool.not_eq_true] at hinfix
    rw [evaluateLeftAt_of_not_isInfix env limit stack depth hinfix,
      evaluateLeftAt_of_not_isInfix env larger stack depth hinfix]
    exact Expr.cut_limit hle (depth + 1) stack e
termination_by (sizeOf e, 1)

theorem Expr.cut_limit_all (hle : limit ≤ larger) (depth : Nat) (stack : Stack) :
    (arguments : List Expr) →
    Cut (EvaluationError.IsTooDeep limit) False
      (Expr.evaluateAllAt env limit depth arguments stack)
      (Expr.evaluateAllAt env larger depth arguments stack)
  | [] => by
    rw [evaluateAllAt_nil, evaluateAllAt_nil]
    exact .refl _
  | argument :: rest => by
    rw [evaluateAllAt_cons, evaluateAllAt_cons]
    refine .bind (Expr.cut_limit hle depth stack argument) fun value => ?_
    exact .bind (Expr.cut_limit_all hle depth stack rest) fun values => .refl _
termination_by arguments => (sizeOf arguments, 0)

end

end

/-! ## Refinement -/

/-- **The evaluator refines plain recursion.**  Where a tree does not fit on the stack, its
evaluation may end in an error at its root.  Otherwise a tree of at most `limit` levels has the
result of plain recursion, and in a deeper one evaluation ends at the first node below the limit,
unless plain recursion ends with an error before it comes to such a node; then that error is the
result.  A higher limit changes no result but the error about the limit. -/
theorem Expr.evaluate_refines_meaning (env : Environment) (limit : Int) (e : Expr)
    (stack : Stack) :
    (¬ e.FitsOn limit stack ∧
        e.evaluate env limit stack = .error ⟨.stackExhausted, e.position⟩ ∨
      (e.chainDepth ≤ limit → e.evaluate env limit stack = e.meaning env) ∧
      (limit < e.chainDepth →
        (∃ before visit after, e.visits env 0 = before ++ visit :: after ∧
          (∀ earlier ∈ before, (earlier.depth : Int) ≤ limit) ∧ limit < visit.depth ∧
          e.evaluate env limit stack = .error ⟨.tooDeep limit, visit.position⟩) ∨
        ∃ error, e.meaning env = .error error ∧
          (∀ visit ∈ e.visits env 0, (visit.depth : Int) ≤ limit) ∧
          e.evaluate env limit stack = .error error)) ∧
    ∀ larger, limit ≤ larger →
      (∀ position, e.evaluate env limit stack ≠ .error ⟨.tooDeep limit, position⟩) →
      e.evaluate env larger stack = e.evaluate env limit stack := by
  refine ⟨?_, fun larger hlarger hne => ?_⟩
  · rcases e.cut_evaluate env limit stack with heq | ⟨hfits, error, herror, rfl⟩
    · right
      rw [heq, evaluate_eq_evaluateAt, evaluateAt_eq_limited]
      exact e.limited_meaning env limit
    · exact .inl ⟨hfits, herror⟩
  · rcases Expr.cut_limit env hlarger 0 stack e with heq | ⟨-, error, herror, hfault⟩
    · rw [evaluate, evaluate, heq]
    · obtain ⟨_, position⟩ := error
      obtain rfl := hfault
      refine absurd ?_ (hne position)
      rw [evaluate, herror]
      rfl

/-- The tree of `1 + 2 - -3`, in which the operand of the prefix operator is two levels down. -/
def Expr.sample : Expr :=
  let digit (n : Int) : Value := ⟨.integer (.ofInt FixedInt.literalType n), none⟩
  .binary 6 (.arithmetic .subtract)
    (.binary 2 (.arithmetic .add) (.literal 0 (digit 1)) (.literal 4 (digit 2)))
    (.unary 8 .negate (.literal 9 (digit 3)))

/-- On a stack for ten calls two levels are enough for the sample, one level is not, and more change
nothing. -/
theorem Expr.evaluate_sample :
    let env : Environment := ⟨.empty 1 Nat.one_pos, ⟨[], []⟩⟩
    sample.evaluate env 2 ⟨some 10⟩ = sample.meaning env ∧
    (∃ position, sample.evaluate env 1 ⟨some 10⟩ = .error ⟨.tooDeep 1, position⟩) ∧
    sample.evaluate env 200 ⟨some 10⟩ = sample.evaluate env 2 ⟨some 10⟩ := by
  intro env
  obtain ⟨value, hmeaning⟩ : ∃ value, sample.meaning env = .ok value := ⟨_, rfl⟩
  have hfits (limit : Int) : sample.FitsOn limit ⟨some 10⟩ := ⟨2, .inl (by decide), by decide⟩
  obtain ⟨hshallow, hlarger⟩ := evaluate_refines_meaning env 2 sample ⟨some 10⟩
  obtain ⟨hdeep, -⟩ := evaluate_refines_meaning env 1 sample ⟨some 10⟩
  have hshallow := (hshallow.resolve_left fun h => h.1 (hfits 2)).1 (by decide)
  have hdeep := (hdeep.resolve_left fun h => h.1 (hfits 1)).2 (by decide)
  refine ⟨hshallow, ?_, hlarger 200 (by decide) ?_⟩
  · rcases hdeep with ⟨_, visit, _, _, _, _, herror⟩ | ⟨error, herror, _⟩
    · exact ⟨visit.position, herror⟩
    · exact nomatch hmeaning.symm.trans herror
  · intro position herror
    exact nomatch (hshallow.trans hmeaning).symm.trans herror

end TypedCalc
