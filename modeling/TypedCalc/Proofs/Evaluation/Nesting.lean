import TypedCalc.Proofs.Evaluation.Stack
import TypedCalc.Proofs.Expr.Nesting
import TypedCalc.Proofs.Expr.Stairs
import TypedCalc.Proofs.Limits

/-!
# The limit of nesting and the depth of an evaluation

The parser limits how many groups, calls and prefix operators are open, the evaluator how deep the
tree is.  The first limit bounds the second: ten levels for each that is open, and nine.

* `Expr.meaning_ne_tooDeep`: without a limit no evaluation ends because of the depth.
* `Expr.Stairs.exceeds`: stairs are as deep as any tree of their nesting.
* `Expr.Stairs.fitsOn`: the room that their evaluation takes.
* `Expr.nesting_bounds_depth`: the bound, and that no smaller one will do.
-/

namespace TypedCalc.Expr

/-! ## The bound -/

/-- Plain recursion never ends because of the depth. -/
theorem meaning_ne_tooDeep (env : Environment) (e : Expr) (limit : Int) (position : Nat) :
    e.meaning env ≠ .error ⟨.tooDeep limit, position⟩ :=
  fun h => (e.failsOnly_isOfNode env _ h).2.1 limit rfl

/-- A limit that no visited node is below does not show. -/
theorem evaluate_eq_meaning {env : Environment} {limit : Int} {e : Expr}
    (h : ∀ visit ∈ e.visits env 0, (visit.depth : Int) ≤ limit) :
    e.evaluate env limit = e.meaning env := by
  rw [evaluate_eq_evaluateAt, evaluateAt_eq_limited, limited_of_forall_le h]

/-! ## Stairs reach it -/

/-- An operator between a number and an operand that is too deep is too deep. -/
theorem exceeds_binary {env : Environment} {limit : Int} {depth : Nat} {right : Expr}
    (h : ∃ position, right.evaluateAt env limit (depth + 1) = .error ⟨.tooDeep limit, position⟩)
    (position operand : Nat) (op : InfixOperator) (value : Value) :
    ∃ place, (binary position op (literal operand value) right).evaluateAt env limit depth =
      .error ⟨.tooDeep limit, place⟩ := by
  by_cases hdeep : limit < depth
  · exact ⟨_, evaluateAt_of_lt env hdeep _⟩
  have hleft : (literal operand value).leftDepth depth = depth + 1 := rfl
  rw [evaluateAt_binary env hdeep, hleft]
  -- the number is one level down as well, and the limit may be there already
  by_cases hoperand : limit < (depth + 1 : Nat)
  · refine ⟨operand, ?_⟩
    rw [evaluateAt_of_lt env hoperand (literal operand value)]
    rfl
  · obtain ⟨place, hright⟩ := h
    refine ⟨place, ?_⟩
    rw [evaluateAt_literal env hoperand, hright]
    rfl

/-- A call of a known function with an argument that is too deep is too deep. -/
theorem exceeds_call {env : Environment} {limit : Int} {depth : Nat} {argument : Expr}
    (h : ∃ position, argument.evaluateAt env limit (depth + 1) =
      .error ⟨.tooDeep limit, position⟩)
    {name : String} {function : NamedFunction} (hname : env.registry.function? name = some function)
    (position : Nat) :
    ∃ place, (call position name [argument]).evaluateAt env limit depth =
      .error ⟨.tooDeep limit, place⟩ := by
  by_cases hdeep : limit < depth
  · exact ⟨_, evaluateAt_of_lt env hdeep _⟩
  obtain ⟨place, hargument⟩ := h
  refine ⟨place, ?_⟩
  rw [evaluateAt_call env hdeep, evaluateAllAt_cons, hargument]
  simp only [Environment.resolveFunction, hname]
  rfl

/-- **Stairs are deep.**  Each level is one node deeper than the one before it, and so is the
argument of each call. -/
theorem Stairs.exceeds {name : String} {level calls : Nat} {tokens : List Token} {e : Expr}
    (h : Stairs name level calls tokens e) (env : Environment) {function : NamedFunction}
    (hname : env.registry.function? name = some function) {limit : Int} {depth : Nat}
    (hlimit : limit < (depth + (10 * calls + (InfixOperator.levelCount - level)) : Nat)) :
    ∃ position, e.evaluateAt env limit depth = .error ⟨.tooDeep limit, position⟩ := by
  induction h generalizing depth with
  | number h =>
    rw [Nat.sub_self] at hlimit
    exact ⟨_, evaluateAt_of_lt env hlimit _⟩
  | call h hopening hclosing inner ih =>
    have hcount := InfixOperator.levelCount_eq
    exact exceeds_call (ih (by omega)) hname _
  | @step _ _ _ level _ op _ _ h hop inner ih =>
    have hlevel : level < InfixOperator.levelCount := hop.lt_length
    exact exceeds_binary (ih (by omega)) _ _ op _

/-- The text of stairs takes a call for each level and two for each call of a function. -/
theorem Stairs.describeCalls_le {name : String} {level calls : Nat} {tokens : List Token} {e : Expr}
    (h : Stairs name level calls tokens e) :
    e.describeCalls ≤ 11 * calls + (InfixOperator.levelCount - level) + 1 := by
  have hcount := InfixOperator.levelCount_eq
  induction h with
  | number h =>
    rw [describeCalls]
    omega
  | call h hopening hclosing inner ih =>
    rw [describeCalls, describeCallsAll, describeCallsAll]
    omega
  | @step _ _ _ level _ op _ _ h hop inner ih =>
    have hlevel : level < InfixOperator.levelCount := hop.lt_length
    rw [describeCalls, describeCalls]
    omega

/-- The outermost call is the longest one that an error can quote. -/
theorem Stairs.quotedCalls_le {name : String} {level calls : Nat} {tokens : List Token} {e : Expr}
    (h : Stairs name level calls tokens e) : e.quotedCalls ≤ e.describeCalls := by
  induction h with
  | number h =>
    rw [quotedCalls]
    exact Nat.zero_le _
  | call h hopening hclosing inner ih =>
    rw [quotedCalls, quotedCallsAll, quotedCallsAll, describeCalls, describeCallsAll,
      describeCallsAll]
    omega
  | step h hop inner ih =>
    rw [quotedCalls, quotedCalls, describeCalls, describeCalls]
    omega

/-- How many calls stairs take for each call of a function in them and for what is around these. -/
def callsPerStair : Nat := 31

/-- There is room for stairs on a stack with so many places for each of their calls. -/
theorem Stairs.fitsOn {name : String} {calls : Nat} {tokens : List Token} {e : Expr}
    (h : Stairs name 0 calls tokens e) {stack : Stack}
    (hstack : stack.Holds (callsPerStair * (calls + 1))) : e.FitsOn (10 * calls + 8) stack := by
  have hcount := InfixOperator.levelCount_eq
  have hdescribe := h.describeCalls_le
  have hquoted := h.quotedCalls_le
  refine ⟨10 * calls + 9, .inr (by omega), hstack.mono ?_⟩
  rw [callsPerStair]
  omega

/-- **Nesting bounds depth.**  Let an expression be read while at most `nesting` groups, calls and
prefix operators are open.  Then plain recursion visits no node more than `10 * nesting + 9` levels
down, and an evaluation that allows so many levels is plain recursion where there is room for it on
the stack, and never ends because of the depth.  An evaluation that allows one level less does, for
one of these expressions, on every interpreter with room for it. -/
theorem nesting_bounds_depth (nesting : Nat) :
    (∀ tokens text stack e, ofTokens? tokens text nesting stack = .ok e → ∀ env : Environment,
      (∀ visit ∈ e.visits env 0, visit.depth ≤ 10 * nesting + 9) ∧
      ∀ (limit : Int) (stack : Stack), 10 * nesting + 9 ≤ limit →
        (e.evaluate env limit stack = e.meaning env ∨
          ¬ e.FitsOn limit stack ∧
            e.evaluate env limit stack = .error ⟨.stackExhausted, e.position⟩) ∧
        ∀ found position, e.evaluate env limit stack ≠ .error ⟨.tooDeep found, position⟩) ∧
    ∃ text e, ∀ interpreter : Interpreter,
      interpreter.stack.Holds (callsPerStair * (nesting + 1)) → ConvertsDigit interpreter.digits →
        Calculator.parse nesting text interpreter = .ok e ∧
        ∀ history library, ∃ position,
          e.evaluate ⟨history, .standardWith library⟩ (10 * nesting + 8) interpreter.stack =
            .error ⟨.tooDeep (10 * nesting + 8), position⟩ := by
  constructor
  · intro tokens text stack e hstack env
    have hparse : ofTokens? tokens text nesting = .ok e := by
      rcases cut_ofTokens? tokens text nesting stack with heq | ⟨-, error, herror, -⟩
      · exact heq.symm.trans hstack
      · cases hstack.symm.trans herror
    have hdepth := chainDepth_le_of_ofTokens? (by omega) hparse
    have hvisits : ∀ visit ∈ e.visits env 0, visit.depth ≤ 10 * nesting + 9 := by
      intro visit hmem
      have hvisit := depth_le_of_mem_visits env 0 e hmem
      omega
    refine ⟨hvisits, fun limit stack hlimit => ?_⟩
    have hmeaning : e.evaluate env limit = e.meaning env := by
      refine evaluate_eq_meaning fun visit hmem => ?_
      have hvisit := hvisits visit hmem
      omega
    rcases e.cut_evaluate env limit stack with heq | ⟨hfits, error, herror, rfl⟩
    · rw [heq, hmeaning]
      exact ⟨.inl rfl, e.meaning_ne_tooDeep env⟩
    · rw [herror]
      exact ⟨.inr ⟨hfits, rfl⟩, fun found position => by rintro ⟨⟩⟩
  · have habs : IsIdentifier "abs" := ⟨⟨'a', rfl, rfl⟩, List.all_eq_true.mp rfl⟩
    obtain ⟨text, tokens, last, e, htokens, hstairs, htree⟩ := exists_stairs habs nesting
    refine ⟨text, e, fun interpreter hstack hdigits => ⟨?_, fun history library => ?_⟩⟩
    · have hfits : TokensFitOn (tokens ++ [last]) nesting interpreter.stack :=
        ⟨nesting, .inl (Int.le_refl _), hstack.mono (by rw [callsPerOpener, callsPerStair]; omega)⟩
      rw [Calculator.parse_of_ofText? (htokens _ hdigits), (cut_ofTokens? ..).eq_of_room hfits,
        htree]
      rfl
    · have hcount := InfixOperator.levelCount_eq
      have hname : ∃ function, (Registry.standardWith library).function? "abs" = some function :=
        ⟨_, rfl⟩
      obtain ⟨function, hname⟩ := hname
      rw [(e.cut_evaluate _ _ _).eq_of_room (hstairs.fitsOn hstack), evaluate_eq_evaluateAt]
      exact hstairs.exceeds ⟨history, .standardWith library⟩ hname (by omega)

/-- With one call inside an expression 19 levels are enough, and for some such expression 18 are
not, on a stack for a hundred calls. -/
theorem nesting_bounds_depth_one :
    ∃ text e, Calculator.parse 1 text ⟨⟨some 100⟩, some 640⟩ = .ok e ∧ ∀ history library,
      let env : Environment := ⟨history, .standardWith library⟩
      (∃ position, e.evaluate env 18 ⟨some 100⟩ = .error ⟨.tooDeep 18, position⟩) ∧
        e.evaluate env 19 = e.meaning env := by
  obtain ⟨hbound, text, e, hdeep⟩ := nesting_bounds_depth 1
  obtain ⟨hparse, hdeep⟩ := hdeep ⟨⟨some 100⟩, some 640⟩ (by decide) (by rintro _ ⟨⟩; decide)
  refine ⟨text, e, hparse, fun history library => ⟨hdeep history library, ?_⟩⟩
  obtain ⟨tokens, -, htree⟩ := Result.bind_eq_ok_iff.mp hparse
  obtain ⟨-, hlarger⟩ := hbound tokens _ _ e (Result.mapError_eq_ok_iff.mp htree)
    ⟨history, .standardWith library⟩
  obtain ⟨hmeaning, -⟩ := hlarger 19 .unlimited (by decide)
  exact hmeaning.resolve_right fun hcut => hcut.1 ⟨e.chainDepth, .inl (Nat.le_refl _), nofun⟩

end TypedCalc.Expr
