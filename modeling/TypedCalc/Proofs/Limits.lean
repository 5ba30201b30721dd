import TypedCalc.Calculator
import TypedCalc.Proofs.Evaluation.Chain
import TypedCalc.Proofs.Expr.Blame

/-!
# The limits that errors are about

An error about the capacity of a history or about the depth of nesting is about that of the
calculator.  So two wordings of limits that agree on those give the same report.

* `Expr.failsOnly_concerns`: what an evaluation says about a capacity.
* `Expr.failsOnly_concerns_ofTokens?`: what the parser says about a depth.
* `Calculator.report_congr`: the reports on the errors of a calculator.
-/

namespace TypedCalc

open Result

/-! ## The capacity of the history -/

theorem EvaluationFault.report_congr {capacity : Nat} {fault : EvaluationFault}
    (h : fault.Concerns capacity) {a b : LimitWording}
    (hwording : a.capacity capacity = b.capacity capacity) : fault.report a = fault.report b := by
  cases fault with
  | historyOutOfRange index size found =>
    obtain rfl := h index size found rfl
    simp only [report, hwording]
  | _ => rfl

section

variable (env : Environment)

/-- **An evaluation** speaks of no other capacity than that of its history. -/
theorem Expr.failsOnly_concerns (limit : Int) (depth : Nat) (e : Expr) :
    FailsOnly (fun error => error.fault.Concerns env.history.capacity)
      (e.evaluateAt env limit depth) := by
  rw [Expr.evaluateAt_eq_limited]
  unfold limited
  split
  · exact .error nofun
  · exact (e.failsOnly_isOfNode env).mono fun _ h => h.1

end

/-! ## The depth of nesting -/

/-- Whether a fault is about no other depth of nesting than a given one. -/
def GrammarFault.Concerns (limit : Int) (fault : GrammarFault) : Prop :=
  ∀ found, fault = .tooDeep found ∨ fault = .stackExhausted found → found = limit

theorem GrammarFault.report_congr {limit : Int} {fault : GrammarFault} (h : fault.Concerns limit)
    {a b : LimitWording} (hwording : a.nesting limit = b.nesting limit) :
    fault.report a = fault.report b := by
  cases fault with
  | tooDeep found =>
    obtain rfl := h found (.inl rfl)
    simp only [report, hwording]
  | stackExhausted found =>
    obtain rfl := h found (.inr rfl)
    simp only [report, hwording]
  | _ => rfl

namespace Expr

/-- Whether an outcome is about no other depth of nesting than the limit. -/
def Outcome.Concerns (limit : Int) : Outcome → Prop
  | .stop failure => failure.error.fault.Concerns limit
  | _ => True

theorem Outcome.concerns_close (limit : Int) (source : Source) (opened : Nat) (e : Expr)
    (s : State) : (Outcome.close source opened e s).Concerns limit := by
  rcases Outcome.close_cases source opened e s with
    ⟨_, _, _, _, _, _, _, hclose⟩ | ⟨fault, position, hclose, hfault⟩
  · rw [hclose]
    trivial
  · rw [hclose]
    rcases hfault with ⟨rfl, -⟩ | ⟨rfl, -⟩ | ⟨_, rfl, -⟩ <;> exact nofun

theorem Run.concerns {source : Source} {phase : Phase} {s : State} {o : Outcome}
    (h : Run source phase s o) : o.Concerns source.limit := by
  induction h with
  | prefixDeep | groupDeep | callDeep =>
    rintro _ (h | h) <;> cases h
    rfl
  | group | callEmpty | call => exact Outcome.concerns_close _ _ _ _ _
  | @unexpected s h =>
    rintro _ (hdeep | hdeep) <;>
      exact absurd hdeep (s.unexpected_fault_ne source nofun nofun fun _ => nofun)
  | argumentMissing h => exact nofun
  | chainEnd | prefixed | number | history | constant | argumentLast | argument => trivial
  | top | level | levelStop | chain | chainStop | unprefixed | prefixStop | groupStop | callStop
  | argumentStop | argumentsStop => assumption

/-- **The parser** speaks of no other depth of nesting than its limit. -/
theorem failsOnly_concerns_ofTokens? (tokens : List Token) (text : List Char) (limit : Int) :
    FailsOnly (fun error => error.fault.Concerns limit) (ofTokens? tokens text limit) := by
  intro error herror
  by_cases hempty : (({ rest := tokens } : State).current ⟨text, limit⟩).kind = .endOfInput
  · cases (ofTokens?_of_empty hempty).symm.trans herror
    exact nofun
  rcases exists_run_level ⟨text, limit⟩ 0 { rest := tokens } with ⟨e, after, hrun⟩ | ⟨failure, hrun⟩
  · rw [ofTokens?_of_expr hempty hrun] at herror
    rcases after.finish_cases ⟨text, limit⟩ e with ⟨_, hfinish⟩ | ⟨_, fault, hfault, hfinish⟩
    · rw [hfinish] at herror
      exact nomatch herror
    · rw [hfinish] at herror
      cases herror
      rcases hfault with rfl | rfl <;> exact nofun
  · cases (ofTokens?_of_stop hempty hrun).symm.trans herror
    exact hrun.concerns

end Expr

/-! ## The errors of a calculator -/

/-- **The report on an error of a calculator** depends on the wording of the limits of that
calculator only. -/
theorem Calculator.report_congr {calculator : Calculator} {text : String} {error : CalculatorError}
    (h : calculator.value text = .error error) {a b : LimitWording}
    (hcapacity : a.capacity calculator.history.capacity = b.capacity calculator.history.capacity)
    (hnesting : a.nesting calculator.nestingLimit = b.nesting calculator.nestingLimit) :
    error.report a = error.report b := by
  rcases bind_eq_error_iff.mp h with hparse | ⟨e, -, hevaluate⟩
  · rcases bind_eq_error_iff.mp hparse with hlexical | ⟨tokens, -, hgrammar⟩
    · obtain ⟨lexical, -, rfl⟩ := mapError_eq_error_iff.mp hlexical
      rfl
    · obtain ⟨grammar, htree, rfl⟩ := mapError_eq_error_iff.mp hgrammar
      have hconcerns := Expr.failsOnly_concerns_ofTokens? _ _ _ grammar htree
      exact congrArg (·.atPosition grammar.position)
        (GrammarFault.report_congr hconcerns hnesting)
  · obtain ⟨evaluation, hvalue, rfl⟩ := mapError_eq_error_iff.mp hevaluate
    rw [Expr.evaluate_eq_evaluateAt] at hvalue
    have hconcerns := Expr.failsOnly_concerns _ _ 0 e evaluation hvalue
    exact congrArg (·.atPosition evaluation.position)
      (EvaluationFault.report_congr hconcerns hcapacity)

end TypedCalc
