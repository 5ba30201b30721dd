import TypedCalc.Proofs.Registry.Temperature
import TypedCalc.Proofs.Session
import TypedCalc.Proofs.Token.Partition

/-!
# Temperatures are doubles

With the built-in names, a value with a temperature unit is a double wherever it turns up: as a
literal, as the value of an expression, in the history and in the history file.

* `Calculator.givesOnly_value`: the value of a text is sound if the earlier results are.
* `Session.HoldsOnly.perform`: a step of a session keeps its values sound.
* `Session.temperatures_are_doubles`: so does every run.
-/

namespace TypedCalc

open Result

/-! ## Literals -/

namespace Token

/-- A suffix is put on the number. -/
theorem IsNumber.isSound {word : List Char} {v : Value} (h : IsNumber word v) : v.IsSound := by
  cases h with
  | plain h => exact Value.isSound_of_unit_eq_none rfl
  | withUnit h hsuffix hstops => exact Value.isSound_attach _ _

theorem isSound_of_ofText? {text : String} {tokens : List Token} (h : ofText? text = .ok tokens) :
    ∀ token ∈ tokens, ∀ value, token.kind = .number value → value.IsSound := by
  obtain ⟨words, rfl, hwords⟩ := exists_partitions h
  intro token hmem value hkind
  rcases List.mem_append.mp hmem with hmem | hlast
  · obtain ⟨before, word, rest, -, -, -, hword, -⟩ := hwords.standsIn token hmem
    rw [hkind] at hword
    cases hword with
    | number h => exact h.isSound
  · obtain rfl := List.mem_singleton.mp hlast
    cases hkind

end Token

/-! ## Texts -/

namespace Calculator

/-- The literals of a text are sound. -/
theorem givesOnly_parse (limit : Int) (text : String) :
    GivesOnly (Expr.HasLiterals Value.IsSound) (parse limit text) := by
  intro e he
  obtain ⟨tokens, htokens, he⟩ := bind_eq_ok_iff.mp he
  have htokens := mapError_eq_ok_iff.mp htokens
  have he := mapError_eq_ok_iff.mp he
  exact Expr.hasLiterals_of_ofTokens? he (Token.isSound_of_ofText? htokens)

/-- **The value of a text** is sound if the earlier results are. -/
theorem givesOnly_value {history : History} (h : ∀ v ∈ history.recent, v.IsSound)
    (library : MathLibrary) (nestingLimit evaluationLimit : Int) (text : String) :
    GivesOnly Value.IsSound (Calculator.value
      ⟨history, .standardWith library, nestingLimit, evaluationLimit⟩ text) := by
  refine .bind (givesOnly_parse nestingLimit text) fun e hliterals => ?_
  have hkeeps := Environment.keeps_isSound h library
  have hvalues := Expr.givesOnly_evaluateAt evaluationLimit hkeeps 0 e hliterals
  rw [← Expr.evaluate_eq_evaluateAt] at hvalues
  exact hvalues.mapError _

end Calculator

/-! ## Sessions -/

namespace Session

/-- How steps in order end, and the session after them. -/
def performAll (session : Session) : List Step → List Outcome × Session
  | [] => ([], session)
  | step :: rest =>
    let more := (session.perform step).2.performAll rest
    ((session.perform step).1 :: more.1, more.2)

/-- Whether all results of a session have a property, those in its file included. -/
structure HoldsOnly (p : Value → Prop) (session : Session) : Prop where
  recent : ∀ v ∈ session.history.recent, p v
  stored : ∀ v ∈ session.file.elim [] HistoryFile.storedValues, p v

variable {p : Value → Prop} {session : Session}

theorem HoldsOnly.push (h : session.HoldsOnly p) {v : Value} (hv : p v) :
    (session.withHistory (session.history.push v)).HoldsOnly p where
  recent := by
    intro w hw
    have hw : w ∈ v :: session.history.recent := List.mem_of_mem_take hw
    rcases List.mem_cons.mp hw with rfl | hw
    · exact hv
    · exact h.recent w hw
  stored := h.stored

theorem HoldsOnly.clear (h : session.HoldsOnly p) :
    (session.withHistory session.history.clear).HoldsOnly p where
  recent _ hw := absurd hw List.not_mem_nil
  stored := h.stored

theorem HoldsOnly.save (h : session.HoldsOnly p) :
    ({ session with file := some (HistoryFile.text session.history) } : Session).HoldsOnly p where
  recent := h.recent
  stored := by
    show ∀ v ∈ HistoryFile.storedValues (HistoryFile.text session.history), p v
    rw [HistoryFile.storedValues_text]
    exact fun v hv => h.recent v (List.mem_reverse.mp hv)

theorem HoldsOnly.load (h : session.HoldsOnly p) {capacity : Int} {loaded : History}
    {warnings : List HistoryFile.Warning}
    (hload : HistoryFile.load session.file capacity = .ok (loaded, warnings)) :
    (session.withHistory loaded).HoldsOnly p where
  recent := by
    intro v hv
    -- what is loaded is the end of what is stored
    have hlist : v ∈ loaded.toList := List.mem_reverse.mpr hv
    rw [(HistoryFile.load_eq_ok hload).2] at hlist
    exact h.stored v (List.mem_of_mem_drop hlist)
  stored := h.stored

/-- **A step** keeps the results of a session to a property that the values of texts have. -/
theorem HoldsOnly.perform (h : session.HoldsOnly p)
    (hvalue : ∀ text, GivesOnly p (session.calculator.value text)) {step : Step}
    (hpush : ∀ v, step = .push v → p v) :
    (session.perform step).2.HoldsOnly p ∧
      ∀ v, (session.perform step).1 = .value v → p v := by
  cases step with
  | evaluate text =>
    rw [perform_evaluate]
    cases hresult : session.calculator.value text with
    | ok value =>
      have hkept := hvalue text value hresult
      refine ⟨h.push hkept, ?_⟩
      rintro _ ⟨⟩
      exact hkept
    | error error => exact ⟨h, by rintro _ ⟨⟩⟩
  | push value => exact ⟨h.push (hpush value rfl), by rintro _ ⟨⟩⟩
  | clear => exact ⟨h.clear, by rintro _ ⟨⟩⟩
  | save => exact ⟨h.save, by rintro _ ⟨⟩⟩
  | load capacity =>
    rw [Session.perform]
    cases hload : HistoryFile.load session.file capacity with
    | ok result => exact ⟨h.load hload, by rintro _ ⟨⟩⟩
    | error fault => exact ⟨h, by rintro _ ⟨⟩⟩

/-- A step changes no more of the calculator than its history. -/
theorem calculator_perform (session : Session) (step : Step) :
    ∃ history, (session.perform step).2.calculator =
      { session.calculator with history := history } := by
  cases step with
  | evaluate text =>
    rw [perform_evaluate]
    cases session.calculator.value text with
    | ok value => exact ⟨_, rfl⟩
    | error error => exact ⟨session.calculator.history, rfl⟩
  | push | clear => exact ⟨_, rfl⟩
  | save => exact ⟨session.calculator.history, rfl⟩
  | load capacity =>
    rw [Session.perform]
    cases HistoryFile.load session.file capacity with
    | ok result => exact ⟨_, rfl⟩
    | error fault => exact ⟨session.calculator.history, rfl⟩

/-- **A run** keeps the results of a session to a property that the values of texts have, as long
as the earlier results have it. -/
theorem HoldsOnly.performAll (h : session.HoldsOnly p)
    (hvalue : ∀ history : History, (∀ v ∈ history.recent, p v) → ∀ text,
      GivesOnly p ({ session.calculator with history := history }.value text))
    {steps : List Step} (hpush : ∀ v, .push v ∈ steps → p v) :
    (session.performAll steps).2.HoldsOnly p ∧
      ∀ v, .value v ∈ (session.performAll steps).1 → p v := by
  induction steps generalizing session with
  | nil => exact ⟨h, fun _ hmem => absurd hmem List.not_mem_nil⟩
  | cons step rest ih =>
    obtain ⟨hnext, houtcome⟩ := h.perform (hvalue session.history h.recent)
      fun v hv => hpush v (hv ▸ List.mem_cons_self ..)
    obtain ⟨history, hcalculator⟩ := session.calculator_perform step
    obtain ⟨hlast, houtcomes⟩ := ih hnext (by rw [hcalculator]; exact hvalue)
      fun v hv => hpush v (List.mem_cons_of_mem _ hv)
    refine ⟨hlast, fun v hv => ?_⟩
    rcases List.mem_cons.mp hv with hv | hv
    · exact houtcome v hv.symm
    · exact houtcomes v hv

/-- **Temperatures are doubles.**  With the built-in names the value of a text is sound if the
earlier results are.  So from an empty history and no file, whatever is evaluated, cleared, saved
and loaded, every value that is given and every result that is kept is sound. -/
theorem temperatures_are_doubles (library : MathLibrary) (nestingLimit evaluationLimit : Int) :
    (∀ history : History, (∀ v ∈ history.recent, v.IsSound) → ∀ text value next,
      (Calculator.mk history (.standardWith library) nestingLimit evaluationLimit).evaluate text =
        .ok (value, next) → value.IsSound) ∧
    ∀ (capacity : Nat) (hcapacity : 0 < capacity) (steps : List Step),
      (∀ v, .push v ∈ steps → v.IsSound) →
      let start : Session := ⟨⟨.empty capacity hcapacity, .standardWith library, nestingLimit,
        evaluationLimit⟩, none⟩
      (∀ v, .value v ∈ (start.performAll steps).1 → v.IsSound) ∧
        ∀ v ∈ (start.performAll steps).2.history.recent, v.IsSound := by
  constructor
  · intro history hhistory text value next h
    obtain ⟨found, hfound, hresult⟩ := bind_eq_ok_iff.mp h
    cases hresult
    exact Calculator.givesOnly_value hhistory library _ _ text value hfound
  · intro capacity hcapacity steps hpush start
    have hstart : start.HoldsOnly Value.IsSound :=
      ⟨fun _ hmem => absurd hmem List.not_mem_nil, fun _ hmem => absurd hmem List.not_mem_nil⟩
    obtain ⟨hlast, hvalues⟩ := hstart.performAll
      (fun history hhistory text => Calculator.givesOnly_value hhistory library _ _ text) hpush
    exact ⟨hvalues, hlast.recent⟩

/-- The sum of an integer and a temperature is computed with integers and is a temperature. -/
theorem temperatures_are_doubles_coerced :
    0 < 2 ∧ (∀ v, .push v ∈ [Step.push (.integer .u8 20), .evaluate "$0 + 5°C"] → v.IsSound) ∧
      ∃ v, ((Session.mk fresh none).performAll [.push (.integer .u8 20), .evaluate "$0 + 5°C"]).1 =
        [.done, .value v] ∧ v.unit = some (.temperature .celsius) ∧ v.IsSound := by
  have hpush : ∀ v, .push v ∈ [Step.push (.integer .u8 20), .evaluate "$0 + 5°C"] →
      v.IsSound := by
    intro v hv
    simp only [List.mem_cons, Step.push.injEq, List.not_mem_nil, or_false, reduceCtorEq] at hv
    obtain rfl := hv
    exact Value.isSound_of_unit_eq_none rfl
  have hsecond : ∃ v, (((Session.mk fresh none).perform (.push (.integer .u8 20))).2.perform
      (.evaluate "$0 + 5°C")).1 = .value v ∧ v.unit = some (.temperature .celsius) :=
    ⟨_, by with_unfolding_all rfl, by with_unfolding_all rfl⟩
  obtain ⟨v, hv, hunit⟩ := hsecond
  have hall : ((Session.mk fresh none).performAll
      [.push (.integer .u8 20), .evaluate "$0 + 5°C"]).1 = [.done, .value v] := by
    rw [performAll, performAll, hv]
    rfl
  have hsound := (temperatures_are_doubles .platform Expr.defaultLimit
    Expr.defaultEvaluationLimit).2 2 (by decide) _ hpush
  refine ⟨by decide, hpush, v, hall, hunit, hsound.1 v ?_⟩
  show _ ∈ ((Session.mk fresh none).performAll _).1
  rw [hall]
  exact List.mem_cons_of_mem _ (List.mem_cons_self ..)

end Session

end TypedCalc
