import TypedCalc.Proofs.Evaluation.Recall
import TypedCalc.Proofs.Expr.RoundTrip
import TypedCalc.Proofs.HistoryFile.RoundTrip

/-!
# Sessions

A session is a calculator with the file that its history is kept in.  It goes from one step to the
next: a text is evaluated, a value is pushed, the history is cleared, saved or loaded.

What the history should hold is said by a ledger, which forgets nothing.  It is kept from the steps
and their outcomes alone.

* `Session.Keeps.perform`: one step keeps the history in accord with the ledger.
* `Session.run_faithful`: so does every run, and the history, its indexing and the references in
  expressions show the newest entries of the ledger, as many as the capacity allows.
-/

namespace TypedCalc

/-! ## Steps -/

/-- A calculator and its history file, if there is one. -/
structure Session where
  /-- The calculator. -/
  calculator : Calculator
  /-- The text of the file. -/
  file : Option String

/-- What can be done in a session. -/
inductive Step
  /-- A text is evaluated. -/
  | evaluate (text : String)
  /-- A value becomes the most recent result. -/
  | push (value : Value)
  /-- All results are forgotten. -/
  | clear
  /-- The history is written to the file. -/
  | save
  /-- The history is read from the file, with a capacity. -/
  | load (capacity : Int)

/-- Why a step fails. -/
inductive StepFault
  /-- The text has no value. -/
  | evaluation (error : CalculatorError)
  /-- The file cannot be read. -/
  | load (fault : HistoryFile.LoadFault)

/-- How a step ends. -/
inductive Outcome
  /-- A text has a value. -/
  | value (value : Value)
  /-- Any other step is done. -/
  | done
  /-- The step fails. -/
  | failed (fault : StepFault)

namespace Session

/-- The history of the calculator. -/
def history (session : Session) : History := session.calculator.history

/-- The session with another history. -/
def withHistory (session : Session) (history : History) : Session :=
  { session with calculator := { session.calculator with history := history } }

/-- A step: how it ends, and the session after it. -/
def perform (session : Session) : Step → Outcome × Session
  | .evaluate text =>
    match session.calculator.evaluate text with
    | .ok (value, calculator) => (.value value, { session with calculator := calculator })
    | .error error => (.failed (.evaluation error), session)
  | .push value => (.done, session.withHistory (session.history.push value))
  | .clear => (.done, session.withHistory session.history.clear)
  | .save => (.done, { session with file := some (HistoryFile.text session.history) })
  | .load capacity =>
    match HistoryFile.load session.file capacity with
    | .ok (history, _) => (.done, session.withHistory history)
    | .error fault => (.failed (.load fault), session)

end Session

/-! ## Ledgers -/

/-- Everything that happened to a history. -/
structure Ledger where
  /-- How many results can be seen. -/
  capacity : Nat
  /-- All results since the last time the history was cleared or loaded, the oldest first. -/
  log : List Value
  /-- The results in the file, the oldest first. -/
  stored : List Value

namespace Ledger

/-- The ledger at the start, with the first results and the text of the file. -/
def start (capacity : Nat) (initial : List Value) (file : Option String) : Ledger :=
  ⟨capacity, initial, file.elim [] HistoryFile.storedValues⟩

/-- The ledger after a step that ended in some way. -/
def record (ledger : Ledger) : Step → Outcome → Ledger
  | _, .failed _ => ledger
  | .evaluate _, .value value => { ledger with log := ledger.log ++ [value] }
  | .evaluate _, .done => ledger
  | .push value, _ => { ledger with log := ledger.log ++ [value] }
  | .clear, _ => { ledger with log := [] }
  | .save, _ => { ledger with stored := ledger.log.rtake ledger.capacity }
  | .load capacity, _ => { ledger with capacity := capacity.toNat, log := ledger.stored }

/-- How many results can be seen. -/
def visible (ledger : Ledger) : Nat := min ledger.capacity ledger.log.length

/-- The result that many steps back, among those that can be seen. -/
def newest? (ledger : Ledger) (index : Nat) : Option Value :=
  if index < ledger.visible then ledger.log[ledger.log.length - 1 - index]? else none

theorem newest?_eq (ledger : Ledger) (index : Nat) :
    ledger.newest? index = (ledger.log.reverse.take ledger.capacity)[index]? := by
  unfold newest? visible
  rw [List.getElem?_take]
  split
  · rename_i h
    rw [if_pos (by omega), List.getElem?_reverse (by omega)]
  · rename_i h
    by_cases hcapacity : index < ledger.capacity
    · rw [if_pos hcapacity, List.getElem?_eq_none (by rw [List.length_reverse]; omega)]
    · rw [if_neg hcapacity]

theorem newest?_eq_none_iff (ledger : Ledger) (index : Nat) :
    ledger.newest? index = none ↔ ledger.visible ≤ index := by
  rw [newest?_eq, List.getElem?_eq_none_iff, List.length_take, List.length_reverse]
  exact Iff.rfl

end Ledger

/-- A run: the session and the ledger after steps in order. -/
def Session.run (session : Session) (ledger : Ledger) : List Step → Session × Ledger
  | [] => (session, ledger)
  | step :: rest =>
    (session.perform step).2.run (ledger.record step (session.perform step).1) rest

/-! ## One step -/

namespace Session

/-- Whether a session holds what its ledger says. -/
structure Keeps (session : Session) (ledger : Ledger) : Prop where
  capacity : session.history.capacity = ledger.capacity
  recent : session.history.recent = ledger.log.reverse.take ledger.capacity
  stored : session.file.elim [] HistoryFile.storedValues = ledger.stored

theorem Keeps.get? {session : Session} {ledger : Ledger} (h : session.Keeps ledger) (index : Nat) :
    session.history.get? index = ledger.newest? index := by
  rw [History.get?, h.recent, ledger.newest?_eq]

theorem Keeps.toList {session : Session} {ledger : Ledger} (h : session.Keeps ledger) :
    session.history.toList = ledger.log.rtake ledger.capacity := by
  rw [History.toList, h.recent, List.rtake_eq_reverse_take_reverse]

/-- Cutting off twice cuts off as much as once. -/
theorem take_cons_take {α : Type} (a : α) (values : List α) (count : Nat) :
    (a :: values.take count).take count = (a :: values).take count := by
  cases count with
  | zero => rfl
  | succ count =>
    rw [List.take_succ_cons, List.take_succ_cons, List.take_take,
      Nat.min_eq_left (Nat.le_succ count)]

/-- A new result becomes the newest of the ledger. -/
theorem Keeps.push {session : Session} {ledger : Ledger} (h : session.Keeps ledger)
    (value : Value) : (session.withHistory (session.history.push value)).Keeps
      { ledger with log := ledger.log ++ [value] } where
  capacity := h.capacity
  recent := by
    show (value :: session.history.recent).take session.history.capacity = _
    rw [h.recent, h.capacity, List.reverse_append, List.reverse_singleton, List.singleton_append,
      take_cons_take]
  stored := h.stored

theorem Keeps.clear {session : Session} {ledger : Ledger} (h : session.Keeps ledger) :
    (session.withHistory session.history.clear).Keeps { ledger with log := [] } where
  capacity := h.capacity
  recent := List.take_nil.symm
  stored := h.stored

theorem Keeps.save {session : Session} {ledger : Ledger} (h : session.Keeps ledger) :
    ({ session with file := some (HistoryFile.text session.history) } : Session).Keeps
      { ledger with stored := ledger.log.rtake ledger.capacity } where
  capacity := h.capacity
  recent := h.recent
  stored := (HistoryFile.storedValues_text session.history).trans h.toList

theorem Keeps.load {session : Session} {ledger : Ledger} (h : session.Keeps ledger)
    {capacity : Int} {loaded : History} {warnings : List HistoryFile.Warning}
    (hload : HistoryFile.load session.file capacity = .ok (loaded, warnings)) :
    (session.withHistory loaded).Keeps
      { ledger with capacity := capacity.toNat, log := ledger.stored } where
  capacity := (HistoryFile.load_eq_ok hload).1
  recent := by
    have hlist := (HistoryFile.load_eq_ok hload).2
    rw [h.stored, List.rtake_eq_reverse_take_reverse, History.toList] at hlist
    exact List.reverse_injective hlist
  stored := h.stored

/-- What the evaluation of a text does to a session. -/
theorem perform_evaluate (session : Session) (text : String) :
    session.perform (.evaluate text) =
      match session.calculator.value text with
      | .ok value => (.value value, session.withHistory (session.history.push value))
      | .error error => (.failed (.evaluation error), session) := by
  rw [perform, Calculator.evaluate]
  cases session.calculator.value text <;> rfl

/-- **One step** keeps a session in accord with its ledger. -/
theorem Keeps.perform {session : Session} {ledger : Ledger} (h : session.Keeps ledger)
    (step : Step) :
    (session.perform step).2.Keeps (ledger.record step (session.perform step).1) := by
  cases step with
  | evaluate text =>
    rw [perform_evaluate]
    cases session.calculator.value text with
    | ok value => exact h.push value
    | error error => exact h
  | push value => exact h.push value
  | clear => exact h.clear
  | save => exact h.save
  | load capacity =>
    rw [Session.perform]
    cases hload : HistoryFile.load session.file capacity with
    | ok result => exact h.load hload
    | error fault => exact h

/-- A step that fails changes nothing. -/
theorem perform_of_failed {session : Session} {step : Step} {fault : StepFault}
    (h : (session.perform step).1 = .failed fault) : (session.perform step).2 = session := by
  cases step with
  | evaluate text =>
    rw [perform_evaluate] at h ⊢
    cases hvalue : session.calculator.value text with
    | ok value =>
      rw [hvalue] at h
      exact nomatch h
    | error error => rfl
  | push | clear | save => exact nomatch h
  | load capacity =>
    rw [perform] at h ⊢
    cases hload : HistoryFile.load session.file capacity with
    | ok result =>
      rw [hload] at h
      exact nomatch h
    | error error => rfl

/-- **A run** keeps a session in accord with its ledger. -/
theorem Keeps.run {session : Session} {ledger : Ledger} (h : session.Keeps ledger)
    (steps : List Step) : (session.run ledger steps).1.Keeps (session.run ledger steps).2 := by
  induction steps generalizing session ledger with
  | nil => exact h
  | cons step rest ih => exact ih (h.perform step)

end Session

/-! ## References -/

/-- A text that is a reference is parsed as that reference, under any limit. -/
theorem Calculator.parse_reference (limit : Int) (index : Nat) :
    ∃ position, Calculator.parse limit ("$" ++ toString index) = .ok (.history position index) := by
  have hscans : Expr.Scans (Expr.history 0 index).describe.toList (.history 0 index) :=
    (Expr.Printable.history 0 index).scans nofun
  obtain ⟨tokens, e, last, hspells, herase, htext⟩ := hscans.ofText?
  rw [Expr.erase] at herase
  rw [Expr.describe] at htext
  cases hspells with
  | @history token index' h =>
    obtain ⟨_, position, length⟩ := token
    cases h
    rw [Expr.erase] at herase
    cases herase
    refine ⟨position, ?_⟩
    have hend (symbol : OperatorSymbol) : TokenKind.endOfInput ≠ .operator symbol := by
      rintro ⟨⟩
    have hkind (symbol : OperatorSymbol) : TokenKind.history index ≠ .operator symbol := by
      rintro ⟨⟩
    have hnotEnd : (⟨.history index, position, length⟩ : Token).kind ≠ .endOfInput := by
      rintro ⟨⟩
    have htokens : Expr.ofTokens? ([⟨.history index, position, length⟩] ++ [⟨.endOfInput, last, 0⟩])
        ("$" ++ toString index).toList limit = .ok (.history position index) := by
      rw [Expr.ofTokens?_eq_ok_iff]
      exact ⟨hnotEnd, _, Expr.Run.level_of_prefixed
        (.unprefixed (Expr.prefixAt?_of_kind_ne rfl hkind) (.history rfl)) (Nat.zero_le _)
        fun other _ => Expr.infixOfLevel?_of_kind_ne hend other [], rfl⟩
    rw [Calculator.parse, htext]
    show (Expr.ofTokens? _ _ limit).mapError CalculatorError.grammar = _
    rw [htokens]
    rfl
  | _ =>
    rw [Expr.erase] at herase
    cases herase

namespace Session

/-- The environment that the next expression is evaluated in. -/
def environment (session : Session) : Environment :=
  ⟨session.history, session.calculator.registry⟩

/-- The value of a text that is parsed as an expression is that of the expression. -/
theorem value_of_parse {session : Session} {text : String} {e : Expr}
    (h : Calculator.parse session.calculator.nestingLimit text = .ok e) :
    session.calculator.value text =
      (e.evaluate session.environment session.calculator.evaluationLimit).mapError .evaluation := by
  rw [Calculator.value, h]
  rfl

/-- What a session in accord with its ledger shows. -/
structure Faithful (session : Session) (ledger : Ledger) : Prop where
  /-- The history has room for as many results as the ledger says. -/
  capacity : 0 < ledger.capacity ∧ session.history.capacity = ledger.capacity
  /-- It holds the last results of the log. -/
  results : session.history.toList = ledger.log.rtake ledger.capacity
  /-- An index counts them from the newest one. -/
  get? : ∀ index, session.history.get? index = ledger.newest? index
  /-- So do the results in the order in which they are listed. -/
  recent : ∀ index, session.history.recent[index]? = ledger.newest? index
  /-- There is no result exactly from the number of visible results on. -/
  none_iff : ∀ index, session.history.get? index = none ↔ ledger.visible ≤ index
  /-- A reference has the result as its value wherever it stands in an expression, unless it goes
  back too far. -/
  reference : ∀ position index limit (depth : Nat), ¬ limit < (depth : Int) →
    (∀ value, ledger.newest? index = some value →
      (Expr.history position index).evaluateAt session.environment limit depth = .ok value) ∧
    (ledger.visible ≤ index → ∃ error,
      (Expr.history position index).evaluateAt session.environment limit depth = .error error ∧
        ∀ wording, (error.report wording).errorClass = .historyRange)
  /-- The same holds of a text that is a reference. -/
  text : ∀ index, 0 ≤ session.calculator.evaluationLimit →
    (∀ value, ledger.newest? index = some value →
      (session.perform (.evaluate ("$" ++ toString index))).1 = .value value) ∧
    (ledger.visible ≤ index → ∃ error : CalculatorError,
      (session.perform (.evaluate ("$" ++ toString index))).1 = .failed (.evaluation error) ∧
        ∀ wording, (error.report wording).errorClass = .historyRange)
  /-- A step that fails leaves everything as it was. -/
  failed : ∀ step fault, (session.perform step).1 = .failed fault →
    (session.perform step).2 = session
  /-- A history that was saved can be loaded. -/
  loads : ∀ capacity, 1 ≤ capacity →
    ((session.perform .save).2.perform (.load capacity)).1 = .done
  /-- The value of a text becomes the newest result. -/
  evaluated : ∀ text value, (session.perform (.evaluate text)).1 = .value value →
    (session.perform (.evaluate text)).2 = session.withHistory (session.history.push value)
  /-- That value is found from the results before it: it is the value that the expression has
  without a history, when every reference is replaced by what it refers to. -/
  sees : ∀ text e value, Calculator.parse session.calculator.nestingLimit text = .ok e →
    ((session.perform (.evaluate text)).1 = .value value ↔
      (e.recall ledger.newest?).evaluate session.environment.forgetful
        session.calculator.evaluationLimit = .ok value)

section

variable {session : Session} {ledger : Ledger}

theorem perform_evaluate_eq_value_iff {text : String} {value : Value} :
    (session.perform (.evaluate text)).1 = .value value ↔
      session.calculator.value text = .ok value := by
  rw [perform_evaluate]
  cases session.calculator.value text with
  | ok found =>
    show Outcome.value found = _ ↔ _
    rw [Outcome.value.injEq, Except.ok.injEq]
  | error error => exact ⟨nofun, nofun⟩

theorem Keeps.reference (h : session.Keeps ledger) (position index : Nat) {limit : Int}
    {depth : Nat} (hdepth : ¬ limit < depth) :
    (∀ value, ledger.newest? index = some value →
      (Expr.history position index).evaluateAt session.environment limit depth = .ok value) ∧
    (ledger.visible ≤ index → ∃ error,
      (Expr.history position index).evaluateAt session.environment limit depth = .error error ∧
        ∀ wording, (error.report wording).errorClass = .historyRange) := by
  have hget : session.environment.history.get? index = ledger.newest? index := h.get? index
  rw [Expr.evaluateAt_history _ hdepth, Environment.resolveHistory, hget]
  constructor
  · intro value hvalue
    rw [hvalue]
  · intro hindex
    rw [(ledger.newest?_eq_none_iff index).mpr hindex]
    exact ⟨_, rfl, fun _ => rfl⟩

theorem Keeps.text (h : session.Keeps ledger) (index : Nat)
    (hlimit : 0 ≤ session.calculator.evaluationLimit) :
    (∀ value, ledger.newest? index = some value →
      (session.perform (.evaluate ("$" ++ toString index))).1 = .value value) ∧
    (ledger.visible ≤ index → ∃ error : CalculatorError,
      (session.perform (.evaluate ("$" ++ toString index))).1 = .failed (.evaluation error) ∧
        ∀ wording, (error.report wording).errorClass = .historyRange) := by
  obtain ⟨position, hparse⟩ :=
    Calculator.parse_reference session.calculator.nestingLimit index
  have hdepth : ¬ session.calculator.evaluationLimit < (0 : Nat) := Int.not_lt.mpr hlimit
  obtain ⟨hsome, hnone⟩ := h.reference position index hdepth
  rw [perform_evaluate, value_of_parse hparse]
  constructor
  · intro value hvalue
    rw [Expr.evaluate_eq_evaluateAt, hsome value hvalue]
    rfl
  · intro hindex
    obtain ⟨error, herror, hclass⟩ := hnone hindex
    rw [Expr.evaluate_eq_evaluateAt, herror]
    exact ⟨.evaluation error, rfl, hclass⟩

/-- A session in accord with its ledger shows what the ledger says. -/
theorem Keeps.faithful (h : session.Keeps ledger) : session.Faithful ledger where
  capacity := ⟨h.capacity ▸ session.history.capacity_pos, h.capacity⟩
  results := h.toList
  get? := h.get?
  recent := h.get?
  none_iff index := by rw [h.get?, ledger.newest?_eq_none_iff]
  reference position index limit depth := h.reference position index
  text := h.text
  failed _ _ := perform_of_failed
  loads capacity hcapacity := by
    obtain ⟨hpos, hload⟩ := HistoryFile.load_text session.history hcapacity
    have hstep : ((session.perform .save).2.perform (.load capacity)) =
        match HistoryFile.load (some (HistoryFile.text session.history)) capacity with
        | .ok (history, _) => (.done, (session.perform .save).2.withHistory history)
        | .error fault => (.failed (.load fault), (session.perform .save).2) := rfl
    rw [hstep, hload]
  evaluated text value hvalue := by
    rw [perform_evaluate_eq_value_iff] at hvalue
    rw [perform_evaluate, hvalue]
  sees text e value hparse := by
    have hrecall : ledger.newest? = session.environment.history.get? :=
      funext fun index => (h.get? index).symm
    rw [perform_evaluate_eq_value_iff, value_of_parse hparse, Result.mapError_eq_ok_iff, hrecall,
      Expr.evaluate_eq_evaluateAt, Expr.evaluate_eq_evaluateAt]
    exact (Expr.evaluateAt_recall session.environment _ 0 e value).symm

end

/-- The session at the start of a run, with its first results. -/
def start (calculator : Calculator) (initial : List Value) (file : Option String)
    {capacity : Nat} (hcapacity : 0 < capacity) : Session :=
  ⟨{ calculator with history := (History.empty capacity hcapacity).pushAll initial }, file⟩

theorem keeps_start (calculator : Calculator) (initial : List Value) (file : Option String)
    {capacity : Nat} (hcapacity : 0 < capacity) :
    (start calculator initial file hcapacity).Keeps (.start capacity initial file) where
  capacity := History.capacity_pushAll _ _
  recent := by
    show ((History.empty capacity hcapacity).pushAll initial).recent = _
    rw [History.recent_pushAll]
    show (initial.reverse ++ []).take capacity = initial.reverse.take capacity
    rw [List.append_nil]
  stored := rfl

/-- **The history is a faithful bounded log.**  After any steps it holds the last results of
everything that was pushed or evaluated since the start, or since the last time it was cleared or
loaded, as many as its capacity allows; and the session shows them in every way. -/
theorem run_faithful (calculator : Calculator) (initial : List Value) (file : Option String)
    {capacity : Nat} (hcapacity : 0 < capacity) (steps : List Step) :
    let final := (start calculator initial file hcapacity).run (.start capacity initial file) steps
    final.1.Faithful final.2 :=
  ((keeps_start calculator initial file hcapacity).run steps).faithful

/-- A calculator without results. -/
def fresh : Calculator := { history := .empty 2 (by decide) }

/-- With room for two of three results, the second and the third are left. -/
theorem run_faithful_three : 0 < 2 ∧
    ((start fresh [.integer .u8 1] none (show 0 < 2 by decide)).run (.start 2 [.integer .u8 1] none)
      [.push (.integer .u8 2), .save, .push (.integer .u8 3)]).1.history.toList =
        [.integer .u8 2, .integer .u8 3] :=
  ⟨by decide, (run_faithful fresh [.integer .u8 1] none (show 0 < 2 by decide)
    [.push (.integer .u8 2), .save, .push (.integer .u8 3)]).results⟩

end Session

end TypedCalc
