import TypedCalc.CommandLine.Run
import TypedCalc.Proofs.CommandLine.Options
import TypedCalc.Proofs.Datum.Lines
import TypedCalc.Proofs.Host.Machine
import TypedCalc.Proofs.HistoryFile.RoundTrip
import TypedCalc.Proofs.Token.Scan

/-!
# One run of the program on a machine

A run whose expression is given opens the log, loads the history, evaluates and, if there is a value
and the history is shared, saves the history.  Its steps are followed here one at a time.

* `Setup`: what all runs of a sequence share, and `Setup.Undisturbed`: a machine on which such a run
  can write its files.
* `Setup.Undisturbed.perform_spec`: what a run prints, and the machine after it.
-/

namespace TypedCalc.CommandLine

/-! ## Steps in a row -/

section

variable {ε α β : Type} {machine after : Machine} {step : ExceptT ε (StateM Machine) α}
  {next : α → ExceptT ε (StateM Machine) β}

theorem run_bind_of_ok {a : α} (h : step.run.run machine = (.ok a, after)) :
    (step >>= next).run.run machine = (next a).run.run after := by
  rw [ExceptT.run_bind, StateT.run_bind, h]
  rfl

theorem run_bind_of_error {fault : ε} (h : step.run.run machine = (.error fault, after)) :
    (step >>= next).run.run machine = (.error fault, after) := by
  rw [ExceptT.run_bind, StateT.run_bind, h]
  rfl

theorem run_lift {operation : StateM Machine α} {a : α}
    (h : operation.run machine = (a, after)) :
    (liftM operation : ExceptT ε (StateM Machine) α).run.run machine = (.ok a, after) := by
  rw [ExceptT.run_liftM, StateT.run_map, h]
  rfl

end

theorem run_orFail_ok {ε α : Type} (failure : ε → Failure) (a : α) (machine : Machine) :
    (orFail failure (.ok a) : ExceptT Failure (StateM Machine) α).run.run machine =
      (.ok a, machine) := rfl

theorem run_orFail_error {ε α : Type} (failure : ε → Failure) (fault : ε) (machine : Machine) :
    (orFail failure (.error fault) : ExceptT Failure (StateM Machine) α).run.run machine =
      (.error (failure fault), machine) := rfl

theorem run_bind_of_eq {α β : Type} {machine after : Machine} {operation : StateM Machine α}
    {next : α → StateM Machine β} {a : α} (h : operation.run machine = (a, after)) :
    (operation >>= next).run machine = (next a).run after := by
  rw [StateT.run_bind, h]
  rfl

theorem exists_of_run_bind {α β : Type} {machine after : Machine} {operation : StateM Machine α}
    {next : α → StateM Machine β} {b : β} (h : (operation >>= next).run machine = (b, after)) :
    ∃ a middle, operation.run machine = (a, middle) ∧ (next a).run middle = (b, after) :=
  ⟨_, _, rfl, h⟩

/-! ## The steps of a run -/

theorem onlyAdds_openLog (directory : String) : Machine.OnlyAdds (openLog directory) := by
  refine .bind (.expand _) fun directory => .bind (.provideDirectories _) fun provided => ?_
  cases provided with
  | error fault => exact .pure _
  | ok _ => exact .bind (.absolute _) fun file => .openLog file

theorem run_loadConfiguration (path : String) (machine : Machine) :
    ((loadConfiguration path : ExceptT Failure (StateM Machine) _).run.run machine).2 =
      machine := by
  rw [loadConfiguration, run_bind_of_ok (run_lift (machine.run_expand path)),
    run_bind_of_ok (run_lift (machine.run_kind? _))]
  split
  · rfl
  · rw [run_bind_of_ok (run_lift (machine.run_readText _))]
    cases machine.read (Path.expandHome machine.home path) <;> rfl

/-- The text of the file that a path leads to, if it leads to one. -/
def textAt? (path : String) (machine : Machine) : Option String :=
  (machine.read (Path.expandHome machine.home path)).toOption

theorem textAt?_eq_some_iff {path text : String} {machine : Machine} :
    textAt? path machine = some text ↔
      machine.read (Path.expandHome machine.home path) = .ok text := by
  rw [textAt?]
  cases machine.read (Path.expandHome machine.home path) with
  | ok found => exact ⟨fun h => congrArg Except.ok (Option.some.inj h), fun h => congrArg _ h⟩
  | error cause => exact ⟨nofun, nofun⟩

theorem run_readHistory (path : String) (machine : Machine) :
    (readHistory path : StateM Machine _).run machine =
      ((textAt? path machine).map fun text => String.ofList (Host.unifyLines text.toList),
        machine) := by
  rw [readHistory, textAt?, StateT.run_bind, Machine.run_expand]
  show StateT.run (Host.kind? _ >>= _) machine = _
  rw [StateT.run_bind, Machine.run_kind?]
  generalize Path.expandHome machine.home path = file
  show StateT.run (if ((machine.find? file).map FileNode.kind).isNone then _ else _) machine = _
  split
  · rename_i hnone
    cases hread : machine.read file with
    | ok text =>
      have hsome := Machine.isSome_find?_of_read hread
      cases hfind : machine.find? file <;> rw [hfind] at hnone hsome
      · exact nomatch hsome
      · exact nomatch hnone
    | error cause => rfl
  · rw [StateT.run_bind, Machine.run_readText]
    cases machine.read file <;> rfl

/-- What is stored in a file of a machine, with a capacity. -/
def storedHistory (path : String) (capacity : Nat) (machine : Machine) :
    Except HistoryFile.LoadFault (History × List HistoryFile.Warning) :=
  HistoryFile.load ((textAt? path machine).map fun text =>
    String.ofList (Host.unifyLines text.toList)) capacity

theorem run_loadHistory_of_shared {options : Options} {settings : Settings} {machine : Machine}
    {history : History} {warnings : List HistoryFile.Warning} (h : options.noHistory = false)
    (hstored : storedHistory settings.historyFile settings.historySize machine =
      .ok (history, warnings)) :
    (loadHistory options settings : ExceptT Failure (StateM Machine) _).run.run machine =
      (.ok history, machine) := by
  rw [storedHistory] at hstored
  rw [loadHistory, h, if_neg Bool.false_ne_true, run_bind_of_ok (run_lift (run_readHistory _ _)),
    hstored]
  rfl

theorem run_loadHistory_of_isolated {options : Options} {settings : Settings} (machine : Machine)
    (h : options.noHistory = true) :
    (loadHistory options settings : ExceptT Failure (StateM Machine) _).run.run machine =
      (.ok (History.empty settings.historySize settings.historySize_pos), machine) := by
  rw [loadHistory, h, if_pos rfl]
  rfl

/-- **A history that was saved is in the file.** -/
theorem textAt?_of_saveHistory {path : String} {history : History} {machine after : Machine}
    (h : (saveHistory path history : StateM Machine _).run machine = (.ok (), after)) :
    textAt? path after = some (HistoryFile.text history) := by
  rw [saveHistory] at h
  obtain ⟨file, middle, hfile, h⟩ := exists_of_run_bind h
  obtain ⟨rfl, rfl⟩ := Prod.mk.inj ((machine.run_expand path).symm.trans hfile)
  -- the directory of the file may have to be made before the file is written
  have hwritten : ∃ provided : Machine, machine.Extends provided ∧
      (Host.writeFile (Path.expandHome machine.home path) (HistoryFile.text history) :
        StateM Machine _).run provided = (.ok (), after) := by
    dsimp only at h
    split at h
    · exact ⟨machine, .refl machine, h⟩
    · obtain ⟨result, provided, hprovided, h⟩ := exists_of_run_bind h
      refine ⟨provided, ?_, ?_⟩
      · have hadds := Machine.OnlyAdds.provideDirectories
          (Path.directory (Path.expandHome machine.home path)).toList machine
        rwa [hprovided] at hadds
      · cases result with
        | error fault => exact nomatch congrArg Prod.fst h
        | ok _ => exact h
  obtain ⟨provided, hextends, hwrite⟩ := hwritten
  obtain ⟨hread, hkeeps⟩ := Machine.read_of_writeFile hwrite
  rw [textAt?_eq_some_iff, hkeeps.home, hextends.home]
  exact hread

/-- With no limit of digits every error of the calculator is reported. -/
theorem failsOnly_evaluate (calculator : Calculator) (text : String) (wording : LimitWording) :
    Result.FailsOnly (fun error => (Failure.calculator error wording).isUnreported = false)
      (calculator.evaluate text) := by
  refine .bind (.bind (.bind (.mapError ?_) fun tokens _ => .mapError fun _ _ => rfl)
    fun expr _ => .mapError fun _ _ => rfl) fun value _ => .ok _
  rcases Token.ofText?_spec text with ⟨error, herror, -, -, hfault⟩ | ⟨tokens, htokens, -⟩
  · exact fun found hfound => Except.error.inj (herror.symm.trans hfound) ▸ hfault
  · exact fun found hfound => nomatch htokens.symm.trans hfound

/-! ## Runs with the same settings -/

/-- What the runs of a sequence share: the words in front of their command lines, which ask for an
answer in plain text and for a history but not for lines of the log, and the settings that they are
made with. -/
structure Setup where
  /-- The words. -/
  arguments : List String
  /-- What they ask for. -/
  options : Options
  /-- The configuration that the runs start from. -/
  configuration : Configuration
  /-- The keys in its file that are not names of settings. -/
  unknown : List Datum
  /-- The settings. -/
  settings : Settings
  asked : Request.ofArguments arguments = .ok (.run options)
  file : options.file = none
  launcher : options.launcher = false
  noHistory : options.noHistory = false
  quiet : options.verbose = false
  checked : (options.configure configuration).check = .ok settings

/-- What a run of a sequence is about. -/
structure Invocation where
  /-- The expression. -/
  expression : String
  /-- Whether the history is neither read nor written. -/
  isolated : Bool

namespace Setup

variable (setup : Setup) (machine : Machine)

/-- A run, with the machine after it. -/
def perform (invocation : Invocation) : Ending × Machine :=
  (CommandLine.run (m := StateM Machine)
    (setup.arguments ++ ownArguments invocation.expression invocation.isolated)).run machine

/-- The machine after runs in order. -/
def after (invocations : List Invocation) : Machine :=
  invocations.foldl (fun machine invocation => (setup.perform machine invocation).2) machine

/-- The text of the history file, if there is one. -/
def stored : Option String := textAt? setup.settings.historyFile machine

/-- The machine after the log is opened. -/
def logged : Machine :=
  ((openLog setup.settings.logDirectory : StateM Machine _).run machine).2

/-- Whether nothing comes between a run and its files: the configuration is the one of the settings,
the log and the history can be written, and the log is not where the history file should be. -/
structure Undisturbed : Prop where
  configured : ((loadConfiguration setup.options.configuration :
    ExceptT Failure (StateM Machine) _).run.run machine).1 =
      .ok (setup.configuration, setup.unknown)
  logs : ((openLog setup.settings.logDirectory : StateM Machine _).run machine).1 = .ok ()
  apart : setup.stored machine = none → setup.stored (setup.logged machine) = none
  saves : ∀ history, ((saveHistory setup.settings.historyFile history : StateM Machine _).run
    (setup.logged machine)).1 = .ok ()

/-- A calculator with the settings and a history. -/
def calculator (history : History) : Calculator :=
  { history := history, nestingLimit := setup.settings.nestingLimit }

/-- The history with room for as many results as the settings say, and none in it. -/
def noResults : History :=
  History.empty setup.settings.historySize setup.settings.historySize_pos

/-- What the runs say about the configuration file. -/
def notice : String :=
  if setup.unknown.isEmpty then ""
  else unknownSettingsWarning setup.options.configuration setup.unknown ++ "\n"

/-- How the limits of the settings are written. -/
def wording : LimitWording := limitWording (setup.options.configure setup.configuration)

/-- The answer to what an evaluation comes to: the value, or a report on the error. -/
def answer : Except CalculatorError (Value × Calculator) → Ending
  | .ok (value, _) =>
    .finished { status := 0, output := value.format ++ "\n", errors := setup.notice }
  | .error error =>
    .finished
      { status := 1, errors := setup.notice ++ (error.report setup.wording).text ++ "\n" }

/-- The options of a run. -/
def optionsOf (invocation : Invocation) : Options :=
  { setup.options with
    expression := some invocation.expression
    noHistory := invocation.isolated }

variable {setup machine}

theorem perform_eq (invocation : Invocation) : setup.perform machine invocation =
    (CommandLine.perform (setup.optionsOf invocation) : StateM Machine Ending).run machine := by
  rw [perform, CommandLine.run, ofArguments_ownArguments setup.asked setup.file setup.noHistory]
  rfl

theorem configure_optionsOf (setup : Setup) (invocation : Invocation) :
    (setup.optionsOf invocation).configure setup.configuration =
      setup.options.configure setup.configuration := rfl

theorem run_readExpression (setup : Setup) (invocation : Invocation) {machine : Machine} :
    (readExpression (setup.optionsOf invocation) :
      ExceptT Failure (StateM Machine) _).run.run machine =
        (.ok invocation.expression, machine) := rfl

/-- Opening the log leaves the history file as it is. -/
theorem Undisturbed.stored_logged (h : setup.Undisturbed machine) :
    setup.stored (setup.logged machine) = setup.stored machine := by
  cases hstored : setup.stored machine with
  | none => exact h.apart hstored
  | some text =>
    have hextends := onlyAdds_openLog setup.settings.logDirectory machine
    rw [stored, textAt?_eq_some_iff] at hstored ⊢
    rw [logged, hextends.home]
    exact hextends.read_eq_ok hstored

theorem Undisturbed.exists_saveHistory (h : setup.Undisturbed machine) (history : History) :
    ∃ after, (saveHistory setup.settings.historyFile history : StateM Machine _).run
      (setup.logged machine) = (.ok (), after) := by
  have hsaves := h.saves history
  cases hrun : (saveHistory setup.settings.historyFile history : StateM Machine _).run
      (setup.logged machine) with
  | mk result after =>
    rw [hrun] at hsaves
    exact ⟨after, Prod.ext hsaves rfl⟩

/-! ## What a run comes to -/

section

variable {invocation : Invocation} {history : History}

/-- What the steps of a run come to, when the history is loaded. -/
theorem Undisturbed.run_evaluate (h : setup.Undisturbed machine)
    (hload : (loadHistory (setup.optionsOf invocation) setup.settings :
      ExceptT Failure (StateM Machine) _).run.run (setup.logged machine) =
        (.ok history, setup.logged machine))
    {result : Except CalculatorError (Value × Calculator)}
    (hresult : (setup.calculator history).evaluate invocation.expression = result) :
    ∃ after, (CommandLine.evaluate (setup.optionsOf invocation) setup.configuration :
        ExceptT Failure (StateM Machine) _).run.run machine =
          ((result.map fun found => ⟨found.1, none⟩).mapError (.calculator · setup.wording),
            after) ∧
      (invocation.isolated = true ∨ (∃ error, result = .error error) →
        after = setup.logged machine) ∧
      (invocation.isolated = false → ∀ value next, result = .ok (value, next) →
        (saveHistory setup.settings.historyFile next.history : StateM Machine _).run
          (setup.logged machine) = (.ok (), after)) := by
  have hlog : (openLog setup.settings.logDirectory : StateM Machine _).run machine =
      (.ok (), setup.logged machine) := Prod.ext h.logs rfl
  have hcalculator : setup.calculator history =
      { history := history, nestingLimit := setup.settings.nestingLimit } := rfl
  rw [CommandLine.evaluate, setup.configure_optionsOf, setup.checked,
    run_bind_of_ok (run_orFail_ok _ _ _), run_bind_of_ok (run_lift hlog),
    run_bind_of_ok (run_orFail_ok _ _ _),
    run_bind_of_ok (setup.run_readExpression invocation), run_bind_of_ok hload]
  dsimp only
  rw [← hcalculator, hresult]
  cases result with
  | error error =>
    refine ⟨_, run_bind_of_error (run_orFail_error _ _ _), fun _ => rfl, ?_⟩
    rintro - _ _ ⟨⟩
  | ok found =>
    obtain ⟨value, next⟩ := found
    rw [run_bind_of_ok (run_orFail_ok _ _ _)]
    dsimp only
    cases hisolated : invocation.isolated with
    | true =>
      refine ⟨setup.logged machine, ?_, fun _ => rfl, nofun⟩
      rw [optionsOf, hisolated, if_pos rfl]
      rfl
    | false =>
      obtain ⟨after, hsave⟩ := h.exists_saveHistory next.history
      rw [optionsOf, hisolated, if_neg Bool.false_ne_true, run_bind_of_ok (run_lift hsave)]
      refine ⟨after, rfl, ?_, ?_⟩
      · rintro (hfalse | ⟨_, ⟨⟩⟩)
        exact nomatch hfalse
      · rintro - _ _ ⟨⟩
        exact hsave

theorem Undisturbed.run_loadConfiguration (h : setup.Undisturbed machine) :
    (loadConfiguration setup.options.configuration :
      ExceptT Failure (StateM Machine) _).run.run machine =
        (.ok (setup.configuration, setup.unknown), machine) :=
  Prod.ext h.configured (CommandLine.run_loadConfiguration _ machine)

/-- The answer of a run is that to its evaluation. -/
theorem Undisturbed.run_perform (h : setup.Undisturbed machine) {after : Machine}
    {result : Except CalculatorError (Value × Calculator)}
    (hevaluate : (CommandLine.evaluate (setup.optionsOf invocation) setup.configuration :
        ExceptT Failure (StateM Machine) _).run.run machine =
      ((result.map fun found => ⟨found.1, none⟩).mapError (.calculator · setup.wording), after))
    (hreported : Result.FailsOnly
      (fun error => (Failure.calculator error setup.wording).isUnreported = false) result) :
    setup.perform machine invocation = (setup.answer result, after) := by
  have hlauncher : (setup.optionsOf invocation).launcher = false := setup.launcher
  have hload : (loadConfiguration (setup.optionsOf invocation).configuration :
      ExceptT Failure (StateM Machine) _).run.run machine =
        (.ok (setup.configuration, setup.unknown), machine) := h.run_loadConfiguration
  rw [perform_eq, CommandLine.perform, StateT.run_bind, hload]
  show StateT.run (ExceptT.run (CommandLine.evaluate _ setup.configuration) >>= _) machine = _
  rw [StateT.run_bind, hevaluate, hlauncher]
  cases result with
  | ok found => rfl
  | error error =>
    refine congrArg (·, after) ?_
    rw [Failure.ending, hreported error rfl]
    rfl

/-- **A run** answers with what the evaluation of its expression comes to, with the stored history
or with an empty one.  It opens the log and, if there is a value and the history is shared, saves
the history with the value. -/
theorem Undisturbed.perform_spec (h : setup.Undisturbed machine)
    (hisolated : invocation.isolated = true → history = setup.noResults)
    (hshared : invocation.isolated = false → ∃ warnings,
      storedHistory setup.settings.historyFile setup.settings.historySize machine =
        .ok (history, warnings))
    {result : Except CalculatorError (Value × Calculator)}
    (hresult : (setup.calculator history).evaluate invocation.expression = result) :
    (setup.perform machine invocation).1 = setup.answer result ∧
      (invocation.isolated = true ∨ (∃ error, result = .error error) →
        (setup.perform machine invocation).2 = setup.logged machine) ∧
      (invocation.isolated = false → ∀ value next, result = .ok (value, next) →
        (saveHistory setup.settings.historyFile next.history : StateM Machine _).run
          (setup.logged machine) = (.ok (), (setup.perform machine invocation).2)) := by
  have hload : (loadHistory (setup.optionsOf invocation) setup.settings :
      ExceptT Failure (StateM Machine) _).run.run (setup.logged machine) =
        (.ok history, setup.logged machine) := by
    cases hcase : invocation.isolated with
    | true =>
      rw [hisolated hcase]
      exact run_loadHistory_of_isolated _ hcase
    | false =>
      obtain ⟨warnings, hstored⟩ := hshared hcase
      have hfile : textAt? setup.settings.historyFile (setup.logged machine) =
        textAt? setup.settings.historyFile machine := h.stored_logged
      have hlogged : storedHistory setup.settings.historyFile setup.settings.historySize
          (setup.logged machine) = .ok (history, warnings) := by
        rw [storedHistory, hfile]
        exact hstored
      exact run_loadHistory_of_shared hcase hlogged
  obtain ⟨after, hevaluate, hkept, hsaved⟩ := h.run_evaluate hload hresult
  rw [h.run_perform hevaluate (hresult ▸ failsOnly_evaluate _ _ _)]
  exact ⟨rfl, hkept, hsaved⟩

end

end Setup

end TypedCalc.CommandLine
