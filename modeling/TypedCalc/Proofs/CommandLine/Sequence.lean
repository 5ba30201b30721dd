import TypedCalc.Proofs.CommandLine.Ready
import TypedCalc.Proofs.Limits

/-!
# Runs in a row are one session

Runs with the same settings, one after the other on a machine, answer what a single calculator
answers that keeps its history in memory.  A history that is saved and loaded with the same capacity
is the same history, so what one run leaves in the file is what the next one starts from.

* `Setup.Tracks.perform`: one run keeps the file in accord with a calculator.
* `Setup.runs_follow`: so does a sequence of runs, and every run answers what the calculator does.
-/

namespace TypedCalc

/-- A history that is pushed onto an empty one of its capacity is the same. -/
theorem History.pushAll_toList (history : History) {capacity : Nat} (hpos : 0 < capacity)
    (h : history.capacity = capacity) : (empty capacity hpos).pushAll history.toList = history := by
  subst h
  have hrecent := recent_pushAll (empty history.capacity hpos) history.toList
  have hcapacity := capacity_pushAll (empty history.capacity hpos) history.toList
  have htake : (history.toList.reverse ++ []).take history.capacity = history.recent := by
    rw [toList, List.reverse_reverse, List.append_nil, List.take_of_length_le history.length_le]
  replace hrecent := hrecent.trans htake
  generalize (empty history.capacity hpos).pushAll history.toList = pushed at hrecent hcapacity
  cases pushed
  cases history
  cases hrecent
  cases hcapacity
  rfl

namespace Calculator

/-- The calculator after a text, which has its value in the history if there is one. -/
def afterText (calculator : Calculator) (text : String) : Calculator :=
  match calculator.evaluate text with
  | .ok (_, next) => next
  | .error _ => calculator

/-- The calculator after texts in order. -/
def afterTexts (calculator : Calculator) (texts : List String) : Calculator :=
  texts.foldl afterText calculator

/-- A value becomes the most recent result, and nothing else changes. -/
theorem eq_of_evaluate {calculator next : Calculator} {text : String} {value : Value}
    (h : calculator.evaluate text = .ok (value, next)) :
    next = { calculator with history := calculator.history.push value } := by
  obtain ⟨found, -, h⟩ := Result.bind_eq_ok_iff.mp h
  cases h
  rfl

theorem afterText_of_ok {calculator next : Calculator} {text : String} {value : Value}
    (h : calculator.evaluate text = .ok (value, next)) : calculator.afterText text = next := by
  rw [afterText, h]

theorem afterText_of_error {calculator : Calculator} {text : String} {error : CalculatorError}
    (h : calculator.evaluate text = .error error) : calculator.afterText text = calculator := by
  rw [afterText, h]

end Calculator

namespace CommandLine

/-- The expressions of the runs that share the history, in order. -/
def sharedTexts (invocations : List Invocation) : List String :=
  (invocations.filter fun invocation => !invocation.isolated).map (·.expression)

/-- The calculator of a session after a run. -/
def Invocation.next (invocation : Invocation) (calculator : Calculator) : Calculator :=
  if invocation.isolated then calculator else calculator.afterText invocation.expression

theorem afterTexts_sharedTexts_concat (calculator : Calculator) (earlier : List Invocation)
    (invocation : Invocation) :
    calculator.afterTexts (sharedTexts (earlier ++ [invocation])) =
      invocation.next (calculator.afterTexts (sharedTexts earlier)) := by
  rw [sharedTexts, sharedTexts, List.filter_append, List.map_append, Calculator.afterTexts,
    List.foldl_append, Invocation.next]
  cases hisolated : invocation.isolated with
  | true =>
    rw [List.filter_cons_of_neg (by simp [hisolated])]
    rfl
  | false =>
    rw [List.filter_cons_of_pos (by simp [hisolated])]
    rfl

/-- Whether a run ends with success. -/
def Ending.Succeeds (ending : Ending) : Prop :=
  ∃ outcome, ending = .finished outcome ∧ outcome.status = 0

namespace Setup

variable (setup : Setup) (machine : Machine)

theorem succeeds_answer_iff (result : Except CalculatorError (Value × Calculator)) :
    (setup.answer result).Succeeds ↔ ∃ value next, result = .ok (value, next) := by
  cases result with
  | ok found => exact ⟨fun _ => ⟨found.1, found.2, rfl⟩, fun _ => ⟨_, rfl, rfl⟩⟩
  | error error =>
    constructor
    · rintro ⟨_, heq, hstatus⟩
      cases heq
      exact nomatch hstatus
    · rintro ⟨_, _, ⟨⟩⟩

theorem not_succeeds_answer_iff (result : Except CalculatorError (Value × Calculator)) :
    ¬ (setup.answer result).Succeeds ↔ ∃ error, result = .error error := by
  rw [succeeds_answer_iff]
  cases result with
  | ok found => exact ⟨fun h => absurd ⟨found.1, found.2, rfl⟩ h, by rintro ⟨_, ⟨⟩⟩⟩
  | error error => exact ⟨fun _ => ⟨error, rfl⟩, by rintro - ⟨_, _, ⟨⟩⟩⟩

/-- The calculator that the runs are a session of: it starts with the last of the stored results, as
many as its history has room for. -/
def session (initial : Option History) : Calculator :=
  setup.calculator (setup.noResults.pushAll (initial.elim [] History.toList))

/-- Whether the limits are set by numbers. -/
def LimitsAreNumbers : Prop :=
  (setup.options.configure setup.configuration).get .historySize =
      .integer setup.settings.historySize ∧
    (setup.options.configure setup.configuration).get .nestingLimit =
      .integer setup.settings.nestingLimit

/-- The calculator that answers a run: that of the session, or one without results if the run is
isolated. -/
def consulted (calculator : Calculator) (invocation : Invocation) : Calculator :=
  if invocation.isolated then setup.calculator setup.noResults else calculator

/-- Whether a run does what a calculator says. -/
structure Follows (calculator : Calculator) (invocation : Invocation) : Prop where
  /-- It prints the value or reports the error, and ends with the status for that. -/
  answer : (setup.perform machine invocation).1 =
    setup.answer ((setup.consulted calculator invocation).evaluate invocation.expression)
  /-- The report on an error is the one that the calculator gives itself. -/
  report : setup.LimitsAreNumbers → ∀ error,
    (setup.consulted calculator invocation).evaluate invocation.expression = .error error →
      error.report setup.wording = error.report
  /-- After a success the file holds the history of the calculator. -/
  saved : invocation.isolated = false → (setup.perform machine invocation).1.Succeeds →
    setup.stored (setup.perform machine invocation).2 =
      some (HistoryFile.text (invocation.next calculator).history)
  /-- A run that fails or is isolated leaves the file as it is. -/
  kept : invocation.isolated = true ∨ ¬ (setup.perform machine invocation).1.Succeeds →
    setup.stored (setup.perform machine invocation).2 = setup.stored machine

/-- Whether the file holds what a calculator has in its history. -/
structure Tracks (calculator : Calculator) : Prop where
  limits : calculator = setup.calculator calculator.history
  loads : storedHistory setup.settings.historyFile setup.settings.historySize machine =
    .ok (calculator.history, [])

/-! ## One run -/

variable {setup machine}

theorem report_eq (hlimits : setup.LimitsAreNumbers) {history : History}
    (hcapacity : history.capacity = setup.settings.historySize) {text : String}
    {error : CalculatorError} (h : (setup.calculator history).evaluate text = .error error) :
    error.report setup.wording = error.report := by
  have hvalue : (setup.calculator history).value text = .error error := by
    rcases Result.bind_eq_error_iff.mp h with h | ⟨_, _, h⟩
    · exact h
    · exact nomatch h
  refine Calculator.report_congr hvalue ?_ ?_
  · show ((setup.options.configure setup.configuration).get .historySize).display =
      toString history.capacity
    rw [hlimits.1, hcapacity]
    rfl
  · show ((setup.options.configure setup.configuration).get .nestingLimit).display = _
    rw [hlimits.2]
    rfl

/-- **A run that is isolated** behaves as with an empty history and leaves the file as it is,
whatever it holds. -/
theorem Undisturbed.follows_of_isolated (h : setup.Undisturbed machine) (calculator : Calculator)
    {invocation : Invocation} (hisolated : invocation.isolated = true) :
    setup.Follows machine calculator invocation := by
  have hconsulted : setup.consulted calculator invocation = setup.calculator setup.noResults :=
    if_pos hisolated
  have hempty (_ : invocation.isolated = true) : setup.noResults = setup.noResults := rfl
  obtain ⟨hanswer, hkept, -⟩ := h.perform_spec hempty
    (fun hshared => nomatch hisolated.symm.trans hshared) rfl
  refine ⟨?_, fun hlimits error herror => ?_, fun hshared => ?_, fun _ => ?_⟩
  · rw [hanswer, hconsulted]
  · rw [hconsulted] at herror
    exact report_eq hlimits rfl herror
  · exact nomatch hisolated.symm.trans hshared
  · rw [hkept (.inl hisolated), h.stored_logged]

/-- A run leaves the calculator and the file as they are, or it shares the history and succeeds. -/
theorem Follows.cases {calculator : Calculator} {invocation : Invocation}
    (h : setup.Follows machine calculator invocation) :
    (invocation.next calculator = calculator ∧
        setup.stored (setup.perform machine invocation).2 = setup.stored machine) ∨
      (invocation.isolated = false ∧ (setup.perform machine invocation).1.Succeeds) := by
  cases hisolated : invocation.isolated with
  | true => exact .inl ⟨if_pos hisolated, h.kept (.inl hisolated)⟩
  | false =>
    by_cases hsuccess : (setup.perform machine invocation).1.Succeeds
    · exact .inr ⟨rfl, hsuccess⟩
    · refine .inl ⟨?_, h.kept (.inr hsuccess)⟩
      have hanswer := h.answer
      rw [consulted, hisolated, if_neg Bool.false_ne_true] at hanswer
      rw [hanswer, not_succeeds_answer_iff] at hsuccess
      obtain ⟨error, hresult⟩ := hsuccess
      rw [Invocation.next, hisolated, if_neg Bool.false_ne_true]
      exact Calculator.afterText_of_error hresult

/-- A run that shares the history and succeeds pushes its value. -/
theorem Follows.next_eq {calculator : Calculator} {invocation : Invocation}
    (h : setup.Follows machine calculator invocation) (hshared : invocation.isolated = false)
    (hsuccess : (setup.perform machine invocation).1.Succeeds) :
    ∃ value, invocation.next calculator =
      { calculator with history := calculator.history.push value } := by
  rw [h.answer, succeeds_answer_iff, consulted, hshared, if_neg Bool.false_ne_true] at hsuccess
  obtain ⟨value, next, hresult⟩ := hsuccess
  refine ⟨value, ?_⟩
  rw [Invocation.next, hshared, if_neg Bool.false_ne_true, Calculator.afterText_of_ok hresult]
  exact Calculator.eq_of_evaluate hresult

/-- A history that was saved is loaded with its last results. -/
theorem storedHistory_of_stored {history : History}
    (hstored : setup.stored machine = some (HistoryFile.text history)) :
    storedHistory setup.settings.historyFile setup.settings.historySize machine =
      .ok (setup.noResults.pushAll history.toList, []) := by
  have hpos := setup.settings.historySize_pos
  obtain ⟨_, hload⟩ := HistoryFile.load_text history
    (show (1 : Int) ≤ setup.settings.historySize by omega)
  have hlines : String.ofList (Host.unifyLines (HistoryFile.text history).toList) =
    HistoryFile.text history := Datum.unifyLines_toIndentedJson _
  rw [stored] at hstored
  rw [storedHistory, hstored, Option.map_some, hlines, hload]
  rfl

namespace Tracks

variable {calculator : Calculator} {invocation : Invocation}

theorem capacity (h : setup.Tracks machine calculator) :
    calculator.history.capacity = setup.settings.historySize :=
  (HistoryFile.load_eq_ok h.loads).1

theorem follows_of_shared (h : setup.Tracks machine calculator)
    (hcalm : setup.Undisturbed machine) (hshared : invocation.isolated = false) :
    setup.Follows machine calculator invocation := by
  have hevaluate := congrArg (·.evaluate invocation.expression) h.limits
  have hconsulted : setup.consulted calculator invocation = calculator := by
    rw [consulted, hshared, if_neg Bool.false_ne_true]
  obtain ⟨hanswer, hkept, hsaved⟩ := hcalm.perform_spec
    (fun hisolated => nomatch hshared.symm.trans hisolated) (fun _ => ⟨_, h.loads⟩)
    hevaluate.symm
  refine ⟨?_, fun hlimits error herror => ?_, fun _ hsuccess => ?_, fun hcase => ?_⟩
  · rw [hanswer, hconsulted]
  · rw [hconsulted] at herror
    exact report_eq hlimits h.capacity (hevaluate.symm.trans herror)
  · rw [hanswer, succeeds_answer_iff] at hsuccess
    obtain ⟨value, next, hresult⟩ := hsuccess
    rw [Invocation.next, hshared, if_neg Bool.false_ne_true, Calculator.afterText_of_ok hresult]
    exact textAt?_of_saveHistory (hsaved hshared value next hresult)
  · rcases hcase with hisolated | hfailure
    · exact nomatch hshared.symm.trans hisolated
    · rw [hanswer, not_succeeds_answer_iff] at hfailure
      rw [hkept (.inr hfailure), hcalm.stored_logged]

/-- **One run** does what the calculator of the session says. -/
theorem follows (h : setup.Tracks machine calculator) (hcalm : setup.Undisturbed machine)
    (invocation : Invocation) : setup.Follows machine calculator invocation := by
  cases hcase : invocation.isolated with
  | true => exact hcalm.follows_of_isolated calculator hcase
  | false => exact h.follows_of_shared hcalm hcase

/-- After a run the file is still in accord with the calculator of the session. -/
theorem perform (h : setup.Tracks machine calculator) (hcalm : setup.Undisturbed machine)
    (invocation : Invocation) :
    setup.Tracks (setup.perform machine invocation).2 (invocation.next calculator) := by
  have hfollows := h.follows hcalm invocation
  rcases hfollows.cases with ⟨hsame, hfile⟩ | ⟨hshared, hsuccess⟩
  · have hfile' : textAt? setup.settings.historyFile (setup.perform machine invocation).2 =
      textAt? setup.settings.historyFile machine := hfile
    rw [hsame]
    refine ⟨h.limits, ?_⟩
    rw [storedHistory, hfile']
    exact h.loads
  · have hstored := hfollows.saved hshared hsuccess
    obtain ⟨value, hnext⟩ := hfollows.next_eq hshared hsuccess
    rw [hnext] at hstored ⊢
    refine ⟨?_, ?_⟩
    · exact congrArg
        (fun limited : Calculator => { limited with history := calculator.history.push value })
        h.limits
    · -- a history with the capacity of the settings is loaded as it was
      have hsame := (calculator.history.push value).pushAll_toList setup.settings.historySize_pos
        ((History.capacity_push _ _).trans h.capacity)
      rw [storedHistory_of_stored hstored, noResults, hsame]

end Tracks

/-! ## Runs in a row -/

section

variable (setup : Setup) (start : Machine)

theorem after_concat (earlier : List Invocation) (next : Invocation) :
    setup.after start (earlier ++ [next]) =
      (setup.perform (setup.after start earlier) next).2 := by
  rw [after, List.foldl_append]
  rfl

/-- The calculator of a session after runs. -/
def sessionAfter (initial : Option History) (runs : List Invocation) : Calculator :=
  (setup.session initial).afterTexts (sharedTexts runs)

theorem sessionAfter_concat (initial : Option History) (earlier : List Invocation)
    (next : Invocation) : setup.sessionAfter initial (earlier ++ [next]) =
      next.next (setup.sessionAfter initial earlier) :=
  afterTexts_sharedTexts_concat _ earlier next

/-- Whether nothing comes between a run and its files, for each of the runs in its turn. -/
def AllUndisturbed (runs : List Invocation) : Prop :=
  ∀ earlier next, earlier ++ [next] <+: runs → setup.Undisturbed (setup.after start earlier)

/-- Whether one of the runs shared the history and succeeded. -/
def HasSaved (runs : List Invocation) : Prop :=
  ∃ earlier next, earlier ++ [next] <+: runs ∧ next.isolated = false ∧
    (setup.perform (setup.after start earlier) next).1.Succeeds

end

section

variable {initial : Option History} {start : Machine} {runs earlier : List Invocation}

/-- A history file that is absent or was saved, with any capacity, is in accord with a calculator
that has the last of its results. -/
theorem tracks_session (h : setup.stored start = initial.map HistoryFile.text) :
    setup.Tracks start (setup.session initial) where
  limits := rfl
  loads := by
    cases initial with
    | some history => exact storedHistory_of_stored h
    | none =>
      have hempty : History.empty? setup.settings.historySize = .ok setup.noResults :=
        dif_pos setup.settings.historySize_pos
      rw [stored] at h
      rw [storedHistory, h]
      show ((History.empty? _).mapError HistoryFile.LoadFault.capacity >>= _) = _
      rw [hempty]
      rfl

theorem AllUndisturbed.tracks (h : setup.AllUndisturbed start runs)
    (hstart : setup.stored start = initial.map HistoryFile.text) (hstarts : earlier <+: runs) :
    setup.Tracks (setup.after start earlier) (setup.sessionAfter initial earlier) := by
  induction earlier using List.reverseRecOn with
  | nil => exact tracks_session hstart
  | append_singleton earlier next ih =>
    have hearlier := ih ((List.prefix_append earlier [next]).trans hstarts)
    rw [after_concat, sessionAfter_concat]
    exact hearlier.perform (h earlier next hstarts) next

/-- **A machine that is ready stays so**, so all runs on it are undisturbed. -/
theorem Ready.allUndisturbed {places : Places} (h : setup.Ready places start)
    (hstart : setup.stored start = initial.map HistoryFile.text) (runs : List Invocation) :
    setup.AllUndisturbed start runs := by
  have hall (earlier : List Invocation) : setup.Ready places (setup.after start earlier) ∧
      setup.Tracks (setup.after start earlier) (setup.sessionAfter initial earlier) := by
    induction earlier using List.reverseRecOn with
    | nil => exact ⟨h, tracks_session hstart⟩
    | append_singleton earlier next ih =>
      obtain ⟨hready, htracks⟩ := ih
      rw [after_concat, sessionAfter_concat]
      exact ⟨hready.perform next htracks.loads, htracks.perform hready.undisturbed next⟩
  exact fun earlier _ _ => (hall earlier).1.undisturbed

theorem AllUndisturbed.follows (h : setup.AllUndisturbed start runs)
    (hstart : setup.stored start = initial.map HistoryFile.text) {next : Invocation}
    (hstarts : earlier ++ [next] <+: runs) :
    setup.Follows (setup.after start earlier) (setup.sessionAfter initial earlier) next :=
  (h.tracks hstart ((List.prefix_append earlier [next]).trans hstarts)).follows
    (h earlier next hstarts) next

/-- Once a run has saved the history, the file holds that of the session. -/
theorem AllUndisturbed.stored_eq (h : setup.AllUndisturbed start runs)
    (hstart : setup.stored start = initial.map HistoryFile.text) (hstarts : earlier <+: runs)
    (hsaved : setup.HasSaved start earlier) :
    setup.stored (setup.after start earlier) =
      some (HistoryFile.text (setup.sessionAfter initial earlier).history) := by
  induction earlier using List.reverseRecOn with
  | nil =>
    obtain ⟨_, _, hnil, -⟩ := hsaved
    exact absurd (List.prefix_nil.mp hnil) (List.concat_ne_nil _ _)
  | append_singleton earlier next ih =>
    have hfollows := h.follows hstart hstarts
    rw [after_concat, sessionAfter_concat]
    rcases hfollows.cases with ⟨hsame, hkept⟩ | ⟨hshared, hsuccess⟩
    · obtain ⟨before, last, hbefore, hshared, hsuccess⟩ := hsaved
      rcases List.prefix_concat_iff.mp hbefore with heq | hbefore
      · -- the run that saved the history is the last one
        obtain ⟨rfl, hlast⟩ := List.append_inj' heq rfl
        obtain rfl := List.singleton_inj.mp hlast
        exact hfollows.saved hshared hsuccess
      · rw [hsame, hkept]
        exact ih ((List.prefix_append earlier [next]).trans hstarts)
          ⟨before, last, hbefore, hshared, hsuccess⟩
    · exact hfollows.saved hshared hsuccess

/-- **Runs in a row are one session.**  Each run answers what the calculator of the session says
about its expression, and an isolated one what a calculator without results says, whatever the file
holds.  After each run what can be loaded from the file is the history of that calculator, and once
a run has saved it the file holds exactly its text. -/
theorem runs_follow (hstart : setup.stored start = initial.map HistoryFile.text)
    (hruns : setup.AllUndisturbed start runs) :
    ((setup.session initial).history.capacity = setup.settings.historySize ∧
      (setup.session initial).history.toList =
        (initial.elim [] History.toList).rtake setup.settings.historySize) ∧
    (∀ machine calculator invocation, setup.Undisturbed machine → invocation.isolated = true →
      setup.Follows machine calculator invocation) ∧
    ∀ earlier next, earlier ++ [next] <+: runs →
      setup.Follows (setup.after start earlier) (setup.sessionAfter initial earlier) next ∧
      setup.Tracks (setup.after start (earlier ++ [next]))
        (setup.sessionAfter initial (earlier ++ [next])) ∧
      (setup.HasSaved start (earlier ++ [next]) →
        setup.stored (setup.after start (earlier ++ [next])) =
          some (HistoryFile.text (setup.sessionAfter initial (earlier ++ [next])).history)) := by
  refine ⟨⟨History.capacity_pushAll _ _, HistoryFile.toList_pushAll_empty _ _⟩, ?_, ?_⟩
  · intro machine calculator invocation hcalm hisolated
    exact hcalm.follows_of_isolated calculator hisolated
  · intro earlier next hstarts
    exact ⟨hruns.follows hstart hstarts, hruns.tracks hstart hstarts,
      hruns.stored_eq hstart hstarts⟩

end

/-! A machine with the directories of the standard settings and a history of two results. -/

/-- The standard settings. -/
def sampleSetup : Setup where
  arguments := []
  options := {}
  configuration := .standard
  unknown := []
  settings :=
    { historySize := 10
      historyFile := "~/.clc/history.json"
      logDirectory := "~/.clc/logs"
      logLevel := .info
      nestingLimit := 50
      historySize_pos := by decide }
  asked := rfl
  file := rfl
  launcher := rfl
  noHistory := rfl
  quiet := rfl
  checked := rfl

/-- The directory of the files. -/
def sampleDirectory : Place := ["home".toList, ".clc".toList]

/-- The places of the files. -/
def samplePlaces : Places where
  configuration := sampleDirectory ++ ["config.yaml".toList]
  log := sampleDirectory ++ ["logs".toList, "clc.log".toList]
  history := sampleDirectory ++ ["history.json".toList]

/-- The machine. -/
def sampleMachine : Machine where
  nodes := [(["home".toList], .directory), (sampleDirectory, .directory),
    (sampleDirectory ++ ["logs".toList], .directory),
    (samplePlaces.history, .file (HistoryFile.text HistoryFile.sampleHistory))]

/-- A run that shares the history, one that does not, and another one that does. -/
def sampleRuns : List Invocation := [⟨"1 + 2", false⟩, ⟨"$0", true⟩, ⟨"$0 + 4", false⟩]

theorem historyFile_sampleMachine :
    sampleSetup.historyFile sampleMachine = "/home/.clc/history.json" := by decide

theorem logFile_sampleMachine : sampleSetup.logFile sampleMachine = "/home/.clc/logs/clc.log" := by
  have hdirectory : sampleSetup.logDirectory sampleMachine = "/home/.clc/logs" := by decide
  have hfile : Path.join "/home/.clc/logs" logFileName = "/home/.clc/logs/clc.log" :=
    Path.join_of_relative (by decide) (by decide) (by decide)
  rw [logFile, hdirectory, hfile, Path.join_of_absolute (by decide)]
  decide

theorem nodeAt_sampleMachine : sampleMachine.nodeAt samplePlaces.history =
    some (.file (HistoryFile.text HistoryFile.sampleHistory)) := rfl

theorem ready_sampleMachine : sampleSetup.Ready samplePlaces sampleMachine where
  configured := rfl
  configuration := by decide
  logDirectory := ⟨by decide, by decide, .inr (by decide)⟩
  log := by
    rw [logFile_sampleMachine]
    decide
  logIsFile := by decide
  historyDirectory := by
    have hdirectory : Path.directory "/home/.clc/history.json" = "/home/.clc" := by decide
    rw [historyFile_sampleMachine, hdirectory]
    exact .inr ⟨by decide, by decide, .inr (by decide)⟩
  history := by
    rw [historyFile_sampleMachine]
    decide
  historyIsFile := by
    rw [nodeAt_sampleMachine]
    nofun
  configurationApart := by decide
  logApart := by decide

theorem stored_sampleMachine : sampleSetup.stored sampleMachine =
    (some HistoryFile.sampleHistory).map HistoryFile.text :=
  textAt?_eq_some_iff.mpr
    (Machine.read_eq_ok_iff.mpr ⟨_, ready_sampleMachine.history, nodeAt_sampleMachine⟩)

set_option maxRecDepth 2000 in
/-- The second run does not see the result of the first one, and the third one does. -/
theorem runs_follow_sample :
    sampleSetup.stored sampleMachine = (some HistoryFile.sampleHistory).map HistoryFile.text ∧
    sampleSetup.AllUndisturbed sampleMachine sampleRuns ∧
    sampleSetup.LimitsAreNumbers ∧
    (sampleSetup.perform sampleMachine ⟨"1 + 2", false⟩).1 =
      .finished { status := 0, output := "3\n" } ∧
    (sampleSetup.perform (sampleSetup.after sampleMachine [⟨"1 + 2", false⟩]) ⟨"$0", true⟩).1 =
      .finished { status := 1, errors :=
        "Error: History reference out of range: $0\nPosition: 0\nReceived: $0\n" ++
        "Expected: An index below 0 (available: none - the history is empty)\n" ++
        "Context: The history holds 0 of at most 10 results\n" ++
        "Suggestion: $0 is the most recent result, $1 the one before it\n" } ∧
    (sampleSetup.perform (sampleSetup.after sampleMachine [⟨"1 + 2", false⟩, ⟨"$0", true⟩])
      ⟨"$0 + 4", false⟩).1 = .finished { status := 0, output := "7\n" } ∧
    sampleSetup.stored (sampleSetup.after sampleMachine sampleRuns) =
      some (HistoryFile.text
        (sampleSetup.sessionAfter (some HistoryFile.sampleHistory) sampleRuns).history) ∧
    (sampleSetup.sessionAfter (some HistoryFile.sampleHistory) sampleRuns).history.toList =
      HistoryFile.sampleHistory.toList ++ [.integer .u64 3 none, .integer .u64 7 none] := by
  have hcalm := ready_sampleMachine.allUndisturbed stored_sampleMachine sampleRuns
  obtain ⟨-, -, hall⟩ := runs_follow stored_sampleMachine hcalm
  obtain ⟨hfirst, -, -⟩ := hall [] ⟨"1 + 2", false⟩ ⟨[⟨"$0", true⟩, ⟨"$0 + 4", false⟩], rfl⟩
  obtain ⟨hsecond, -, -⟩ := hall [⟨"1 + 2", false⟩] ⟨"$0", true⟩ ⟨[⟨"$0 + 4", false⟩], rfl⟩
  obtain ⟨hthird, -, hsaved⟩ := hall [⟨"1 + 2", false⟩, ⟨"$0", true⟩] ⟨"$0 + 4", false⟩ ⟨[], rfl⟩
  have hone : sampleSetup.answer ((sampleSetup.consulted
      (sampleSetup.sessionAfter (some HistoryFile.sampleHistory) []) ⟨"1 + 2", false⟩).evaluate
        "1 + 2") = .finished { status := 0, output := "3\n" } := by
    with_unfolding_all rfl
  have hsucceeds : (sampleSetup.perform (sampleSetup.after sampleMachine [])
      ⟨"1 + 2", false⟩).1.Succeeds := ⟨_, hfirst.answer.trans hone, rfl⟩
  refine ⟨stored_sampleMachine, hcalm, ⟨rfl, rfl⟩, ?_, ?_, ?_, ?_, ?_⟩
  · exact hfirst.answer.trans hone
  · rw [hsecond.answer]
    with_unfolding_all rfl
  · rw [hthird.answer]
    with_unfolding_all rfl
  · exact hsaved ⟨[], ⟨"1 + 2", false⟩, ⟨[⟨"$0", true⟩, ⟨"$0 + 4", false⟩], rfl⟩, rfl, hsucceeds⟩
  · with_unfolding_all rfl

end Setup

end CommandLine

end TypedCalc
