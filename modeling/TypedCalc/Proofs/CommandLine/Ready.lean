import TypedCalc.Proofs.CommandLine.Run

/-!
# Machines on which runs find what they need

When the directories of the log and of the history are there, and the files of a run are at three
different places, nothing comes between a run and its files.  A run puts files at two of the places
and nowhere else, so the next run finds what it needs as well.

* `Setup.Ready.undisturbed`: a run on such a machine is undisturbed.
* `Setup.Ready.perform`: the machine after it is such a machine.
-/

namespace TypedCalc.CommandLine

/-- The places of the files of a run. -/
structure Places where
  /-- The place of the configuration file. -/
  configuration : Place
  /-- The place of the log file. -/
  log : Place
  /-- The place of the history file. -/
  history : Place

namespace Setup

variable (setup : Setup) (places : Places) (machine : Machine)

/-- The directory for the log, from the root. -/
def logDirectory : String := Path.expandHome machine.home setup.settings.logDirectory

/-- The path of the log file. -/
def logFile : String :=
  Path.normalize (Path.join
    (String.ofList ('/' :: List.intercalate ['/'] machine.currentDirectory))
    (Path.join (setup.logDirectory machine) logFileName))

/-- The path of the history file. -/
def historyFile : String := Path.expandHome machine.home setup.settings.historyFile

/-- Whether a machine has the directories that a run needs, and its files are at different
places. -/
structure Ready : Prop where
  configured : ((loadConfiguration setup.options.configuration :
    ExceptT Failure (StateM Machine) _).run.run machine).1 =
      .ok (setup.configuration, setup.unknown)
  configuration : machine.locate
    (Path.expandHome machine.home setup.options.configuration).toList = .ok places.configuration
  logDirectory : machine.HasDirectory (setup.logDirectory machine).toList
  log : machine.locate (setup.logFile machine).toList = .ok places.log
  logIsFile : machine.nodeAt places.log ≠ some .directory
  historyDirectory : (Path.directory (setup.historyFile machine)).isEmpty = true ∨
    machine.HasDirectory (Path.directory (setup.historyFile machine)).toList
  history : machine.locate (setup.historyFile machine).toList = .ok places.history
  historyIsFile : machine.nodeAt places.history ≠ some .directory
  configurationApart : places.configuration ≠ places.log ∧ places.configuration ≠ places.history
  logApart : places.log ≠ places.history

variable {setup places machine}

section

variable {larger : Machine} (h : machine.KeepsDirectories larger)
include h

theorem logDirectory_congr : setup.logDirectory larger = setup.logDirectory machine := by
  rw [logDirectory, logDirectory, h.home]

theorem logFile_congr : setup.logFile larger = setup.logFile machine := by
  rw [logFile, logFile, logDirectory_congr h, h.currentDirectory]

theorem historyFile_congr : setup.historyFile larger = setup.historyFile machine := by
  rw [historyFile, historyFile, h.home]

end

/-- The configuration depends on what is at its path and on the reader of documents only. -/
theorem run_loadConfiguration_congr {path : String} (machine other : Machine)
    (hhome : other.home = machine.home) (hload : other.loadYaml = machine.loadYaml)
    (hfind : other.find? (Path.expandHome machine.home path) =
      machine.find? (Path.expandHome machine.home path))
    (hread : other.read (Path.expandHome machine.home path) =
      machine.read (Path.expandHome machine.home path)) :
    ((loadConfiguration path : ExceptT Failure (StateM Machine) _).run.run other).1 =
      ((loadConfiguration path : ExceptT Failure (StateM Machine) _).run.run machine).1 := by
  rw [loadConfiguration, run_bind_of_ok (run_lift (machine.run_expand path)),
    run_bind_of_ok (run_lift (other.run_expand path)),
    run_bind_of_ok (run_lift (machine.run_kind? _)),
    run_bind_of_ok (run_lift (other.run_kind? _)), hhome, hfind]
  split
  · rfl
  · cases hmachine : machine.read (Path.expandHome machine.home path) with
    | error cause =>
      rw [run_bind_of_ok (run_lift (machine.run_readText _)),
        run_bind_of_ok (run_lift (other.run_readText _)), hread, hmachine]
      rfl
    | ok text =>
      rw [run_bind_of_ok (run_lift (Machine.run_readText_of_ok hmachine)),
        run_bind_of_ok (run_lift (Machine.run_readText_of_ok (hread.trans hmachine))),
        run_bind_of_ok (run_orFail_ok _ _ other), run_bind_of_ok (run_orFail_ok _ _ machine),
        run_bind_of_ok (run_lift (other.run_loadYaml _)),
        run_bind_of_ok (run_lift (machine.run_loadYaml _)), hload]
      rfl

namespace Ready

/-- A file at one of the two places leaves all as a run needs it. -/
theorem put (h : setup.Ready places machine) {place : Place}
    (hplace : place = places.log ∨ place = places.history) (text : String) :
    setup.Ready places (machine.put place (.file text)) := by
  have hfile : machine.nodeAt place ≠ some .directory := by
    rcases hplace with rfl | rfl
    · exact h.logIsFile
    · exact h.historyIsFile
  -- no directory is replaced, so every path leads to where it led
  have hkeeps := Machine.keepsDirectories_put hfile (.file text)
  have hnode {other : Place} (hother : machine.nodeAt other ≠ some .directory) :
      (machine.put place (.file text)).nodeAt other ≠ some .directory := by
    by_cases heq : other = place
    · rw [heq, Machine.nodeAt_put_self machine (Machine.ne_nil_of_nodeAt hfile)]
      nofun
    · rwa [Machine.nodeAt_put_of_ne machine heq]
  have hne : places.configuration ≠ place := by
    rcases hplace with rfl | rfl
    · exact h.configurationApart.1
    · exact h.configurationApart.2
  obtain ⟨hfind, hread⟩ := Machine.find?_read_put_of_ne h.configuration hne hfile (.file text)
  have hsame := run_loadConfiguration_congr machine (machine.put place (.file text)) hkeeps.home rfl
    hfind hread
  refine ⟨hsame.trans h.configured, ?_, ?_, ?_, hnode h.logIsFile, ?_, ?_, hnode h.historyIsFile,
    h.configurationApart, h.logApart⟩
  · rw [hkeeps.home]
    exact hkeeps.locate_eq_ok h.configuration
  · rw [logDirectory_congr hkeeps]
    exact hkeeps.hasDirectory h.logDirectory
  · rw [logFile_congr hkeeps]
    exact hkeeps.locate_eq_ok h.log
  · rw [historyFile_congr hkeeps]
    exact h.historyDirectory.imp_right hkeeps.hasDirectory
  · rw [historyFile_congr hkeeps]
    exact hkeeps.locate_eq_ok h.history

theorem run_openLog (h : setup.Ready places machine) :
    ∃ text, (openLog setup.settings.logDirectory : StateM Machine _).run machine =
      (.ok (), machine.put places.log (.file text)) := by
  obtain ⟨text, hedit⟩ := Machine.exists_edit h.log h.logIsFile id
  have hopen : (Host.openLog (setup.logFile machine) : StateM Machine _).run machine =
      (.ok (), machine.put places.log (.file text)) :=
    Machine.run_of_ok (setup.logFile machine) hedit
  have hprovided : (Host.provideDirectories
      (Path.expandHome machine.home setup.settings.logDirectory).toList : StateM Machine _).run
        machine = (.ok (), machine) := h.logDirectory.run_provideDirectories
  refine ⟨text, ?_⟩
  rw [openLog, run_bind_of_eq (machine.run_expand _), run_bind_of_eq hprovided]
  dsimp only
  rw [run_bind_of_eq (machine.run_absolute _)]
  exact hopen

theorem run_saveHistory (h : setup.Ready places machine) (history : History) :
    ∃ text, (saveHistory setup.settings.historyFile history : StateM Machine _).run machine =
      (.ok (), machine.put places.history (.file text)) := by
  obtain ⟨text, hedit⟩ := Machine.exists_edit h.history h.historyIsFile
    (fun _ => HistoryFile.text history)
  have hwrite : (Host.writeFile (setup.historyFile machine) (HistoryFile.text history) :
      StateM Machine _).run machine = (.ok (), machine.put places.history (.file text)) :=
    Machine.run_of_ok (setup.historyFile machine) hedit
  refine ⟨text, ?_⟩
  rw [saveHistory, run_bind_of_eq (machine.run_expand _)]
  rw [historyFile] at hwrite
  dsimp only
  split
  · rw [run_bind_of_eq (StateT.run_pure _ _)]
    exact hwrite
  · rename_i hnamed
    have hprovided : (Host.provideDirectories (Path.directory
        (Path.expandHome machine.home setup.settings.historyFile)).toList : StateM Machine _).run
          machine = (.ok (), machine) :=
      (h.historyDirectory.resolve_left hnamed).run_provideDirectories
    rw [run_bind_of_eq hprovided]
    exact hwrite

theorem logged (h : setup.Ready places machine) :
    ∃ text, setup.logged machine = machine.put places.log (.file text) := by
  obtain ⟨text, hopen⟩ := h.run_openLog
  exact ⟨text, congrArg Prod.snd hopen⟩

/-- **A run finds what it needs.** -/
theorem undisturbed (h : setup.Ready places machine) : setup.Undisturbed machine := by
  obtain ⟨text, hopen⟩ := h.run_openLog
  obtain ⟨_, hlogged⟩ := h.logged
  refine ⟨h.configured, congrArg Prod.fst hopen, fun hnone => ?_, fun history => ?_⟩
  · rw [hlogged]
    obtain ⟨-, hread⟩ := Machine.find?_read_put_of_ne h.history h.logApart.symm h.logIsFile _
    exact (congrArg Except.toOption hread).trans hnone
  · rw [hlogged]
    obtain ⟨_, hsave⟩ := (h.put (.inl rfl) _).run_saveHistory history
    exact congrArg Prod.fst hsave

/-- **A run leaves what the next one needs.** -/
theorem perform (h : setup.Ready places machine) (invocation : Invocation) {history : History}
    {warnings : List HistoryFile.Warning}
    (hload : storedHistory setup.settings.historyFile setup.settings.historySize machine =
      .ok (history, warnings)) :
    setup.Ready places (setup.perform machine invocation).2 := by
  have hcalm := h.undisturbed
  have hready : setup.Ready places (setup.logged machine) := by
    obtain ⟨_, hlogged⟩ := h.logged
    rw [hlogged]
    exact h.put (.inl rfl) _
  -- the run ends with the log opened, or with the history saved after that
  cases hcase : invocation.isolated with
  | true =>
    obtain ⟨-, hkept, -⟩ := hcalm.perform_spec (fun _ => rfl)
      (fun hshared => nomatch hcase.symm.trans hshared) rfl
    rw [hkept (.inl hcase)]
    exact hready
  | false =>
    obtain ⟨-, hkept, hsaved⟩ := hcalm.perform_spec
      (fun hisolated => nomatch hcase.symm.trans hisolated) (fun _ => ⟨_, hload⟩) rfl
    cases hresult : (setup.calculator history).evaluate invocation.expression with
    | error error =>
      rw [hkept (.inr ⟨error, hresult⟩)]
      exact hready
    | ok found =>
      obtain ⟨_, hsave⟩ := hready.run_saveHistory found.2.history
      obtain ⟨-, hafter⟩ := Prod.mk.inj ((hsaved hcase found.1 found.2 hresult).symm.trans hsave)
      rw [hafter]
      exact hready.put (.inr rfl) _

end Ready

end Setup

end TypedCalc.CommandLine
