import TypedCalc.Calculator
import TypedCalc.CommandLine.Options
import TypedCalc.Format
import TypedCalc.HistoryFile
import TypedCalc.Host.Basic
import TypedCalc.SettingsFile

/-!
# A run of the program

A run reads the settings, evaluates one expression with the stored history and stores the history
with the result.  The first thing that goes wrong ends the run; the history file is written only
after an evaluation that has a value.

What the run needs from outside is a `Host`, so that `run` is a function on the model of a machine
as well as the program itself.  What is written to the log is left out, and so are the lines of it
that a run with `--verbose` repeats among its errors.
-/

namespace TypedCalc.CommandLine

/-! ## What ends a run early -/

/-- Why a run has no result. -/
inductive Failure
  /-- The configuration file cannot be opened. -/
  | configurationFile (path : String) (fault : FileFault)
  /-- The configuration file cannot be understood. -/
  | configuration (path : String) (fault : ConfigurationFault)
  /-- Settings are out of range. -/
  | settings (faults : List SettingFault)
  /-- There can be no log file. -/
  | log (directory : String) (fault : FileFault)
  /-- The file with the expression cannot be opened. -/
  | expressionFile (fault : FileFault)
  /-- The history file holds a number that is too large for its type. -/
  | history (fault : HistoryFile.LoadFault)
  /-- The path of the history file cannot be the path of a file. -/
  | historyPath (fault : FileFault)
  /-- The expression has no value. -/
  | calculator (error : CalculatorError) (wording : LimitWording)

namespace Failure

/-- The message about a failure. -/
def message : Failure → String
  | .configurationFile path fault =>
    "Failed to load configuration " ++ path ++ ": " ++ fault.message
  | .configuration path fault =>
    "Failed to load configuration " ++ path ++ ": " ++ fault.message path
  | .settings faults =>
    "Configuration errors found:\n" ++
      String.intercalate "\n" (faults.map fun fault => "  - " ++ fault.message)
  | .log directory fault => "Failed to set up logging in " ++ directory ++ ": " ++ fault.message
  | .expressionFile fault => fault.message
  | .history fault => fault.message
  | .historyPath fault => fault.message
  | .calculator error wording => (error.report wording).message

/-- The whole text about a failure. -/
def text : Failure → String
  | .calculator error wording => (error.report wording).text
  | failure => failure.message

/-- Whether a failure leaves the run without an answer: a file, a path or a number is at fault in a
way that is not reported. -/
def isUnreported : Failure → Bool
  | .configuration _ (.unorderedKeys _ _) => true
  | .configuration _ (.unreadable fault) => !fault.isReported
  | .log _ fault => fault.cause == .nullCharacter
  | .expressionFile fault => fault.cause == .nullCharacter
  | .history _ => true
  | .historyPath _ => true
  | .calculator (.lexical error) _ => error.fault.isConversion
  | _ => false

end Failure

/-! ## What a run comes to -/

/-- What a finished run leaves. -/
structure Outcome where
  /-- The exit status. -/
  status : Nat
  /-- The text for the user. -/
  output : String := ""
  /-- The text about errors. -/
  errors : String := ""
  deriving DecidableEq, Repr

/-- What a run comes to. -/
inductive Ending
  /-- The command line is of no use. -/
  | misuse (cause : Misuse)
  /-- The user asks what the program is for. -/
  | help
  /-- The run has an answer. -/
  | finished (outcome : Outcome)
  /-- The run has no answer. -/
  | broken (failure : Failure)

/-- The value of an expression, and why the history with it could not be stored. -/
structure Evaluated where
  /-- The value. -/
  value : Value
  /-- The fault of the history file. -/
  saveFault : Option FileFault := none

/-- The answer that says why a run has no result. -/
def Failure.ending (launcher : Bool) (notice : String) (failure : Failure) : Ending :=
  if failure.isUnreported then .broken failure
  else if launcher then
    .finished { status := 1, output := Launcher.error failure.message ++ "\n", errors := notice }
  else .finished { status := 1, errors := notice ++ failure.text ++ "\n" }

/-- The answer with the value of an expression. -/
def Evaluated.ending (launcher : Bool) (notice : String) (result : Evaluated) : Ending :=
  let answer := if launcher then Launcher.result result.value else result.value.format
  match result.saveFault with
  | none => .finished { status := 0, output := answer ++ "\n", errors := notice }
  | some fault =>
    .finished
      { status := 1
        output := answer ++ "\n"
        errors := notice ++ "Failed to save history: " ++ fault.message ++ "\n" }

/-! ## The steps of a run -/

section Steps

variable {m : Type → Type} [Monad m] [Host m]

/-- A fault as the failure of a run. -/
def orFail {ε α : Type} (failure : ε → Failure) (result : Except ε α) : ExceptT Failure m α :=
  ExceptT.mk (pure (result.mapError failure))

/-- The configuration that a run starts from, and the keys that are not names of settings. -/
def loadConfiguration (path : String) : ExceptT Failure m (Configuration × List Datum) := do
  let file ← liftM (Host.expand path : m String)
  let kind ← liftM (Host.kind? file : m (Option FileKind))
  if kind.isNone then return (.standard, [])
  let text ← liftM (Host.readText file : m (Except FileFault String))
  let text ← orFail (.configurationFile path) text
  let document ← liftM (Host.loadYaml text : m (Except DocumentFault Datum))
  orFail (.configuration path) (Configuration.ofDocument document)

/-- A configuration with the data of the command line in the place of its own. -/
def Options.configure (options : Options) (configuration : Configuration) : Configuration :=
  ((configuration.override .historyFile (options.historyFile.map .string)).override
    .historySize (options.historySize.map .integer)).override
    .logDirectory (options.logDirectory.map .string)

/-- The limits as a configuration writes them. -/
def limitWording (configuration : Configuration) : LimitWording :=
  ⟨fun _ => (configuration.get .historySize).display,
    fun _ => (configuration.get .nestingLimit).display⟩

/-- The name of the log file. -/
def logFileName : String := "clc.log"

/-- Open the log file. -/
def openLog (directory : String) : m (Except FileFault Unit) := do
  let directory ← Host.expand directory
  match ← Host.provideDirectories directory.toList with
  | .error fault => return .error fault
  | .ok () => Host.openLog (← Host.absolute (Path.join directory logFileName))

/-- The expression that a run is about. -/
def readExpression (options : Options) : ExceptT Failure m String := do
  match options.expression, options.file with
  | some text, _ => return text
  | none, some file =>
    let text ← liftM (Host.readText file : m (Except FileFault String))
    orFail .expressionFile text
  | none, none => liftM (Host.readLine : m String)

/-- The text of the stored history, if there is a file that can be read. -/
def readHistory (path : String) : m (Option String) := do
  let file ← Host.expand path
  if (← Host.kind? file).isNone then return none
  return (← Host.readText file).toOption

/-- The history that a run starts from. -/
def loadHistory (options : Options) (settings : Settings) : ExceptT Failure m History := do
  if options.noHistory then return History.empty settings.historySize settings.historySize_pos
  let text ← liftM (readHistory settings.historyFile : m (Option String))
  let loaded ← orFail .history (HistoryFile.load text settings.historySize)
  return loaded.1

/-- Store a history. -/
def saveHistory (path : String) (history : History) : m (Except FileFault Unit) := do
  let file ← Host.expand path
  let directory := Path.directory file
  let provided ←
    if directory.isEmpty then pure (.ok ()) else Host.provideDirectories directory.toList
  match provided with
  | .error fault => return .error fault
  | .ok () => Host.writeFile file (HistoryFile.text history)

/-- Evaluate the expression of a run and store the history with its value. -/
def evaluate (options : Options) (configuration : Configuration) (interpreter : Interpreter := {}) :
    ExceptT Failure m Evaluated := do
  let configuration := options.configure configuration
  let settings ← orFail .settings configuration.check
  let log ← liftM (openLog settings.logDirectory : m (Except FileFault Unit))
  orFail (.log settings.logDirectory) log
  let expression ← readExpression options
  let history ← loadHistory options settings
  let calculator : Calculator := { history := history, nestingLimit := settings.nestingLimit }
  let (value, after) ←
    orFail (.calculator · (limitWording configuration)) (calculator.evaluate expression interpreter)
  if options.noHistory then return { value := value }
  let saved ← liftM (saveHistory settings.historyFile after.history : m (Except FileFault Unit))
  match saved with
  | .ok () => return { value := value }
  | .error fault =>
    if fault.cause = .nullCharacter then throw (.historyPath fault)
    else return { value := value, saveFault := some fault }

/-- A run with given options. -/
def perform (options : Options) (interpreter : Interpreter := {}) : m Ending := do
  match ← (loadConfiguration options.configuration).run with
  | .error failure => return failure.ending options.launcher ""
  | .ok (configuration, unknown) =>
    let notice := if unknown.isEmpty then ""
      else unknownSettingsWarning options.configuration unknown ++ "\n"
    match ← (evaluate options configuration interpreter).run with
    | .error failure => return failure.ending options.launcher notice
    | .ok result => return result.ending options.launcher notice

/-- A run with a command line. -/
def run (arguments : List String) (interpreter : Interpreter := {}) : m Ending := do
  match Request.ofArguments arguments with
  | .error cause => return .misuse cause
  | .ok .help => return .help
  | .ok (.run options) => perform options interpreter

end Steps

end TypedCalc.CommandLine
