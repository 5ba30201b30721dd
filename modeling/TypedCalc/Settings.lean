import TypedCalc.Datum.Basic
import TypedCalc.Expr.OfTokens
import TypedCalc.History

/-!
# Settings

A `Configuration` holds a datum for each of the five settings, whatever its sort; `Settings` are
checked: the numbers are in range, the level of log messages is known and the paths are not empty.

* `Configuration.faults` lists what is wrong with a configuration.
* `Configuration.check`: the settings, or what is wrong.
-/

namespace TypedCalc

/-! ## Levels of log messages -/

/-- The levels of log messages. -/
inductive LogLevel
  /-- Every step. -/
  | debug
  /-- What was done. -/
  | info
  /-- What looks wrong. -/
  | warning
  /-- What failed. -/
  | error
  /-- What ends the program. -/
  | critical
  deriving DecidableEq, Repr

namespace LogLevel

/-- The levels, the least important first. -/
def all : List LogLevel := [.debug, .info, .warning, .error, .critical]

/-- The name of a level. -/
def name : LogLevel → String
  | .debug => "DEBUG"
  | .info => "INFO"
  | .warning => "WARNING"
  | .error => "ERROR"
  | .critical => "CRITICAL"

/-- The capital of a letter.  The small i without a dot has the capital of the one with a dot. -/
def capital (c : Char) : Char := if c = '\u0131' then 'I' else c.toUpper

/-- The level of a name in capital or small letters. -/
def ofName? (name : String) : Option LogLevel :=
  all.find? fun level => level.name.toList == name.toList.map capital

end LogLevel

/-! ## The five settings -/

/-- The settings by name. -/
inductive Setting
  /-- How many results the history keeps. -/
  | historySize
  /-- Where the history is stored. -/
  | historyFile
  /-- Where log files are written. -/
  | logDirectory
  /-- Which log messages are written. -/
  | logLevel
  /-- How many groups, calls and prefix operators can be nested. -/
  | nestingLimit
  deriving DecidableEq, Repr

namespace Setting

/-- The name of a setting. -/
def name : Setting → String
  | .historySize => "history_size"
  | .historyFile => "history_file"
  | .logDirectory => "log_dir"
  | .logLevel => "log_level"
  | .nestingLimit => "max_depth"

/-- The settings in the order of their names. -/
def all : List Setting := [.historyFile, .historySize, .logDirectory, .logLevel, .nestingLimit]

/-- The settings in the order in which faults are reported. -/
def inReportOrder : List Setting :=
  [.historySize, .nestingLimit, .logLevel, .historyFile, .logDirectory]

/-- The setting of a name. -/
def ofName? (name : String) : Option Setting := all.find? fun setting => setting.name == name

/-- The datum that a setting has when nothing else is said. -/
def standard : Setting → Datum
  | .historySize => .integer History.defaultCapacity
  | .historyFile => .string "~/.clc/history.json"
  | .logDirectory => .string "~/.clc/logs"
  | .logLevel => .string LogLevel.info.name
  | .nestingLimit => .integer Expr.defaultLimit

end Setting

/-- The largest number of results that a history is configured to keep. -/
def Settings.maxHistorySize : Nat := 255

/-- The largest number of nested groups, calls and prefix operators that is configured. -/
def Settings.maxNestingLimit : Nat := 60

/-- Settings that can be worked with. -/
structure Settings where
  /-- How many results the history keeps. -/
  historySize : Nat
  /-- Where the history is stored. -/
  historyFile : String
  /-- Where log files are written. -/
  logDirectory : String
  /-- Which log messages are written. -/
  logLevel : LogLevel
  /-- How many groups, calls and prefix operators can be nested. -/
  nestingLimit : Nat
  /-- The history keeps at least one result. -/
  historySize_pos : 0 < historySize
  deriving DecidableEq, Repr

/-! ## Configurations -/

namespace Datum

/-- The whole number that a datum is; truth values are one and zero. -/
def whole? : Datum → Option Int
  | .integer n => some n
  | .bool flag => some (if flag then 1 else 0)
  | _ => none

/-- The whole number from one to a limit that a datum is. -/
def countUpTo? (limit : Nat) (datum : Datum) : Option { n : Nat // 0 < n } :=
  match datum.whole? with
  | some n => if h : 0 < n.toNat ∧ n.toNat ≤ limit then some ⟨n.toNat, h.1⟩ else none
  | none => none

/-- The path that a datum is: a text that is not empty. -/
def path? : Datum → Option String
  | .string text => if text.isEmpty then none else some text
  | _ => none

/-- The level that a datum names. -/
def logLevel? : Datum → Option LogLevel
  | .string name => LogLevel.ofName? name
  | _ => none

end Datum

/-- A datum for each setting. -/
structure Configuration where
  /-- The datum of a setting. -/
  get : Setting → Datum

/-- A setting whose datum is of no use. -/
structure SettingFault where
  /-- The setting. -/
  setting : Setting
  /-- Its datum. -/
  found : Datum

namespace Setting

/-- Whether a datum is of use for a setting. -/
def accepts (datum : Datum) : Setting → Bool
  | .historySize => (datum.countUpTo? Settings.maxHistorySize).isSome
  | .nestingLimit => (datum.countUpTo? Settings.maxNestingLimit).isSome
  | .logLevel => datum.logLevel?.isSome
  | .historyFile | .logDirectory => datum.path?.isSome

/-- What the datum of a setting must be. -/
def expectation : Setting → String
  | .historySize => "an integer from 1 to " ++ toString Settings.maxHistorySize
  | .nestingLimit => "an integer from 1 to " ++ toString Settings.maxNestingLimit
  | .logLevel => "one of " ++ String.intercalate ", " (LogLevel.all.map LogLevel.name)
  | .historyFile | .logDirectory => "a non-empty path"

end Setting

/-- The wording of a fault. -/
def SettingFault.message (fault : SettingFault) : String :=
  fault.setting.name ++ " must be " ++ fault.setting.expectation ++ ", got " ++
    fault.found.display

namespace Configuration

/-- The configuration that holds when nothing else is said. -/
def standard : Configuration := ⟨Setting.standard⟩

/-- A configuration with another datum for a setting. -/
def set (configuration : Configuration) (setting : Setting) (datum : Datum) : Configuration :=
  ⟨fun other => if other = setting then datum else configuration.get other⟩

@[simp] theorem get_set_self (configuration : Configuration) (setting : Setting) (datum : Datum) :
    (configuration.set setting datum).get setting = datum := if_pos rfl

@[simp] theorem get_set_of_ne (configuration : Configuration) {setting other : Setting}
    (datum : Datum) (h : other ≠ setting) :
    (configuration.set setting datum).get other = configuration.get other := if_neg h

/-- A configuration with another datum for a setting, if there is one. -/
def override (configuration : Configuration) (setting : Setting) :
    Option Datum → Configuration
  | some datum => configuration.set setting datum
  | none => configuration

/-- Whether two configurations have the same scalars. -/
def agrees (a b : Configuration) : Bool :=
  Setting.all.all fun setting => (a.get setting).sameKey (b.get setting)

/-- What is wrong with a configuration. -/
def faults (configuration : Configuration) : List SettingFault :=
  (Setting.inReportOrder.filter fun setting =>
    !setting.accepts (configuration.get setting)).map fun setting =>
      ⟨setting, configuration.get setting⟩

/-- The settings that a configuration describes. -/
def settings? (configuration : Configuration) : Option Settings := do
  let historySize ← (configuration.get .historySize).countUpTo? Settings.maxHistorySize
  let nestingLimit ← (configuration.get .nestingLimit).countUpTo? Settings.maxNestingLimit
  let logLevel ← (configuration.get .logLevel).logLevel?
  let historyFile ← (configuration.get .historyFile).path?
  let logDirectory ← (configuration.get .logDirectory).path?
  return { historySize := historySize.1
           historyFile := historyFile
           logDirectory := logDirectory
           logLevel := logLevel
           nestingLimit := nestingLimit.1
           historySize_pos := historySize.2 }

/-- The settings that a configuration describes, or else what is wrong with it. -/
def check (configuration : Configuration) : Except (List SettingFault) Settings :=
  match configuration.settings? with
  | some settings => .ok settings
  | none => .error configuration.faults

end Configuration

end TypedCalc
