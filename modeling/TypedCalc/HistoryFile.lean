import TypedCalc.Datum.Json
import TypedCalc.History
import TypedCalc.Value.Cast

/-!
# History files

A history is stored as JSON: the version of the format and the results, the oldest first, each
with its type, its number and the symbol of its unit.  Reading skips every entry that is not such
a result and says so in a warning; only a number that is too large for the double it is declared
to be ends the reading.

* `Value.toDatum` and `Value.ofDatum?` are one entry.
* `HistoryFile.text` and `HistoryFile.load` are a whole file.
-/

namespace TypedCalc

/-- Why an entry of a history file is no result. -/
inductive EntryFault
  /-- The entry is not a mapping. -/
  | notAMapping (entry : Datum)
  /-- The type is not one of the nine. -/
  | unknownType (type : Datum)
  /-- The value is not a number. -/
  | notANumber (value : Datum)
  /-- The type is an integer type and the value is not a whole number. -/
  | notAnInteger (type : NumberType) (value : Datum)
  /-- The unit is not a suffix. -/
  | unknownUnit (unit : Datum)
  /-- The value is too large for the type. -/
  | overflow (fault : Value.OverflowFault)

/-- The wording of a fault. -/
def EntryFault.message : EntryFault → String
  | .notAMapping entry => "History entry must be an object, got " ++ entry.sortName
  | .unknownType type => "Unknown type in history entry: " ++ type.display
  | .notANumber value => "History entry value must be a number, got " ++ value.display
  | .notAnInteger type value =>
    "History entry of type " ++ type.name ++ " must hold an integer, got " ++ value.display
  | .unknownUnit unit => "Unknown unit in history entry: " ++ unit.display
  | .overflow fault => fault.message

namespace Value

/-! ## Entries -/

/-- A value as an entry of a history file. -/
def toDatum (v : Value) : Datum :=
  let number := match v.number with
    | .integer n => Datum.integer n.value
    | .float x => .float x
  let unit := match v.unit with
    | some unit => Datum.string unit.symbol
    | none => .null
  .mapping
    [(.string "type", .string v.type.name), (.string "value", number), (.string "unit", unit)]

/-- The type that an entry declares. -/
def typeOfDatum? : Datum → Option NumberType
  | .string name => NumberType.ofName? name
  | _ => none

/-- The unit that an entry declares: none if it declares nothing. -/
def unitOfDatum : Datum → Except EntryFault (Option Measure)
  | .null => .ok none
  | .string suffix =>
    match Measure.ofSuffix? suffix with
    | some unit => .ok (some unit)
    | none => .error (.unknownUnit (.string suffix))
  | other => .error (.unknownUnit other)

/-- The value of a type made from the number of an entry. -/
def ofNumberDatum (type : NumberType) (unit : Datum) : Datum → Except EntryFault Value
  | .integer n => do
    let unit ← unitOfDatum unit
    (Value.ofInt? n type unit).mapError .overflow
  | .float x =>
    match type with
    | .integer _ => .error (.notAnInteger type (.float x))
    | .f64 => do
      let unit ← unitOfDatum unit
      return Value.ofBinary64 x type unit
  | other => .error (.notANumber other)

/-- The value that an entry of a history file stands for. -/
def ofDatum? (entry : Datum) : Except EntryFault Value :=
  match entry with
  | .mapping entries =>
    let field (name : String) : Datum := (Datum.get? name entries).getD .null
    match typeOfDatum? (field "type") with
    | none => .error (.unknownType (field "type"))
    | some type => ofNumberDatum type (field "unit") (field "value")
  | other => .error (.notAMapping other)

end Value

namespace HistoryFile

/-! ## Whole files -/

/-- The version of the format. -/
def version : Int := 1

/-- The text of a history file. -/
def text (history : History) : String :=
  (Datum.mapping
    [(.string "version", .integer version),
     (.string "history", .list (history.toList.map Value.toDatum))]).toIndentedJson

/-- Something odd about a history file that does not keep it from being read. -/
inductive Warning
  /-- The text is not JSON. -/
  | unreadable
  /-- There is no list of results. -/
  | noHistoryList
  /-- The version is another one. -/
  | otherVersion (found : Datum)
  /-- An entry is no result. -/
  | skippedEntry (index : Nat) (fault : EntryFault)

/-- The wording of a warning about a file; `reason` says why the text is not JSON. -/
def Warning.message (path reason : String) : Warning → String
  | .unreadable => "Failed to read history file " ++ path ++ ": " ++ reason
  | .noHistoryList => "History file " ++ path ++ " has no history list, ignoring it"
  | .otherVersion found =>
    "History file " ++ path ++ " has version " ++ found.display ++ ", expected " ++
      toString version
  | .skippedEntry index fault =>
    "Skipping history entry " ++ toString index ++ " in " ++ path ++ ": " ++ fault.message

/-- Why a history file cannot be read at all. -/
inductive LoadFault
  /-- The history could not keep a single result. -/
  | capacity (fault : CapacityFault)
  /-- A number is too large for the double it is declared to be. -/
  | overflow (fault : Value.OverflowFault)
  deriving DecidableEq, Repr

/-- The wording of a fault. -/
def LoadFault.message : LoadFault → String
  | .capacity fault => fault.message
  | .overflow fault => fault.message

/-- A history with the results of entries pushed in order, and the warnings about entries that
are none; `index` counts the entries. -/
def loadEntries (history : History) (index : Nat) :
    List Datum → Except Value.OverflowFault (History × List Warning)
  | [] => .ok (history, [])
  | entry :: rest =>
    match Value.ofDatum? entry with
    | .ok value => loadEntries (history.push value) (index + 1) rest
    | .error (.overflow fault) => .error fault
    | .error fault => do
      let (history, warnings) ← loadEntries history (index + 1) rest
      return (history, .skippedEntry index fault :: warnings)

/-- The warning about the version of a file, if it is not the expected one. -/
def versionWarnings (entries : List (Datum × Datum)) : List Warning :=
  let found := (Datum.get? "version" entries).getD .null
  if found.sameKey (.integer version) then [] else [.otherVersion found]

/-- The history stored in a text, pushed onto an empty history. -/
def loadText (history : History) (text : String) :
    Except Value.OverflowFault (History × List Warning) :=
  match Datum.ofJson? text with
  | none => .ok (history, [.unreadable])
  | some (.mapping entries) =>
    match Datum.get? "history" entries with
    | some (.list items) => do
      let (history, warnings) ← loadEntries history 0 items
      return (history, versionWarnings entries ++ warnings)
    | _ => .ok (history, [.noHistoryList])
  | some _ => .ok (history, [.noHistoryList])

/-- The history stored in a file, or an empty one if there is no file. -/
def load (text : Option String) (capacity : Int) :
    Except LoadFault (History × List Warning) := do
  let history ← (History.empty? capacity).mapError .capacity
  match text with
  | none => return (history, [])
  | some text => (loadText history text).mapError .overflow

end HistoryFile

end TypedCalc
