import TypedCalc.Datum.Yaml.Printer
import TypedCalc.Settings

/-!
# Configuration files

A configuration file is a YAML document that is a mapping from the names of settings to data.  A
setting without an entry keeps its standard datum, and so do all of them if there is no file or
nothing in it.  Entries of other names are passed over, and their keys are listed in order.

Keys have an order if all of them are texts or all of them are numbers; a list of others cannot
be put into order, and reading fails (`Configuration.sortKeys`).
-/

namespace TypedCalc

/-! ## The order of keys -/

namespace Datum

/-- The place of a number among the numbers and the two infinities. -/
def place? : Datum → Option (Int × Int)
  | .float (.infinity negative) => some (if negative then -1 else 1, 0)
  | datum => datum.numeric?.map (0, ·)

/-- Whether a key goes before another or with it, if they have an order. -/
def keyLe? (a b : Datum) : Option Bool :=
  match a, b with
  | .string s, .string t => some (!decide (t < s))
  | .bool _, .bool _ | .bool _, .integer _ | .bool _, .float _
  | .integer _, .bool _ | .integer _, .integer _ | .integer _, .float _
  | .float _, .bool _ | .float _, .integer _ | .float _, .float _ =>
    match a.place?, b.place? with
    | some p, some q => some (p.1 < q.1 || (p.1 == q.1 && p.2 ≤ q.2))
    | _, _ => some true
  | _, _ => none

end Datum

/-- Why a configuration file cannot be read. -/
inductive ConfigurationFault
  /-- The text is a document that no datum can be read from. -/
  | unreadable (fault : DocumentFault)
  /-- The document is not a mapping. -/
  | notAMapping
  /-- Two keys that are not names of settings have no order. -/
  | unorderedKeys (first second : Datum)

/-- The wording of a fault of a file. -/
def ConfigurationFault.message (path : String) : ConfigurationFault → String
  | .unreadable fault => fault.message
  | .notAMapping => "Configuration file " ++ path ++ " must contain a mapping"
  | .unorderedKeys first second =>
    "'<' not supported between instances of '" ++ second.sortName ++ "' and '" ++
      first.sortName ++ "'"

/-- The warning about keys that are not names of settings. -/
def unknownSettingsWarning (path : String) (keys : List Datum) : String :=
  "Ignoring unknown settings in " ++ path ++ ": " ++ (Datum.list keys).display

namespace Configuration

/-- Keys in order, unless two of them have none. -/
def sortKeys : List Datum → Except ConfigurationFault (List Datum)
  | [] => .ok []
  | first :: rest =>
    match rest.find? fun key => (first.keyLe? key).isNone with
    | some key => .error (.unorderedKeys first key)
    | none => .ok ((first :: rest).mergeSort fun a b => (a.keyLe? b).getD true)

/-- Whether a key is the name of a setting. -/
def isKnown : Datum → Bool
  | .string name => (Setting.ofName? name).isSome
  | _ => false

/-- The configuration that a mapping describes. -/
def ofEntries (entries : List (Datum × Datum)) : Configuration :=
  ⟨fun setting => (Datum.get? setting.name entries).getD setting.standard⟩

/-- The configuration that a document describes, and the keys that are not names of settings. -/
def ofDatum : Datum → Except ConfigurationFault (Configuration × List Datum)
  | .null => .ok (standard, [])
  | .mapping entries => do
    let unknown ← sortKeys ((entries.map (·.1)).filter fun key => !isKnown key)
    return (ofEntries entries, unknown)
  | _ => .error .notAMapping

/-- The configuration that a document describes if a datum can be read from it. -/
def ofDocument : Except DocumentFault Datum → Except ConfigurationFault (Configuration × List Datum)
  | .ok datum => ofDatum datum
  | .error fault => .error (.unreadable fault)

/-- The text of a configuration file, one setting a line in the order of their names. -/
def text (configuration : Configuration) : String :=
  Yaml.writeEntries (Setting.all.map fun setting => (setting.name, configuration.get setting))

end Configuration

end TypedCalc
