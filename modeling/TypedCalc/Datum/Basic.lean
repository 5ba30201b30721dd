import TypedCalc.Binary64.Decimal
import TypedCalc.Text.Quoted

/-!
# Stored data

The data that history files and configuration files hold: scalars, lists and mappings.  A mapping
keeps its entries in the order in which their keys first came up, and a key that comes up again
takes the later datum (`Datum.put`).

`Datum.display` is the text of a datum in messages.
-/

namespace TypedCalc

/-- A datum of a file. -/
inductive Datum
  /-- Nothing. -/
  | null
  /-- A truth value. -/
  | bool (flag : Bool)
  /-- A whole number. -/
  | integer (n : Int)
  /-- A double. -/
  | float (x : Binary64)
  /-- A text. -/
  | string (text : String)
  /-- A list. -/
  | list (items : List Datum)
  /-- Keys with a datum each. -/
  | mapping (entries : List (Datum × Datum))
  deriving Inhabited

/-- A document that no datum can be read from. -/
structure DocumentFault where
  /-- What the reader of documents says about it. -/
  message : String
  /-- Whether it says so in a way that a program reports. -/
  isReported : Bool
  deriving DecidableEq, Repr

namespace Datum

/-- The name of the sort of datum. -/
def sortName : Datum → String
  | .null => "NoneType"
  | .bool _ => "bool"
  | .integer _ => "int"
  | .float _ => "float"
  | .string _ => "str"
  | .list _ => "list"
  | .mapping _ => "dict"

/-- The place of a datum on the number line; truth values stand for one and zero.  Whole numbers
and doubles are counted in the same units, so equal numbers have equal places. -/
def numeric? : Datum → Option Int
  | .bool flag => some (if flag then Binary64.unitsPerOne else 0)
  | .integer n => some (n * Binary64.unitsPerOne)
  | .float (.infinity _) => none
  | .float x => x.rank?
  | _ => none

/-- Whether two scalars are the same key: equal as numbers or equal as texts. -/
def sameKey (a b : Datum) : Bool :=
  match a.numeric?, b.numeric? with
  | some m, some n => m == n
  | _, _ =>
    match a, b with
    | .null, .null => true
    | .string s, .string t => s == t
    | .float (.infinity m), .float (.infinity n) => m == n
    | _, _ => false

/-- Whether a key is one that a mapping knows already.  What is not a number is the same key as
another such, though the two are not equal as numbers. -/
def isKey (known key : Datum) : Bool :=
  match known, key with
  | .float .nan, .float .nan => true
  | _, _ => known.sameKey key

/-- Entries with one more, or with the datum of a known key replaced. -/
def put (key value : Datum) : List (Datum × Datum) → List (Datum × Datum)
  | [] => [(key, value)]
  | entry :: rest =>
    if entry.1.isKey key then (entry.1, value) :: rest else entry :: put key value rest

/-- The mapping made of entries in order, a later one replacing an earlier one of its key. -/
def ofEntries (entries : List (Datum × Datum)) : Datum :=
  .mapping (entries.foldl (fun known entry => put entry.1 entry.2 known) [])

/-- The entries of a mapping. -/
def entries? : Datum → Option (List (Datum × Datum))
  | .mapping entries => some entries
  | _ => none

/-- The datum of a key that is a text. -/
def get? (name : String) (entries : List (Datum × Datum)) : Option Datum :=
  (entries.find? fun entry => match entry.1 with
    | .string text => text == name
    | _ => false).map (·.2)

/-! ## The text in messages -/

mutual

/-- The text of a datum in messages. -/
def display : Datum → String
  | .null => "None"
  | .bool flag => if flag then "True" else "False"
  | .integer n => toString n
  | .float x => x.text
  | .string text => Text.quote text
  | .list items => "[" ++ String.intercalate ", " (displayAll items) ++ "]"
  | .mapping entries =>
    "\x7b" ++ String.intercalate ", " (displayEntries entries) ++ "\x7d"

/-- The texts of the items of a list. -/
def displayAll : List Datum → List String
  | [] => []
  | item :: rest => item.display :: displayAll rest

/-- The texts of the entries of a mapping. -/
def displayEntries : List (Datum × Datum) → List String
  | [] => []
  | (key, value) :: rest => (key.display ++ ": " ++ value.display) :: displayEntries rest

end

end Datum

end TypedCalc
