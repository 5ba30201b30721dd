import TypedCalc.Datum.Json
import TypedCalc.Value.Convert

/-!
# Texts of results

A result is shown with its unit: an integer by its digits, a whole double without a fraction and
any other double with two places.  A launcher is offered several renderings of a result as a list
of items in JSON: a dimensionless integer in four bases, and a value with a unit in the first four
units of its category.
-/

namespace TypedCalc

/-- A double without its unit: no places when it is whole, two otherwise. -/
def Binary64.format : Binary64 → String
  | .nan => "NaN"
  | .infinity negative => if negative then "-inf" else "inf"
  | .finite negative units _ =>
    let places := if units % Binary64.unitsPerOne = 0 then 0 else 2
    String.ofList (Binary64.fixed places negative units)

/-- An integer in decimal, and its bit pattern in hexadecimal, octal and binary. -/
def FixedInt.renderings (n : FixedInt) : List String :=
  [String.ofList (Numeral.ofInt n.value),
   String.ofList ('0' :: 'x' :: Numeral.write 16 n.bits),
   String.ofList ('0' :: 'o' :: Numeral.write 8 n.bits),
   String.ofList ('0' :: 'b' :: Numeral.write 2 n.bits)]

namespace Value

/-- The number of a value without its unit. -/
def formatNumber (v : Value) : String :=
  match v.number with
  | .integer n => String.ofList (Numeral.ofInt n.value)
  | .float x => x.format

/-- A value with its unit. -/
def format (v : Value) : String := v.formatNumber ++ v.unitSymbol

/-- A value with its type in front. -/
def formatTyped (v : Value) : String := v.type.name ++ " " ++ v.format

/-- How many units a launcher is offered. -/
def renderingCount : Nat := 4

/-- The renderings of a value that a launcher is offered. -/
def renderings (v : Value) : List String :=
  match v.unit with
  | none =>
    match v.number with
    | .integer n => n.renderings
    | .float _ => [v.format]
  | some unit =>
    ((Measure.ofCategory unit.category).take renderingCount).filterMap fun target =>
      match v.convertTo target with
      | .ok converted => some converted.format
      | .error _ => none

end Value

/-! ## Items for a launcher -/

namespace Launcher

/-- One line of a launcher: what it passes on, whether it can be chosen, what it shows. -/
def item (argument valid title subtitle : String) : Datum :=
  .mapping
    [(.string "arg", .string argument), (.string "valid", .string valid),
     (.string "autocomplete", .string argument), (.string "type", .string "default"),
     (.string "title", .string title), (.string "subtitle", .string subtitle)]

/-- A list of lines as JSON. -/
def items (lines : List Datum) : String :=
  (Datum.mapping [(.string "items", .list lines)]).toJson

/-- The line for one rendering of a result. -/
def resultItem (title : String) : Datum :=
  item title "YES" title ("copy+paste as \"" ++ title ++ "\"")

/-- The lines for a result. -/
def result (v : Value) : String := items (v.renderings.map resultItem)

/-- The line for a failed evaluation. -/
def error (message : String) : String := items [item "..." "NO" message "..."]

end Launcher

end TypedCalc
