import TypedCalc.Binary64.Elementary
import TypedCalc.Operand.Apply
import TypedCalc.Registry.Basic

/-!
# Built-in names

The standard registry: mathematical functions on doubles, four functions that work on every
type, a cast to each number type, a conversion into each unit, and the constants.

* The functions on doubles drop the unit, except for the three that round.
* `absolute`, `power`, `smaller` and `larger` keep the type of their first argument.
* A cast drops the unit; a conversion into a unit puts it on.
-/

namespace TypedCalc

namespace Builtin

/-! ## Calling conventions -/

/-- What happens when an argument is not there. -/
def missingArgument : CallFault := .broken "list index out of range"

/-- A function of one argument. -/
def unary (function : Value → Except OperandFault Value) : List Value → Except CallFault Value
  | argument :: _ => (function argument).mapError .operand
  | [] => .error missingArgument

/-- A function of two arguments. -/
def binary (function : Value → Value → Except OperandFault Value) :
    List Value → Except CallFault Value
  | first :: second :: _ => (function first second).mapError .operand
  | _ => .error missingArgument

/-- A function of one double, whose result keeps the unit or has none.  A refusal by the function
is a defect of it. -/
def onDouble (keepsUnit : Bool) (function : Binary64 → Except MathFault Binary64) :
    List Value → Except CallFault Value
  | argument :: _ =>
    match function argument.toBinary64 with
    | .ok x => .ok (.float x (if keepsUnit then argument.unit else none))
    | .error fault => .error (.broken fault.message)
  | [] => .error missingArgument

/-! ## Functions on every type -/

/-- The magnitude; that of the smallest signed number wraps around to itself. -/
def absolute (v : Value) : Value :=
  match v.number with
  | .integer n => (Value.integer n.type n.value.natAbs).attach? v.unit
  | .float x => (Value.float x.abs).attach? v.unit

/-- The power of a natural number modulo another, by repeated squaring. -/
def powMod (modulus base : Nat) : Nat → Nat
  | 0 => 1 % modulus
  | n + 1 =>
    let root := powMod modulus base ((n + 1) / 2)
    let square := root * root % modulus
    if (n + 1) % 2 = 1 then square * base % modulus else square
termination_by exponent => exponent
decreasing_by omega

/-- The power of an integer, wrapped into its type. -/
def integerPower (base : FixedInt) (exponent : Nat) : Value :=
  .integer base.type (powMod base.type.modulus (base.value % base.type.modulus).toNat exponent)

/-- The first argument to the power of the second.  An integer to a negative power is refused. -/
def power (library : MathLibrary) (base exponent : Value) : Except OperandFault Value := do
  let coerced ← Operand.coerce "pow" base exponent
  match base.number, coerced.number with
  | .integer b, .integer e =>
    if e.value < 0 then .error (.negativeExponent base e.value)
    else return (integerPower b e.value.toNat).attach? base.unit
  | b, e =>
    return (Value.float (.pow library.pow b.toBinary64 e.toBinary64)).attach? base.unit

/-- The second value in place of the first if it compares as asked, with the unit of whichever
has one. -/
def choose (name : String) (op : ComparisonOperator) (first second : Value) :
    Except OperandFault Value := do
  let coerced ← Operand.coerce name first second
  let chosen := if Operand.compare op coerced.number first.number then coerced else first
  return chosen.attach? (first.unit.or coerced.unit)

/-- The smaller of two values. -/
def smaller : Value → Value → Except OperandFault Value := choose "min" .less

/-- The larger of two values. -/
def larger : Value → Value → Except OperandFault Value := choose "max" .greater

/-! ## The functions -/

/-- A mathematical function on doubles. -/
def floatFunction (name description : String) (keepsUnit : Bool)
    (function : Binary64 → Except MathFault Binary64) : NamedFunction where
  name := name
  kind := .unary
  arity := 1
  parameterType := some .f64
  run := onDouble keepsUnit function
  description := description

/-- The mathematical functions on doubles. -/
def floatFunctions (library : MathLibrary) : List NamedFunction :=
  [floatFunction "sin" "Sine of an angle in radians" false (Binary64.trigonometric library.sin),
   floatFunction "cos" "Cosine of an angle in radians" false (Binary64.trigonometric library.cos),
   floatFunction "tan" "Tangent of an angle in radians" false (Binary64.trigonometric library.tan),
   floatFunction "asin" "Arcsine, in radians" false (Binary64.trigonometric library.asin),
   floatFunction "acos" "Arccosine, in radians" false (Binary64.trigonometric library.acos),
   floatFunction "atan" "Arctangent, in radians" false library.atan,
   floatFunction "sqrt" "Square root" false (Binary64.squareRoot library.sqrt),
   floatFunction "exp" "e raised to the argument" false (Binary64.exponential library.exp),
   floatFunction "ln" "Natural logarithm" false (Binary64.logarithm library.log),
   floatFunction "log2" "Base 2 logarithm" false (Binary64.logarithm library.log2),
   floatFunction "log10" "Base 10 logarithm" false (Binary64.logarithm library.log10),
   floatFunction "floor" "Round down to a whole number" true Binary64.floor,
   floatFunction "ceil" "Round up to a whole number" true Binary64.ceil,
   floatFunction "round" "Round to the nearest whole number, halves away from zero" true
     Binary64.round,
   floatFunction "deg" "Convert radians to degrees" false fun x => .ok x.degrees,
   floatFunction "rad" "Convert degrees to radians" false fun x => .ok x.radians]

/-- The functions that work on every type. -/
def generalFunctions (library : MathLibrary) : List NamedFunction :=
  [{ name := "abs", kind := .unary, arity := 1, parameterType := none
     run := unary fun v => .ok (absolute v), description := "Absolute value" },
   { name := "pow", kind := .binary, arity := 2, parameterType := none
     run := binary (power library), description := "Raise to a power" },
   { name := "min", kind := .binary, arity := 2, parameterType := none
     run := binary smaller, description := "Smaller of two values" },
   { name := "max", kind := .binary, arity := 2, parameterType := none
     run := binary larger, description := "Larger of two values" }]

/-- The cast to a type, which drops the unit. -/
def castFunction (type : NumberType) : NamedFunction where
  name := type.name
  kind := .cast
  arity := 1
  parameterType := none
  run := unary fun v => .ok (v.castTo type).withoutUnit
  description := "Cast to " ++ type.name

/-- The conversion into a unit. -/
def unitFunction (unit : Measure) : NamedFunction where
  name := unit.name
  kind := .unit
  arity := 1
  parameterType := none
  run := unary fun v => v.convertTo unit
  description := "Convert to " ++ unit.name ++ " (" ++ unit.symbol ++ ")"

/-- All functions. -/
def functions (library : MathLibrary) : List NamedFunction :=
  floatFunctions library ++ generalFunctions library ++ NumberType.all.map castFunction ++
    Measure.all.map unitFunction

/-! ## The constants -/

/-- The ends of the range of an integer type. -/
def rangeConstants (type : IntegerType) : List Constant :=
  [{ name := "MIN_" ++ type.capitalName, value := .integer type type.minimum
     description := "Smallest " ++ type.name ++ " value" },
   { name := "MAX_" ++ type.capitalName, value := .integer type type.maximum
     description := "Largest " ++ type.name ++ " value" }]

/-- All constants. -/
def constants : List Constant :=
  [{ name := "PI", value := .float Binary64.pi
     description := "Ratio of a circle's circumference to its diameter" },
   { name := "E", value := .float Binary64.e, description := "Euler's number" },
   { name := "NAN", value := .float .nan, description := "Not a number" },
   { name := "INF", value := .float (.infinity false), description := "Positive infinity" },
   { name := "NEG_INF", value := .float (.infinity true), description := "Negative infinity" },
   { name := "MIN_F64", value := .float Binary64.largest.neg
     description := "Most negative finite f64" },
   { name := "MAX_F64", value := .float Binary64.largest
     description := "Largest finite f64" }] ++
  IntegerType.all.flatMap rangeConstants

end Builtin

/-- The registry of the built-in names, with the elementary functions of a library. -/
def Registry.standardWith (library : MathLibrary) : Registry :=
  ⟨Builtin.constants, Builtin.functions library⟩

/-- The registry of the built-in names on the platform. -/
def Registry.standard : Registry := .standardWith .platform

end TypedCalc
