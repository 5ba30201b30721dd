import TypedCalc.Operand.Fault

/-!
# Registries of names

A registry holds the constants and the functions that an expression can name.  It never changes.
The two kinds of names are apart: a constant is found only as a bare name and a function only
before an argument list.
-/

namespace TypedCalc

/-- A named value. -/
structure Constant where
  /-- The name. -/
  name : String
  /-- What it stands for. -/
  value : Value
  /-- What it is, in words. -/
  description : String := ""

/-- The kinds of functions. -/
inductive FunctionKind
  | unary | binary | cast | unit
  deriving DecidableEq, Repr

/-- The word for a kind. -/
def FunctionKind.name : FunctionKind → String
  | .unary => "unary"
  | .binary => "binary"
  | .cast => "cast"
  | .unit => "unit"

/-- Why a function gives no value. -/
inductive CallFault
  /-- The function refuses its arguments. -/
  | operand (fault : OperandFault)
  /-- The function itself is broken, with a text that says how. -/
  | broken (text : String)
  deriving DecidableEq

/-- A named function. -/
structure NamedFunction where
  /-- The name. -/
  name : String
  /-- Its kind. -/
  kind : FunctionKind
  /-- The number of arguments. -/
  arity : Nat
  /-- The type that every argument is cast to before the call, if any. -/
  parameterType : Option NumberType
  /-- What it computes from its arguments. -/
  run : List Value → Except CallFault Value
  /-- What it is, in words. -/
  description : String := ""

/-- The names that an expression can use. -/
structure Registry where
  /-- The constants. -/
  constants : List Constant
  /-- The functions, casts and unit conversions. -/
  functions : List NamedFunction

namespace Registry

/-- The constant with exactly this name. -/
def constant? (registry : Registry) (name : String) : Option Constant :=
  registry.constants.find? (·.name == name)

/-- The function with exactly this name. -/
def function? (registry : Registry) (name : String) : Option NamedFunction :=
  registry.functions.find? (·.name == name)

/-- Names in the order of their characters. -/
def sortNames (names : List String) : List String :=
  names.mergeSort fun a b => !decide (b < a)

/-- The names of the constants, sorted. -/
def constantNames (registry : Registry) : List String :=
  sortNames (registry.constants.map (·.name))

/-- The names of the functions, sorted. -/
def functionNames (registry : Registry) : List String :=
  sortNames (registry.functions.map (·.name))

/-- All names, constants first. -/
def names (registry : Registry) : List String :=
  registry.constantNames ++ registry.functionNames

end Registry

/-- The unit with a suffix or, failing that, with a full name. -/
def Measure.find? (text : String) : Option Measure :=
  (Measure.ofSuffix? text).or (Measure.ofName? text)

/-- A call of a function as an example of its use. -/
def usageExample (name : String) : String :=
  match name with
  | "u8" => "u8(0x1FF) → 255"
  | "i8" => "i8(0xFF) → -1"
  | "u64" => "u64(3.9) → 3"
  | "f64" => "f64(7) / 2 → 3.50"
  | "sin" => "sin(PI / 2) → 1"
  | "sqrt" => "sqrt(16) → 4"
  | "abs" => "abs(-5) → 5"
  | "round" => "round(3.7) → 4"
  | "pow" => "pow(2, 10) → 1024"
  | "min" => "min(3, 4) → 3"
  | "max" => "max(3, 4) → 4"
  | "kilobyte" => "kilobyte(2048B) → 2K"
  | "celsius" => "celsius(212°F) → 100°C"
  | "fahrenheit" => "fahrenheit(100°C) → 212°F"
  | "kelvin" => "kelvin(0°C) → 273.15°K"
  | other => other ++ "(...)"

end TypedCalc
