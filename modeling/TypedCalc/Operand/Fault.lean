import TypedCalc.Report
import TypedCalc.Value.Basic

/-!
# Faults of operands

Why an operator, a conversion or a built-in function can refuse its operands, and how each
refusal reads.  The place of the operation is added by whoever knows it.
-/

namespace TypedCalc

/-- A reason to refuse operands. -/
inductive OperandFault
  /-- Both operands have units, and of different categories. -/
  | incompatibleUnits (symbol : String) (left right : Value) (leftUnit rightUnit : Measure)
  /-- A value is to be converted into a unit of another category. -/
  | unitMismatch (value : Value) (source target : Measure)
  /-- An operator for integers met a double. -/
  | integerRequired (symbol : String) (operand : Value)
  /-- An integer is divided by zero. -/
  | divisionByZero (dividend : FixedInt)
  /-- The remainder of an integer by zero is asked for. -/
  | remainderByZero (dividend : FixedInt)
  /-- The count of a shift is negative. -/
  | negativeShift (count : Int)
  /-- The exponent of an integer power is negative. -/
  | negativeExponent (base : Value) (exponent : Int)
  /-- No prefix operator has this symbol. -/
  | unknownPrefixOperator (symbol : String)
  /-- No infix operator has this symbol. -/
  | unknownInfixOperator (symbol : String)
  deriving DecidableEq

namespace OperandFault

/-- The report on dividing an integer by zero. -/
def zeroDivisorReport (message symbol : String) (dividend : FixedInt) : Report where
  errorClass := .divisionByZero
  message := message
  received := String.ofList (Numeral.ofInt dividend.value) ++ " " ++ symbol ++ " 0 (" ++
    dividend.type.name ++ ")"
  expected := "A non-zero divisor"
  suggestion := "Use a float left operand to get inf or NaN instead"
  illustration := "f64(1) / 0 → inf"

/-- The wording of a fault. -/
def report : OperandFault → Report
  | .incompatibleUnits symbol left right leftUnit rightUnit => {
      errorClass := .typing
      message := "Incompatible units for '" ++ symbol ++ "': " ++ leftUnit.category.name ++
        " and " ++ rightUnit.category.name
      received := "Left: " ++ left.describe ++ ", right: " ++ right.describe
      expected := "Operands with units of the same category, or a dimensionless operand"
      suggestion := "Convert one side first or drop its unit with a cast such as f64(...)"
      illustration := "4K + 512B, 100°C - 32°F" }
  | .unitMismatch value source target => {
      errorClass := .typing
      message := "Cannot convert " ++ source.category.name ++ " to " ++ target.category.name
      received := "Value " ++ value.describe ++ " (unit: " ++ source.name ++ ")"
      expected := "A " ++ target.category.name ++ " value or a dimensionless number"
      suggestion := "Only " ++ target.category.name ++ " units can be converted to " ++
        target.name
      illustration := "kilobyte(2048B) → 2K, celsius(212°F) → 100°C" }
  | .integerRequired symbol operand => {
      errorClass := .typing
      message := "Operator '" ++ symbol ++ "' requires an integer operand, got " ++
        operand.type.name
      received := "Operand: " ++ operand.describe ++ " (" ++ operand.type.name ++ ")"
      expected := "An integer type: u8 u16 u32 u64 i8 i16 i32 i64"
      suggestion := "Cast the operand to an integer type first"
      illustration :=
        if symbol = "~" ∨ symbol = "!" then symbol ++ "u64(3.0)"
        else "u64(3.0) " ++ symbol ++ " 1" }
  | .divisionByZero dividend => zeroDivisorReport "Division by zero" "/" dividend
  | .remainderByZero dividend => zeroDivisorReport "Modulo by zero" "%" dividend
  | .negativeShift count => {
      errorClass := .evaluation
      message := "Negative shift count: " ++ toString count
      received := "Shift count: " ++ toString count
      expected := "A non-negative shift count"
      illustration := "1 << 4, 0xF0 >> 4" }
  | .negativeExponent base exponent => {
      errorClass := .evaluation
      message := "Negative exponent for integer power: " ++ toString exponent
      received := "pow(" ++ base.describe ++ ", " ++ toString exponent ++ ") (" ++
        base.type.name ++ ")"
      expected := "A non-negative exponent for integer bases"
      suggestion := "Use a float base for negative exponents"
      illustration := "pow(2.0, -1) → 0.50" }
  | .unknownPrefixOperator symbol => {
      errorClass := .evaluation
      message := "Unknown unary operator: " ++ symbol }
  | .unknownInfixOperator symbol => {
      errorClass := .evaluation
      message := "Unknown binary operator: " ++ symbol }

end OperandFault

end TypedCalc
