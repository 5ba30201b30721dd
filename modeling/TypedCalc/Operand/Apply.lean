import TypedCalc.Operand.Operator
import TypedCalc.Value.Convert

/-!
# What operators do

The right operand of an infix operator is first brought into the left operand's unit, when both
have one, and then cast to the left operand's type (`coerce`).  Results of arithmetic and of
operators on bits keep that type and the unit of whichever operand has one; comparisons and
operators on truth values give a dimensionless `u8`.

Integer results wrap.  Integer division truncates toward zero and the remainder has the sign of
the dividend.  A shift by the width or more acts like a shift by the width.
-/

namespace TypedCalc.Operand

/-! ## Bringing operands together -/

/-- The right operand in the left operand's unit and type. -/
def coerce (symbol : String) (left right : Value) : Except OperandFault Value :=
  match left.unit, right.unit with
  | some leftUnit, some rightUnit =>
    if leftUnit.category = rightUnit.category then
      (right.convertTo leftUnit).map (·.castTo left.type)
    else
      .error (.incompatibleUnits symbol left right leftUnit rightUnit)
  | _, _ => .ok (right.castTo left.type)

/-- The integer of a value, refusing a double. -/
def requireInteger (symbol : String) (v : Value) : Except OperandFault FixedInt :=
  match v.number with
  | .integer n => .ok n
  | .float _ => .error (.integerRequired symbol v)

/-! ## Prefix operators -/

/-- The opposite number; an unsigned integer is read as signed of the same width first. -/
def negate (v : Value) : Value :=
  match v.number with
  | .integer n => .integer n.type.toSigned (-n.value) v.unit
  | .float x => .float x.neg v.unit

/-- The result of a prefix operator. -/
def applyPrefix (op : PrefixOperator) (v : Value) : Except OperandFault Value :=
  match op with
  | .negate => .ok (negate v)
  | .identity => .ok v
  | .complement =>
    (requireInteger op.symbol v).map fun n => .integer n.type (-n.value - 1) v.unit
  | .not => (requireInteger op.symbol v).map fun _ => .ofBool (!v.isTrue)

/-! ## Infix operators -/

/-- A whole-number operation of arithmetic on two integers of one type. -/
def integerArithmetic (op : ArithmeticOperator) (a b : FixedInt) : Except OperandFault Int :=
  match op with
  | .add => .ok (a.value + b.value)
  | .subtract => .ok (a.value - b.value)
  | .multiply => .ok (a.value * b.value)
  | .divide => if b.value = 0 then .error (.divisionByZero a) else .ok (a.value.tdiv b.value)
  | .remainder =>
    if b.value = 0 then .error (.remainderByZero a) else .ok (a.value.tmod b.value)

/-- The quotient of two doubles.  A division by zero gives an infinity with the sign of the
quotient, or not-a-number for zero and for not-a-number itself. -/
def floatDivide (x y : Binary64) : Binary64 :=
  if h : y.isZero = true then
    if x.isZero || x.isNaN then .nan
    else (Binary64.infinity x.isNegative).mul ((Binary64.ofInt 1).withSign y.isNegative)
  else x.quotient y (Bool.eq_false_iff.2 h)

/-- The remainder of two doubles, which there is none of by zero and of an infinity. -/
def floatRemainder (x y : Binary64) : Binary64 :=
  if hy : y.isZero = true then .nan
  else if hx : x.isInfinite = true then .nan
  else if x.isNaN || y.isNaN then .nan
  else x.remainder y (Bool.eq_false_iff.2 hx) (Bool.eq_false_iff.2 hy)

/-- An operation of arithmetic on two doubles. -/
def floatArithmetic (op : ArithmeticOperator) (x y : Binary64) : Binary64 :=
  match op with
  | .add => x.add y
  | .subtract => x.sub y
  | .multiply => x.mul y
  | .divide => floatDivide x y
  | .remainder => floatRemainder x y

/-- The bits of an integer shifted left.  None of them is left where the count is the width or
more. -/
def shiftLeft (a : FixedInt) (count : Nat) : Int :=
  if a.type.width ≤ count then 0 else (a.bits <<< count : Nat)

/-- An integer shifted right: the number, if its type has a sign, or else its bits. -/
def shiftRight (a : FixedInt) (count : Nat) : Int :=
  if a.type.isSigned then a.value >>> min count a.type.width
  else if a.type.width ≤ count then 0
  else (a.bits >>> count : Nat)

/-- An operation on the bits of two integers of one type.  A shift count is a number, not a
pattern, and may not be negative. -/
def bitwise (op : BitwiseOperator) (a b : FixedInt) : Except OperandFault Int :=
  match op with
  | .and => .ok (a.bits &&& b.bits : Nat)
  | .or => .ok (a.bits ||| b.bits : Nat)
  | .xor => .ok (a.bits ^^^ b.bits : Nat)
  | .shiftLeft =>
    if b.value < 0 then .error (.negativeShift b.value)
    else .ok (shiftLeft a b.value.toNat)
  | .shiftRight =>
    if b.value < 0 then .error (.negativeShift b.value)
    else .ok (shiftRight a b.value.toNat)

/-- A comparison of whole numbers. -/
def compareIntegers (op : ComparisonOperator) (a b : Int) : Bool :=
  match op with
  | .equal => a == b
  | .notEqual => a != b
  | .less => decide (a < b)
  | .greater => decide (b < a)
  | .lessEqual => decide (a ≤ b)
  | .greaterEqual => decide (b ≤ a)

/-- A comparison of doubles; with not-a-number only `!=` holds. -/
def compareFloats (op : ComparisonOperator) (x y : Binary64) : Bool :=
  match op with
  | .equal => x.eq y
  | .notEqual => !x.eq y
  | .less => x.lt y
  | .greater => y.lt x
  | .lessEqual => x.le y
  | .greaterEqual => y.le x

/-- A comparison of two numbers of one type. -/
def compare (op : ComparisonOperator) (a b : Number) : Bool :=
  match a, b with
  | .integer a, .integer b => compareIntegers op a.value b.value
  | a, b => compareFloats op a.toBinary64 b.toBinary64

/-- An operation of arithmetic on two numbers of one type. -/
def arithmetic (op : ArithmeticOperator) (a b : Number) : Except OperandFault Number :=
  match a, b with
  | .integer a, .integer b =>
    (integerArithmetic op a b).map fun n => .integer (.ofInt a.type n)
  | a, b => .ok (.float (floatArithmetic op a.toBinary64 b.toBinary64))

/-- An operation on truth values. -/
def logical (op : LogicalOperator) (a b : Bool) : Bool :=
  match op with
  | .and => a && b
  | .or => a || b

/-- The result of an infix operator on operands of one type, and of one unit if both have one. -/
def applyCoerced (op : InfixOperator) (left right : Value) : Except OperandFault Value :=
  let unit := left.unit.or right.unit
  match op with
  | .comparison op => .ok (.ofBool (compare op left.number right.number))
  | .logical logicalOp => do
    let _ ← requireInteger op.symbol left
    return .ofBool (logical logicalOp left.isTrue right.isTrue)
  | .bitwise bitwiseOp => do
    let a ← requireInteger op.symbol left
    let b ← requireInteger op.symbol right
    let bits ← bitwise bitwiseOp a b
    return (Value.integer a.type bits).attach? unit
  | .arithmetic arithmeticOp => do
    let number ← arithmetic arithmeticOp left.number right.number
    return (Value.mk number none).attach? unit

/-- The result of an infix operator. -/
def applyInfix (op : InfixOperator) (left right : Value) : Except OperandFault Value := do
  let right ← coerce op.symbol left right
  applyCoerced op left right

/-! ## Operators by symbol -/

/-- The result of the prefix operator with a symbol, if there is one. -/
def applyPrefixSymbol (symbol : String) (v : Value) : Except OperandFault Value :=
  match PrefixOperator.ofSymbol? symbol with
  | some op => applyPrefix op v
  | none => .error (.unknownPrefixOperator symbol)

/-- The result of the infix operator with a symbol, if there is one; operands that do not go
together are refused first. -/
def applyInfixSymbol (symbol : String) (left right : Value) : Except OperandFault Value :=
  match InfixOperator.ofSymbol? symbol with
  | some op => applyInfix op left right
  | none => do
    let _ ← coerce symbol left right
    .error (.unknownInfixOperator symbol)

end TypedCalc.Operand
