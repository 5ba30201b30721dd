import TypedCalc.Binary64.Decimal
import TypedCalc.Measure
import TypedCalc.NumberType

/-!
# Values

A value is a number with an optional unit, and a number is a fixed-width integer or a double.
A fixed-width integer carries the proof that it lies in the range of its type, so a value never
holds a number that its type could not.

* `FixedInt.ofInt` wraps a whole number into a type; `FixedInt.bits` is the bit pattern in two's
  complement.
* `Value.describe` is the exact text of a value that messages show.
-/

namespace TypedCalc

/-! ## Fixed-width integers -/

/-- A whole number within the range of an integer type. -/
structure FixedInt where
  /-- The type of the number. -/
  type : IntegerType
  /-- The number itself. -/
  value : Int
  /-- The number lies in the range of the type. -/
  inRange : type.Holds value
  deriving DecidableEq

namespace FixedInt

/-- The number of a type that is congruent to a whole number modulo `2 ^ width`. -/
def ofInt (type : IntegerType) (n : Int) : FixedInt :=
  ⟨type, type.wrap n, type.wrap_inRange n⟩

/-- The bit pattern in two's complement, as a natural number below `2 ^ width`. -/
def bits (n : FixedInt) : Nat := (n.value % n.type.modulus).toNat

@[simp] theorem type_ofInt (type : IntegerType) (n : Int) : (ofInt type n).type = type := rfl

@[simp] theorem value_ofInt (type : IntegerType) (n : Int) :
    (ofInt type n).value = type.wrap n := rfl

theorem ofInt_value (n : FixedInt) : ofInt n.type n.value = n := by
  obtain ⟨type, value, h⟩ := n
  simp only [ofInt, mk.injEq, true_and]
  exact IntegerType.wrap_eq_self h

theorem natAbs_le (n : FixedInt) : n.value.natAbs ≤ 2 ^ 64 :=
  IntegerType.natAbs_le_of_holds n.inRange

/-- The number as a double, rounded to nearest.  No number of a fixed width is too large for
that. -/
def toBinary64 (n : FixedInt) : Binary64 :=
  (Binary64.ofInt? n.value).get
    (Binary64.isSome_ofInt? (Nat.lt_of_le_of_lt n.natAbs_le (by decide)))

@[simp] theorem toBinary64_eq_ofInt (n : FixedInt) : n.toBinary64 = .ofInt n.value :=
  Binary64.get_ofInt? _

/-- The type in which a number was written when none was named. -/
def literalType : IntegerType := .u64

/-- A truth value as a number: one for true, zero for false. -/
def ofBool (flag : Bool) : FixedInt := ofInt .u8 (if flag then 1 else 0)

end FixedInt

/-! ## Numbers -/

/-- A number of one of the nine types. -/
inductive Number
  /-- A fixed-width integer. -/
  | integer (n : FixedInt)
  /-- A double. -/
  | float (x : Binary64)
  deriving DecidableEq

namespace Number

/-- The type of a number. -/
def type : Number → NumberType
  | .integer n => .integer n.type
  | .float _ => .f64

/-- The number as a double, rounded to nearest when it is an integer. -/
def toBinary64 : Number → Binary64
  | .integer n => n.toBinary64
  | .float x => x

/-- Whether the number differs from zero; not-a-number does. -/
def isTrue : Number → Bool
  | .integer n => n.value != 0
  | .float x => !x.isZero

/-- The exact text: decimal digits, or the shortest text that reads back as the double. -/
def describe : Number → String
  | .integer n => String.ofList (Numeral.ofInt n.value)
  | .float x => x.text

end Number

/-! ## Values -/

/-- A number with an optional unit. -/
structure Value where
  /-- The number. -/
  number : Number
  /-- The unit it is measured in; a value without one is dimensionless. -/
  unit : Option Measure := none
  deriving DecidableEq

namespace Value

/-- An integer of a type, wrapped into its range. -/
def integer (type : IntegerType) (n : Int) (unit : Option Measure := none) : Value :=
  ⟨.integer (.ofInt type n), unit⟩

/-- A double. -/
def float (x : Binary64) (unit : Option Measure := none) : Value := ⟨.float x, unit⟩

/-- A truth value: a dimensionless `u8`, one or zero. -/
def ofBool (flag : Bool) : Value := ⟨.integer (.ofBool flag), none⟩

/-- The type of the number. -/
def type (v : Value) : NumberType := v.number.type

/-- The number as a double. -/
def toBinary64 (v : Value) : Binary64 := v.number.toBinary64

/-- Whether the number differs from zero. -/
def isTrue (v : Value) : Bool := v.number.isTrue

/-- The same number with another unit, without any conversion. -/
def withUnit (v : Value) (unit : Option Measure) : Value := { v with unit := unit }

/-- The same number without a unit. -/
def withoutUnit (v : Value) : Value := v.withUnit none

/-- The symbol of the unit, or nothing. -/
def unitSymbol (v : Value) : String := (v.unit.map Measure.symbol).getD ""

/-- The exact text of the number followed by the symbol of its unit. -/
def describe (v : Value) : String := v.number.describe ++ v.unitSymbol

end Value

end TypedCalc
