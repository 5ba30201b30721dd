import TypedCalc.Value.Basic

/-!
# Casts and units of values

A cast changes the type of a number and keeps the unit.  Between integers it keeps the low bits
of the two's complement pattern; from a double to an integer it truncates toward zero and stops
at the ends of the range, with zero for not-a-number; from an integer to a double it rounds to
nearest.

Temperatures are doubles: `Value.attach` turns an integer into a double when it gives it a
temperature unit.
-/

namespace TypedCalc

/-- The whole number of a type's range that a double is cut down to. -/
def IntegerType.saturate (type : IntegerType) : Binary64 → Int
  | .nan => 0
  | .infinity negative => if negative then type.minimum else type.maximum
  | .finite negative units _ =>
    type.clamp (if negative then -(Binary64.wholePart units : Int) else Binary64.wholePart units)

/-- A number as a number of another type. -/
def Number.castTo (n : Number) (target : NumberType) : Number :=
  match target, n with
  | .f64, n => .float n.toBinary64
  | .integer type, .integer n => .integer (.ofInt type n.value)
  | .integer type, .float x => .integer (.ofInt type (type.saturate x))

namespace Value

/-- A value with its number cast to another type and its unit kept. -/
def castTo (v : Value) (target : NumberType) : Value := ⟨v.number.castTo target, v.unit⟩

@[simp] theorem unit_castTo (v : Value) (target : NumberType) :
    (v.castTo target).unit = v.unit := rfl

@[simp] theorem type_castTo (v : Value) (target : NumberType) :
    (v.castTo target).type = target := by
  obtain ⟨n, u⟩ := v
  cases target <;> cases n <;> rfl

theorem castTo_type (v : Value) : v.castTo v.type = v := by
  obtain ⟨n, u⟩ := v
  cases n with
  | integer n =>
    show Value.mk (.integer (.ofInt n.type n.value)) u = _
    rw [FixedInt.ofInt_value]
  | float x => rfl

/-- A value with a unit put on its number: an integer becomes a double under a temperature. -/
def attach (v : Value) (unit : Measure) : Value :=
  if unit.isTemperature then (v.castTo .f64).withUnit (some unit) else v.withUnit (some unit)

/-- A computed value with the unit it is measured in, if there is one. -/
def attach? (v : Value) : Option Measure → Value
  | none => v
  | some unit => v.attach unit

/-- A whole number is too large to be a double. -/
inductive OverflowFault
  | integerTooLarge
  deriving DecidableEq, Repr

/-- The wording of the fault. -/
def OverflowFault.message : OverflowFault → String
  | .integerTooLarge => "int too large to convert to float"

/-- The value of a type made from a whole number, which a double may not be able to hold. -/
def ofInt? (n : Int) (type : NumberType) (unit : Option Measure) : Except OverflowFault Value :=
  match type with
  | .integer type => .ok (.integer type n unit)
  | .f64 => (Binary64.ofInt? n).elim (.error .integerTooLarge) fun x => .ok (.float x unit)

/-- The value of a type made from a double. -/
def ofBinary64 (x : Binary64) (type : NumberType) (unit : Option Measure) : Value :=
  (Value.float x unit).castTo type

end Value

end TypedCalc
