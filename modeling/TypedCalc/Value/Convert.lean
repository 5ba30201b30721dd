import TypedCalc.Operand.Fault
import TypedCalc.Value.Cast

/-!
# Conversion between units

A dimensionless value simply takes the unit on.  An integer size stays an integer of its type
when the exact quotient is a whole number in the type's range, and becomes the nearest double
otherwise.  Everything else goes through the base unit of its category in double arithmetic.
-/

namespace TypedCalc.Value

/-- The number of bytes in an integer size. -/
def bytesOf (n : FixedInt) (unit : SizeUnit) : Int := n.value * unit.scale

theorem natAbs_bytesOf_lt (n : FixedInt) (unit : SizeUnit) : (bytesOf n unit).natAbs < 2 ^ 128 := by
  rw [bytesOf, Int.natAbs_mul]
  calc n.value.natAbs * unit.scale ≤ 2 ^ 64 * 2 ^ 50 := Nat.mul_le_mul n.natAbs_le unit.scale_le
    _ < 2 ^ 128 := by decide

/-- An integer size as a double in another unit, rounded once.  No such quotient is too large. -/
def quotientInUnit (n : FixedInt) (source target : SizeUnit) : Binary64 :=
  let bytes := bytesOf n source
  (Binary64.ofRatio? (decide (bytes < 0)) bytes.natAbs target.scale).get
    (Binary64.isSome_ofRatio? _ (natAbs_bytesOf_lt n source))

theorem quotientInUnit_eq_ofRatio (n : FixedInt) (source target : SizeUnit) :
    quotientInUnit n source target =
      .ofRatio (decide (bytesOf n source < 0)) (bytesOf n source).natAbs target.scale := by
  simp [quotientInUnit]

/-- An integer size in another unit of size. -/
def convertInteger (n : FixedInt) (source target : SizeUnit) : Value :=
  let bytes := bytesOf n source
  let quotient := bytes / target.scale
  if bytes % target.scale = 0 ∧ n.type.Holds quotient then
    .integer n.type quotient (some (.size target))
  else .float (quotientInUnit n source target) (some (.size target))

/-- A value in another unit of its category. -/
def convertTo (v : Value) (unit : Measure) : Except OperandFault Value :=
  match v.unit with
  | none => .ok (v.attach unit)
  | some source =>
    if source = unit then .ok v
    else
      match source, unit with
      | .size source, .size target =>
        match v.number with
        | .integer n => .ok (convertInteger n source target)
        | .float x => .ok (.float (target.ofBytes (source.toBytes x)) (some unit))
      | .temperature source, .temperature target =>
        .ok (.float (target.ofCelsius (source.toCelsius v.toBinary64)) (some unit))
      | source, unit => .error (.unitMismatch v source unit)

end TypedCalc.Value
