import TypedCalc.Operand.Apply
import TypedCalc.Proofs.Result

/-!
# Operators and temperatures

A value is sound if it is a double whenever it is a temperature.  Bringing operands together can
break that: the right operand is cast to the type of the left one and keeps its unit.  What an
operator gives is sound all the same, because the unit is put on the result anew.

* `Value.IsSound`: the property.
* `Value.isSound_attach`: it holds of every value that a unit was put on.
* `Operand.givesOnly_applyPrefix`, `Operand.givesOnly_applyInfix`: operators give sound values.
-/

namespace TypedCalc

open Result

/-- Whether a value is a double if it is a temperature. -/
def Value.IsSound (v : Value) : Prop :=
  ∀ unit ∈ v.unit, unit.isTemperature = true → v.type = .f64

namespace Value

variable {v : Value} {unit : Option Measure}

theorem isSound_float (x : Binary64) (unit : Option Measure) : (Value.float x unit).IsSound :=
  fun _ _ _ => rfl

/-- A value without a unit is no temperature. -/
theorem isSound_of_unit_eq_none (h : v.unit = none) : v.IsSound := by
  intro unit hunit
  rw [h] at hunit
  cases hunit

/-- A size is no temperature. -/
theorem isSound_of_unit_eq_size {unit : SizeUnit} (h : v.unit = some (.size unit)) :
    v.IsSound := by
  intro found hfound htemperature
  rw [h] at hfound
  cases hfound
  cases htemperature

/-- An integer is sound only without a temperature unit, whatever its type. -/
theorem IsSound.of_integer {n m : FixedInt} (h : IsSound ⟨.integer n, unit⟩) :
    IsSound ⟨.integer m, unit⟩ := by
  intro found hfound htemperature
  cases h found hfound htemperature

/-- **Putting on a unit** makes any value sound. -/
theorem isSound_attach (v : Value) (unit : Measure) : (v.attach unit).IsSound := by
  cases unit with
  | size unit => exact isSound_of_unit_eq_size rfl
  | temperature unit => exact isSound_float v.toBinary64 _

theorem isSound_attach? (h : unit = none → v.IsSound) : (v.attach? unit).IsSound := by
  cases unit with
  | none => exact h rfl
  | some unit => exact isSound_attach v unit

theorem isSound_convertInteger (n : FixedInt) (source target : SizeUnit) :
    (convertInteger n source target).IsSound := by
  unfold convertInteger
  dsimp only
  split
  · exact isSound_of_unit_eq_size rfl
  · exact isSound_float _ _

theorem IsSound.givesOnly_convertTo (h : v.IsSound) (unit : Measure) :
    GivesOnly IsSound (v.convertTo unit) := by
  unfold convertTo
  split
  · exact .ok (isSound_attach v unit)
  split
  · exact .ok h
  split
  · split
    · exact .ok (isSound_convertInteger _ _ _)
    · exact .ok (isSound_float _ _)
  · exact .ok (isSound_float _ _)
  · exact .error _

end Value

namespace Operand

open Value

/-! ## Prefix operators -/

theorem isSound_negate {v : Value} (h : v.IsSound) : (negate v).IsSound := by
  obtain ⟨number, unit⟩ := v
  cases number with
  | integer n => exact h.of_integer
  | float x => exact isSound_float _ _

/-- An integer operation that keeps the unit keeps a value sound. -/
theorem givesOnly_map_requireInteger {v : Value} (h : v.IsSound) (symbol : String)
    (f : FixedInt → Int) :
    GivesOnly IsSound ((requireInteger symbol v).map fun n => .integer n.type (f n) v.unit) := by
  obtain ⟨number, unit⟩ := v
  cases number with
  | integer n => exact .ok h.of_integer
  | float x => exact .error _

/-- **A prefix operator** keeps a value sound. -/
theorem givesOnly_applyPrefix (op : PrefixOperator) {v : Value} (h : v.IsSound) :
    GivesOnly IsSound (applyPrefix op v) := by
  cases op with
  | negate => exact .ok (isSound_negate h)
  | identity => exact .ok h
  | complement => exact givesOnly_map_requireInteger h _ _
  | not => exact .map fun _ _ => isSound_of_unit_eq_none rfl

/-! ## Infix operators -/

/-- The unit of a result is put on it after the operation, so it does not matter here what the
operands are. -/
theorem givesOnly_applyCoerced (op : InfixOperator) (left right : Value) :
    GivesOnly IsSound (applyCoerced op left right) := by
  have hattach {v : Value} (unit : Option Measure) (h : v.unit = none) :
      (v.attach? unit).IsSound :=
    isSound_attach? fun _ => isSound_of_unit_eq_none h
  cases op with
  | comparison op => exact .ok (isSound_of_unit_eq_none rfl)
  | logical op =>
    refine .bind_of_forall fun _ => ?_
    exact .ok (isSound_of_unit_eq_none rfl)
  | bitwise op =>
    refine .bind_of_forall fun a => .bind_of_forall fun b => .bind_of_forall fun bits => ?_
    exact .ok (hattach _ rfl)
  | arithmetic op =>
    refine .bind_of_forall fun number => ?_
    exact .ok (hattach _ rfl)

/-- **An infix operator** gives sound values. -/
theorem givesOnly_applyInfix (op : InfixOperator) (left right : Value) :
    GivesOnly IsSound (applyInfix op left right) :=
  .bind_of_forall fun right => givesOnly_applyCoerced op left right

end Operand

end TypedCalc
