import TypedCalc.Operand.Apply
import TypedCalc.Proofs.Result

/-!
# When an infix operator refuses its operands

The checks of an infix operator come in a fixed order: the categories of the units, then the types,
then the number of the right operand.  That number is looked at after the right operand was brought
into the unit and the type of the left one, so a conversion or a cast can make a zero or a negative
number of it.

* `Operand.refusal?`: the checks on two operands of one type, as a table.
* `Operand.applyCoerced_decided`: they are all that an operator refuses such operands for.
* `Operand.applyInfix_decided`: the same for any two operands, with the unit and the type of the
  result where there is one.
-/

namespace TypedCalc

open Result

/-! ## Sorts of operators -/

namespace InfixOperator

/-- Whether an operator is only for integers. -/
def takesIntegers : InfixOperator → Bool
  | .bitwise _ | .logical _ => true
  | .arithmetic _ | .comparison _ => false

/-- Whether an operator divides. -/
def divides : InfixOperator → Bool
  | .arithmetic .divide | .arithmetic .remainder => true
  | _ => false

/-- Whether an operator shifts. -/
def shifts : InfixOperator → Bool
  | .bitwise .shiftLeft | .bitwise .shiftRight => true
  | _ => false

/-- Whether an operator gives a truth value. -/
def givesTruth : InfixOperator → Bool
  | .comparison _ | .logical _ => true
  | .arithmetic _ | .bitwise _ => false

end InfixOperator

/-- Whether a number is an integer below zero. -/
def Number.isNegativeInteger : Number → Bool
  | .integer n => decide (n.value < 0)
  | .float _ => false

namespace Operand

/-! ## Operands of one type -/

/-- The class of the error with which an operator refuses two numbers of one type, if it does. -/
def refusal? (op : InfixOperator) (left right : Number) : Option ErrorClass :=
  if op.takesIntegers && left.type.isFloat then some .typing
  else if op.divides && left.type.isInteger && !right.isTrue then some .divisionByZero
  else if op.shifts && right.isNegativeInteger then some .evaluation
  else none

/-- Whether a result is an error of a class. -/
def RefusedAs (errorClass : ErrorClass) (result : Except OperandFault Value) : Prop :=
  ∃ fault, result = .error fault ∧ fault.report.errorClass = errorClass

/-- Whether a value can be what an operator gives of two operands: a truth value, or a number of
the type of the left operand in the unit of whichever operand has one, but a double if that is a
temperature. -/
def IsResultOf (op : InfixOperator) (left right result : Value) : Prop :=
  if op.givesTruth then result = .integer .u8 0 ∨ result = .integer .u8 1
  else
    result.unit = left.unit.or right.unit ∧
      result.type =
        if (left.unit.or right.unit).any Measure.isTemperature then .f64 else left.type

/-- What an operator does with two operands that a check has a verdict on. -/
def Decides (op : InfixOperator) (left right : Value) (result : Except OperandFault Value) :
    Option ErrorClass → Prop
  | some errorClass => RefusedAs errorClass result
  | none => ∃ value, result = .ok value ∧ IsResultOf op left right value

theorem eq_integer_ofBool (flag : Bool) :
    Value.ofBool flag = .integer .u8 0 ∨ Value.ofBool flag = .integer .u8 1 := by
  cases flag with
  | false => exact .inl rfl
  | true => exact .inr rfl

/-- A number of a type with a unit put on it. -/
theorem type_attach? (number : Number) (unit : Option Measure) :
    ((Value.mk number none).attach? unit).type =
      if unit.any Measure.isTemperature then .f64 else number.type := by
  match unit with
  | none => rfl
  | some (.size unit) => rfl
  | some (.temperature unit) => rfl

theorem unit_attach? (number : Number) (unit : Option Measure) :
    ((Value.mk number none).attach? unit).unit = unit := by
  match unit with
  | none => rfl
  | some (.size unit) => rfl
  | some (.temperature unit) => rfl

/-- A number of the type of the left operand is a result once the unit is put on it. -/
theorem isResultOf_attach? {op : InfixOperator} (hop : op.givesTruth = false) {left right : Value}
    {number : Number} (htype : number.type = left.type) :
    IsResultOf op left right ((Value.mk number none).attach? (left.unit.or right.unit)) := by
  rw [IsResultOf, if_neg (by simp [hop]), unit_attach?, type_attach?, htype]
  exact ⟨rfl, rfl⟩

/-- A step with one check on the numbers. -/
theorem decides_bind {op : InfixOperator} {left right : Value} {check : Prop} [Decidable check]
    {fault : OperandFault} {errorClass : ErrorClass} {n : Int} {next : Int → Value}
    (hfault : fault.report.errorClass = errorClass)
    (hnext : ∀ n, IsResultOf op left right (next n)) :
    Decides op left right
      ((if check then .error fault else .ok n) >>= fun n => .ok (next n))
      (if check then some errorClass else none) := by
  by_cases hcheck : check
  · rw [if_pos hcheck, if_pos hcheck]
    exact ⟨fault, rfl, hfault⟩
  · rw [if_neg hcheck, if_neg hcheck]
    exact ⟨next n, rfl, hnext n⟩

section

variable (a b : FixedInt) (unit unit' : Option Measure)

/-- A shift looks at the sign of its count. -/
theorem shift_decided {op : BitwiseOperator} (hop : op = .shiftLeft ∨ op = .shiftRight) :
    Decides (.bitwise op) ⟨.integer a, unit⟩ ⟨.integer b, unit'⟩
      (applyCoerced (.bitwise op) ⟨.integer a, unit⟩ ⟨.integer b, unit'⟩)
      (refusal? (.bitwise op) (.integer a) (.integer b)) := by
  have hcheck : refusal? (.bitwise op) (.integer a) (.integer b) =
      if b.value < 0 then some .evaluation else none := by
    rcases hop with rfl | rfl <;> simp [refusal?, InfixOperator.takesIntegers,
      InfixOperator.divides, InfixOperator.shifts, Number.type, NumberType.isFloat,
      Number.isNegativeInteger]
  obtain ⟨n, hn⟩ : ∃ n, bitwise op a b =
      if b.value < 0 then .error (.negativeShift b.value) else .ok n := by
    rcases hop with rfl | rfl <;> exact ⟨_, rfl⟩
  have hresult : applyCoerced (.bitwise op) ⟨.integer a, unit⟩ ⟨.integer b, unit'⟩ =
      (bitwise op a b >>= fun n => .ok ((Value.integer a.type n).attach? (unit.or unit'))) := rfl
  rw [hcheck, hresult, hn]
  exact decides_bind rfl fun _ => isResultOf_attach? rfl rfl

/-- A division looks at whether its divisor is zero. -/
theorem division_decided {op : ArithmeticOperator} (hop : op = .divide ∨ op = .remainder) :
    Decides (.arithmetic op) ⟨.integer a, unit⟩ ⟨.integer b, unit'⟩
      (applyCoerced (.arithmetic op) ⟨.integer a, unit⟩ ⟨.integer b, unit'⟩)
      (refusal? (.arithmetic op) (.integer a) (.integer b)) := by
  have hcheck : refusal? (.arithmetic op) (.integer a) (.integer b) =
      if b.value = 0 then some .divisionByZero else none := by
    rcases hop with rfl | rfl <;> simp [refusal?, InfixOperator.takesIntegers,
      InfixOperator.divides, InfixOperator.shifts, Number.type, NumberType.isInteger,
      Number.isTrue]
  obtain ⟨fault, n, hfault, hn⟩ : ∃ fault n, fault.report.errorClass = .divisionByZero ∧
      integerArithmetic op a b = if b.value = 0 then .error fault else .ok n := by
    rcases hop with rfl | rfl <;> exact ⟨_, _, rfl, rfl⟩
  have hresult : applyCoerced (.arithmetic op) ⟨.integer a, unit⟩ ⟨.integer b, unit'⟩ =
      (integerArithmetic op a b >>= fun n =>
        .ok ((Value.mk (.integer (.ofInt a.type n)) none).attach? (unit.or unit'))) := by
    simp only [applyCoerced, arithmetic]
    cases integerArithmetic op a b <;> rfl
  rw [hcheck, hresult, hn]
  exact decides_bind hfault fun _ => isResultOf_attach? rfl rfl

end

/-- **On operands of one type** an operator does what the table of its checks says. -/
theorem applyCoerced_decided (op : InfixOperator) {left right : Value}
    (htype : right.type = left.type) :
    Decides op left right (applyCoerced op left right)
      (refusal? op left.number right.number) := by
  obtain ⟨number, unit⟩ := left
  obtain ⟨number', unit'⟩ := right
  cases op with
  | comparison op => exact ⟨_, rfl, eq_integer_ofBool _⟩
  | logical op =>
    cases number with
    | integer a => exact ⟨_, rfl, eq_integer_ofBool _⟩
    | float x => exact ⟨_, rfl, rfl⟩
  | bitwise op =>
    cases number with
    | float x => exact ⟨_, rfl, rfl⟩
    | integer a =>
      cases number' with
      | float y => cases htype
      | integer b =>
        cases op with
        | and | or | xor => exact ⟨_, rfl, isResultOf_attach? rfl rfl⟩
        | shiftLeft => exact shift_decided a b unit unit' (.inl rfl)
        | shiftRight => exact shift_decided a b unit unit' (.inr rfl)
  | arithmetic op =>
    cases number with
    | float x =>
      cases number' with
      | integer b => cases htype
      | float y =>
        have hcheck : refusal? (.arithmetic op) (.float x) (.float y) = none := by
          simp [refusal?, InfixOperator.takesIntegers, InfixOperator.shifts, Number.type,
            NumberType.isInteger]
        rw [hcheck]
        exact ⟨_, rfl, isResultOf_attach? rfl rfl⟩
    | integer a =>
      cases number' with
      | float y => cases htype
      | integer b =>
        cases op with
        | add | subtract | multiply => exact ⟨_, rfl, isResultOf_attach? rfl rfl⟩
        | divide => exact division_decided a b unit unit' (.inl rfl)
        | remainder => exact division_decided a b unit unit' (.inr rfl)

/-! ## Any two operands -/

/-- Whether both operands have units, and of different categories. -/
def UnitsClash (left right : Value) : Prop :=
  ∃ leftUnit ∈ left.unit, ∃ rightUnit ∈ right.unit, leftUnit.category ≠ rightUnit.category

/-- Whether a value is the right operand brought into the unit of the left one, if both have one,
and then into its type. -/
inductive Brought (left right : Value) : Value → Prop
  /-- Both operands have units. -/
  | converted {leftUnit rightUnit : Measure} {converted : Value} (hleft : left.unit = some leftUnit)
      (hright : right.unit = some rightUnit) (h : right.convertTo leftUnit = .ok converted) :
      Brought left right (converted.castTo left.type)
  /-- An operand is dimensionless. -/
  | unconverted (h : left.unit = none ∨ right.unit = none) :
      Brought left right (right.castTo left.type)

/-- Within a category a value can be converted into every unit. -/
theorem exists_convertTo {v : Value} {source unit : Measure} (hsource : v.unit = some source)
    (h : source.category = unit.category) : ∃ converted, v.convertTo unit = .ok converted := by
  unfold Value.convertTo
  rw [hsource]
  dsimp only
  split
  · exact ⟨v, rfl⟩
  match source, unit with
  | .size source, .size unit =>
    dsimp only
    split <;> exact ⟨_, rfl⟩
  | .temperature source, .temperature unit => exact ⟨_, rfl⟩

/-- Bringing the right operand to the left one fails only where the units clash. -/
theorem coerce_decided (symbol : String) (left right : Value) :
    (UnitsClash left right ∧ ∃ fault, coerce symbol left right = .error fault ∧
      fault.report.errorClass = .typing) ∨
    ¬ UnitsClash left right ∧ ∃ right', coerce symbol left right = .ok right' ∧
      Brought left right right' := by
  unfold coerce
  split
  · rename_i leftUnit rightUnit hleft hright
    by_cases hcategory : leftUnit.category = rightUnit.category
    · right
      obtain ⟨converted, hconverted⟩ := exists_convertTo hright hcategory.symm
      refine ⟨?_, converted.castTo left.type, ?_, .converted hleft hright hconverted⟩
      · rintro ⟨_, hleft', _, hright', hne⟩
        cases hleft.symm.trans hleft'
        cases hright.symm.trans hright'
        exact hne hcategory
      · rw [if_pos hcategory, hconverted]
        rfl
    · left
      rw [if_neg hcategory]
      exact ⟨⟨leftUnit, hleft, rightUnit, hright, hcategory⟩, _, rfl, rfl⟩
  · rename_i hnone
    right
    have hmissing : left.unit = none ∨ right.unit = none := by
      cases hleft : left.unit with
      | none => exact .inl rfl
      | some leftUnit =>
        cases hright : right.unit with
        | none => exact .inr rfl
        | some rightUnit => exact absurd hright (hnone leftUnit rightUnit hleft)
    refine ⟨?_, _, rfl, .unconverted hmissing⟩
    rintro ⟨leftUnit, hleft, rightUnit, hright, -⟩
    exact hnone leftUnit rightUnit hleft hright

theorem Brought.type_eq {left right right' : Value} (h : Brought left right right') :
    right'.type = left.type := by
  cases h <;> exact Value.type_castTo _ _

/-- A result is measured in the unit of the left operand, if it has one, so it does not matter what
the right operand was converted into. -/
theorem Brought.unit_or {left right right' : Value} (h : Brought left right right') :
    left.unit.or right'.unit = left.unit.or right.unit := by
  cases h with
  | converted hleft hright h => rw [hleft, Option.some_or, Option.some_or]
  | unconverted h => rw [Value.unit_castTo]

theorem Decides.congr {op : InfixOperator} {left right right' : Value}
    {result : Except OperandFault Value} {verdict : Option ErrorClass}
    (h : Decides op left right' result verdict)
    (hunit : left.unit.or right'.unit = left.unit.or right.unit) :
    Decides op left right result verdict := by
  cases verdict with
  | some errorClass => exact h
  | none =>
    obtain ⟨value, hresult, hvalue⟩ := h
    unfold IsResultOf at hvalue
    rw [hunit] at hvalue
    exact ⟨value, hresult, hvalue⟩

/-- **When an infix operator refuses its operands.**  Units of different categories are refused
first.  Otherwise the right operand can be brought to the left one, and the table of checks on the
two numbers says whether the operator gives a result, and with which error it refuses them if it
does not. -/
theorem applyInfix_decided (op : InfixOperator) (left right : Value) :
    (UnitsClash left right ∧ RefusedAs .typing (applyInfix op left right)) ∨
    ¬ UnitsClash left right ∧ ∃ right', Brought left right right' ∧
      Decides op left right (applyInfix op left right)
        (refusal? op left.number right'.number) := by
  unfold applyInfix
  rcases coerce_decided op.symbol left right with ⟨hclash, fault, hcoerce, hfault⟩ |
    ⟨hclash, right', hcoerce, hbrought⟩
  · rw [hcoerce]
    exact .inl ⟨hclash, fault, rfl, hfault⟩
  · rw [hcoerce]
    have hdecided := applyCoerced_decided op hbrought.type_eq
    exact .inr ⟨hclash, right', hbrought, hdecided.congr hbrought.unit_or⟩

end Operand

end TypedCalc
