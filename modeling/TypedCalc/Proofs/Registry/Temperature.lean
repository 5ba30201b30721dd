import TypedCalc.Proofs.Evaluation.Invariant
import TypedCalc.Proofs.Operand.Temperature

/-!
# Built-in names and temperatures

Every constant is dimensionless, and every built-in function gives a sound value for sound
arguments, whatever library of elementary functions it is built on.

* `Registry.isSound_constants`: the constants.
* `Registry.keepsSound_functions`: the functions.
* `Environment.keeps_isSound`: an environment with the built-in names keeps values sound.
-/

namespace TypedCalc

open Result Value

namespace Builtin

variable {arguments : List Value}

/-! ## Calling conventions -/

theorem givesOnly_unary {function : Value → Except OperandFault Value}
    (h : ∀ v, v.IsSound → GivesOnly IsSound (function v))
    (harguments : ∀ v ∈ arguments, v.IsSound) : GivesOnly IsSound (unary function arguments) := by
  cases arguments with
  | nil => exact .error _
  | cons v rest => exact (h v (harguments v (List.mem_cons_self ..))).mapError _

theorem givesOnly_binary {function : Value → Value → Except OperandFault Value}
    (h : ∀ v w, GivesOnly IsSound (function v w)) (arguments : List Value) :
    GivesOnly IsSound (binary function arguments) := by
  rcases arguments with - | ⟨v, - | ⟨w, rest⟩⟩
  · exact .error _
  · exact .error _
  · exact (h v w).mapError _

/-- A function on doubles gives doubles. -/
theorem givesOnly_onDouble (keepsUnit : Bool) (function : Binary64 → Except MathFault Binary64)
    (arguments : List Value) : GivesOnly IsSound (onDouble keepsUnit function arguments) := by
  unfold onDouble
  split
  · split
    · exact .ok (isSound_float _ _)
    · exact .error _
  · exact .error _

/-! ## Functions on every type -/

theorem isSound_absolute (v : Value) : (absolute v).IsSound := by
  unfold absolute
  split
  · exact isSound_attach? fun _ => isSound_of_unit_eq_none rfl
  · exact isSound_attach? fun _ => isSound_of_unit_eq_none rfl

theorem givesOnly_power (library : MathLibrary) (base exponent : Value) :
    GivesOnly IsSound (power library base exponent) := by
  refine .bind_of_forall fun coerced => ?_
  split
  · split
    · exact .error _
    · exact .ok (isSound_attach? fun _ => isSound_of_unit_eq_none rfl)
  · exact .ok (isSound_attach? fun _ => isSound_of_unit_eq_none rfl)

/-- The value that is chosen may be the one that was cast with its unit kept.  If neither value has
a unit it is no temperature, and otherwise the unit is put on anew. -/
theorem givesOnly_choose (name : String) (op : ComparisonOperator) (first second : Value) :
    GivesOnly IsSound (choose name op first second) := by
  refine .bind_of_forall fun coerced => .ok (isSound_attach? fun hunit => ?_)
  obtain ⟨hfirst, hcoerced⟩ := Option.or_eq_none_iff.mp hunit
  split
  · exact isSound_of_unit_eq_none hcoerced
  · exact isSound_of_unit_eq_none hfirst

/-! ## All functions -/

theorem keepsSound_floatFunctions (library : MathLibrary) :
    ∀ function ∈ floatFunctions library, function.Keeps IsSound := by
  have hfloat (name description : String) (keepsUnit : Bool)
      (function : Binary64 → Except MathFault Binary64) :
      (floatFunction name description keepsUnit function).Keeps IsSound :=
    fun _ _ => givesOnly_onDouble keepsUnit function _
  intro function hmem
  simp only [floatFunctions, List.mem_cons, List.not_mem_nil, or_false] at hmem
  rcases hmem with rfl | rfl | rfl | rfl | rfl | rfl | rfl | rfl | rfl | rfl | rfl | rfl | rfl |
    rfl | rfl | rfl <;> exact hfloat _ _ _ _

theorem keepsSound_generalFunctions (library : MathLibrary) :
    ∀ function ∈ generalFunctions library, function.Keeps IsSound := by
  unfold generalFunctions
  simp only [List.forall_mem_cons]
  refine ⟨?_, ?_, ?_, ?_, fun _ hmem => absurd hmem List.not_mem_nil⟩
  · exact fun _ harguments => givesOnly_unary (fun v _ => .ok (isSound_absolute v)) harguments
  · exact fun arguments _ => givesOnly_binary (givesOnly_power library) arguments
  · exact fun arguments _ => givesOnly_binary (givesOnly_choose "min" .less) arguments
  · exact fun arguments _ => givesOnly_binary (givesOnly_choose "max" .greater) arguments

/-- A cast drops the unit. -/
theorem keepsSound_castFunction (type : NumberType) : (castFunction type).Keeps IsSound :=
  fun _ harguments => givesOnly_unary (fun _ _ => .ok (isSound_of_unit_eq_none rfl)) harguments

theorem keepsSound_unitFunction (unit : Measure) : (unitFunction unit).Keeps IsSound :=
  fun _ harguments => givesOnly_unary (fun _ h => h.givesOnly_convertTo unit) harguments

end Builtin

namespace Registry

/-- **The built-in functions** give sound values for sound arguments. -/
theorem keepsSound_functions (library : MathLibrary) :
    ∀ function ∈ (standardWith library).functions, function.Keeps IsSound := by
  intro function hmem
  rcases List.mem_append.mp hmem with hmem | hunit
  · rcases List.mem_append.mp hmem with hmem | hcast
    · rcases List.mem_append.mp hmem with hfloat | hgeneral
      · exact Builtin.keepsSound_floatFunctions library function hfloat
      · exact Builtin.keepsSound_generalFunctions library function hgeneral
    · obtain ⟨type, -, rfl⟩ := List.mem_map.mp hcast
      exact Builtin.keepsSound_castFunction type
  · obtain ⟨unit, -, rfl⟩ := List.mem_map.mp hunit
    exact Builtin.keepsSound_unitFunction unit

/-- **The constants** are dimensionless. -/
theorem isSound_constants (library : MathLibrary) :
    ∀ constant ∈ (standardWith library).constants, constant.value.IsSound := by
  intro constant hmem
  rcases List.mem_append.mp hmem with hmem | hrange
  · simp only [List.mem_cons, List.not_mem_nil, or_false] at hmem
    rcases hmem with rfl | rfl | rfl | rfl | rfl | rfl | rfl <;> exact isSound_float _ _
  · obtain ⟨type, -, hmem⟩ := List.mem_flatMap.mp hrange
    simp only [Builtin.rangeConstants, List.mem_cons, List.not_mem_nil, or_false] at hmem
    rcases hmem with rfl | rfl <;> exact isSound_of_unit_eq_none rfl

end Registry

/-- **An environment with the built-in names** keeps values sound. -/
theorem Environment.keeps_isSound {history : History} (h : ∀ v ∈ history.recent, v.IsSound)
    (library : MathLibrary) : (Environment.mk history (.standardWith library)).Keeps IsSound where
  history := h
  constants := Registry.isSound_constants library
  functions := Registry.keepsSound_functions library
  applyPrefix op _ hv := Operand.givesOnly_applyPrefix op hv
  applyInfix op left right _ _ := Operand.givesOnly_applyInfix op left right

end TypedCalc
