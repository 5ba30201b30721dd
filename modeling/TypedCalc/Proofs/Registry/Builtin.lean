import Mathlib.Data.List.Basic
import TypedCalc.Evaluation.Basic
import TypedCalc.Proofs.Binary64.Rounding
import TypedCalc.Proofs.Operand.Fault
import TypedCalc.Registry.Builtin

/-!
# The built-in functions are total

A library of elementary functions is `Documented` if it refuses arguments only where such functions
are known to: outside their domain, or where the result is too large.  Around such a library no
built-in function is ever broken.

* `Binary64.exists_trigonometric`, `Binary64.exists_squareRoot`, `Binary64.exists_exponential` and
  `Binary64.exists_logarithm`: the edges that are caught are all the edges there are.
* `Registry.sound_standardWith`: every built-in function on as many arguments as it takes gives a
  value or refuses its operands.
-/

namespace TypedCalc

open Result

/-! ## Libraries -/

/-- Whether a library refuses arguments only where its functions are documented to. -/
structure MathLibrary.Documented (library : MathLibrary) : Prop where
  /-- The sine refuses an argument only as outside its domain. -/
  sin : ∀ x, FailsOnly (· = .domain) (library.sin x)
  /-- So does the cosine. -/
  cos : ∀ x, FailsOnly (· = .domain) (library.cos x)
  /-- So does the tangent. -/
  tan : ∀ x, FailsOnly (· = .domain) (library.tan x)
  /-- So does the inverse of the sine. -/
  asin : ∀ x, FailsOnly (· = .domain) (library.asin x)
  /-- So does the inverse of the cosine. -/
  acos : ∀ x, FailsOnly (· = .domain) (library.acos x)
  /-- The inverse of the tangent is total. -/
  atan : ∀ x, ∃ y, library.atan x = .ok y
  /-- The square root is defined for all that is not below zero. -/
  sqrt : ∀ x, x.lt (.zero false) = false → ∃ y, library.sqrt x = .ok y
  /-- The exponential refuses an argument only as too large. -/
  exp : ∀ x, FailsOnly (fun fault => ∃ cause, fault = .overflow cause) (library.exp x)
  /-- The natural logarithm is defined for all that is neither zero nor below it. -/
  log : ∀ x, x.isZero = false → x.lt (.zero false) = false → ∃ y, library.log x = .ok y
  /-- So is the logarithm to base two. -/
  log2 : ∀ x, x.isZero = false → x.lt (.zero false) = false → ∃ y, library.log2 x = .ok y
  /-- So is the logarithm to base ten. -/
  log10 : ∀ x, x.isZero = false → x.lt (.zero false) = false → ∃ y, library.log10 x = .ok y

namespace Binary64

theorem failsOnly_viaPlatform? (function : Float → Float) (x : Binary64) :
    FailsOnly (· = .domain) (viaPlatform? function x) := by
  unfold viaPlatform?
  dsimp only
  split
  · exact .error rfl
  · exact .ok _

theorem failsOnly_platformExponential (x : Binary64) :
    FailsOnly (fun fault => ∃ cause, fault = .overflow cause) (platformExponential x) := by
  unfold platformExponential
  dsimp only
  split
  · exact .error ⟨_, rfl⟩
  · exact .ok _

theorem exists_platformLogarithm (function : Float → Float) (x : Binary64)
    (hzero : x.isZero = false) (hlt : x.lt (.zero false) = false) :
    ∃ y, platformLogarithm function x = .ok y := by
  unfold platformLogarithm
  rw [hzero, hlt]
  exact ⟨_, rfl⟩

end Binary64

/-- The platform's library refuses arguments only where it is documented to. -/
theorem MathLibrary.documented_platform : platform.Documented where
  sin := Binary64.failsOnly_viaPlatform? _
  cos := Binary64.failsOnly_viaPlatform? _
  tan := Binary64.failsOnly_viaPlatform? _
  asin := Binary64.failsOnly_viaPlatform? _
  acos := Binary64.failsOnly_viaPlatform? _
  atan _ := ⟨_, rfl⟩
  sqrt x h := ⟨x.sqrt, if_neg (Bool.eq_false_iff.mp h)⟩
  exp := Binary64.failsOnly_platformExponential
  log := Binary64.exists_platformLogarithm _
  log2 := Binary64.exists_platformLogarithm _
  log10 := Binary64.exists_platformLogarithm _

/-! ## Functions on doubles -/

namespace Binary64

variable {function : Binary64 → Except MathFault Binary64}

theorem exists_trigonometric (h : ∀ x, FailsOnly (· = .domain) (function x)) (x : Binary64) :
    ∃ y, trigonometric function x = .ok y := by
  unfold trigonometric
  split
  · exact ⟨x, rfl⟩
  · cases hresult : function x with
    | ok y => exact ⟨y, rfl⟩
    | error fault =>
      obtain rfl := h x fault hresult
      exact ⟨.nan, rfl⟩

theorem exists_squareRoot (h : ∀ x, x.lt (.zero false) = false → ∃ y, function x = .ok y)
    (x : Binary64) : ∃ y, squareRoot function x = .ok y := by
  unfold squareRoot
  split
  · exact ⟨.nan, rfl⟩
  · rename_i hlt
    exact h x (Bool.eq_false_iff.mpr hlt)

theorem exists_exponential
    (h : ∀ x, FailsOnly (fun fault => ∃ cause, fault = .overflow cause) (function x))
    (x : Binary64) : ∃ y, exponential function x = .ok y := by
  unfold exponential
  cases hresult : function x with
  | ok y => exact ⟨y, rfl⟩
  | error fault =>
    obtain ⟨cause, rfl⟩ := h x fault hresult
    exact ⟨.infinity false, rfl⟩

theorem exists_logarithm
    (h : ∀ x, x.isZero = false → x.lt (.zero false) = false → ∃ y, function x = .ok y)
    (x : Binary64) : ∃ y, logarithm function x = .ok y := by
  unfold logarithm
  split
  · exact ⟨_, rfl⟩
  split
  · exact ⟨_, rfl⟩
  · rename_i hzero hlt
    exact h x (Bool.eq_false_iff.mpr hzero) (Bool.eq_false_iff.mpr hlt)

end Binary64

/-! ## Calls -/

/-- Whether a fault of a call is a refusal of operands and not a broken function. -/
def CallFault.AboutOperands (fault : CallFault) : Prop :=
  ∃ operandFault : OperandFault, operandFault.AboutOperands ∧ fault = .operand operandFault

/-- Whether a function on as many arguments as it takes gives a value or refuses its operands. -/
def NamedFunction.Sound (function : NamedFunction) : Prop :=
  ∀ arguments : List Value, arguments.length = function.arity →
    FailsOnly CallFault.AboutOperands (function.run (function.castArguments arguments))

/-- Whether all functions of a registry are sound. -/
def Registry.Sound (registry : Registry) : Prop :=
  ∀ function ∈ registry.functions, function.Sound

namespace Builtin

theorem failsOnly_unary {function : Value → Except OperandFault Value}
    (h : ∀ v, FailsOnly OperandFault.AboutOperands (function v)) {arguments : List Value}
    (hlength : arguments.length = 1) :
    FailsOnly CallFault.AboutOperands (unary function arguments) := by
  obtain ⟨v, rfl⟩ := List.length_eq_one_iff.mp hlength
  exact .mapError ((h v).mono fun fault hfault => ⟨fault, hfault, rfl⟩)

theorem failsOnly_binary {function : Value → Value → Except OperandFault Value}
    (h : ∀ v w, FailsOnly OperandFault.AboutOperands (function v w)) {arguments : List Value}
    (hlength : arguments.length = 2) :
    FailsOnly CallFault.AboutOperands (binary function arguments) := by
  obtain ⟨v, w, rfl⟩ := List.length_eq_two.mp hlength
  exact .mapError ((h v w).mono fun fault hfault => ⟨fault, hfault, rfl⟩)

theorem sound_floatFunction {function : Binary64 → Except MathFault Binary64}
    (h : ∀ x, ∃ y, function x = .ok y) (name description : String) (keepsUnit : Bool) :
    (floatFunction name description keepsUnit function).Sound := by
  intro arguments hlength
  obtain ⟨v, rfl⟩ := List.length_eq_one_iff.mp hlength
  obtain ⟨y, hy⟩ := h (v.castTo .f64).toBinary64
  show FailsOnly CallFault.AboutOperands (onDouble keepsUnit function [v.castTo .f64])
  unfold onDouble
  dsimp only
  rw [hy]
  exact .ok _

theorem failsOnly_power (library : MathLibrary) (base exponent : Value) :
    FailsOnly OperandFault.AboutOperands (power library base exponent) := by
  unfold power
  refine .bind (Operand.failsOnly_coerce _ _ _) fun coerced _ => ?_
  split
  · split
    · exact .error ⟨nofun, nofun⟩
    · exact .ok _
  · exact .ok _

theorem failsOnly_choose (name : String) (op : ComparisonOperator) (first second : Value) :
    FailsOnly OperandFault.AboutOperands (choose name op first second) := by
  unfold choose
  exact .bind (Operand.failsOnly_coerce _ _ _) fun _ _ => .ok _

theorem sound_floatFunctions {library : MathLibrary} (h : library.Documented) :
    ∀ function ∈ floatFunctions library, function.Sound := by
  have htotal {total : Binary64 → Binary64} (x : Binary64) :
      ∃ y, (Except.ok (total x) : Except MathFault Binary64) = .ok y := ⟨_, rfl⟩
  unfold floatFunctions
  simp only [List.forall_mem_cons]
  refine ⟨?_, ?_, ?_, ?_, ?_, ?_, ?_, ?_, ?_, ?_, ?_, ?_, ?_, ?_, ?_, ?_, ?_⟩
  · exact sound_floatFunction (Binary64.exists_trigonometric h.sin) _ _ _
  · exact sound_floatFunction (Binary64.exists_trigonometric h.cos) _ _ _
  · exact sound_floatFunction (Binary64.exists_trigonometric h.tan) _ _ _
  · exact sound_floatFunction (Binary64.exists_trigonometric h.asin) _ _ _
  · exact sound_floatFunction (Binary64.exists_trigonometric h.acos) _ _ _
  · exact sound_floatFunction h.atan _ _ _
  · exact sound_floatFunction (Binary64.exists_squareRoot h.sqrt) _ _ _
  · exact sound_floatFunction (Binary64.exists_exponential h.exp) _ _ _
  · exact sound_floatFunction (Binary64.exists_logarithm h.log) _ _ _
  · exact sound_floatFunction (Binary64.exists_logarithm h.log2) _ _ _
  · exact sound_floatFunction (Binary64.exists_logarithm h.log10) _ _ _
  · exact sound_floatFunction Binary64.exists_floor_eq_ok _ _ _
  · exact sound_floatFunction Binary64.exists_ceil_eq_ok _ _ _
  · exact sound_floatFunction Binary64.exists_round_eq_ok _ _ _
  · exact sound_floatFunction htotal _ _ _
  · exact sound_floatFunction htotal _ _ _
  · exact fun _ hmem => absurd hmem List.not_mem_nil

theorem sound_generalFunctions (library : MathLibrary) :
    ∀ function ∈ generalFunctions library, function.Sound := by
  unfold generalFunctions
  simp only [List.forall_mem_cons]
  refine ⟨?_, ?_, ?_, ?_, fun _ hmem => absurd hmem List.not_mem_nil⟩
  · exact fun _ hlength => failsOnly_unary (fun _ => .ok _) hlength
  · exact fun _ hlength => failsOnly_binary (failsOnly_power library) hlength
  · exact fun _ hlength => failsOnly_binary (failsOnly_choose _ _) hlength
  · exact fun _ hlength => failsOnly_binary (failsOnly_choose _ _) hlength

theorem sound_castFunction (type : NumberType) : (castFunction type).Sound :=
  fun _ hlength => failsOnly_unary (fun _ => .ok _) hlength

theorem sound_unitFunction (unit : Measure) : (unitFunction unit).Sound :=
  fun _ hlength => failsOnly_unary (fun v => v.failsOnly_convertTo unit) hlength

end Builtin

/-- **The built-in functions are total.**  None of them is ever broken. -/
theorem Registry.sound_standardWith {library : MathLibrary} (h : library.Documented) :
    (standardWith library).Sound := by
  intro function hmem
  rcases List.mem_append.mp hmem with hmem | hunit
  · rcases List.mem_append.mp hmem with hmem | hcast
    · rcases List.mem_append.mp hmem with hfloat | hgeneral
      · exact Builtin.sound_floatFunctions h function hfloat
      · exact Builtin.sound_generalFunctions library function hgeneral
    · obtain ⟨type, -, rfl⟩ := List.mem_map.mp hcast
      exact Builtin.sound_castFunction type
  · obtain ⟨unit, -, rfl⟩ := List.mem_map.mp hunit
    exact Builtin.sound_unitFunction unit

end TypedCalc
