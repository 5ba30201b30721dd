import Mathlib.Data.Int.ModEq
import TypedCalc.Proofs.Value.Wrap
import TypedCalc.Value.Cast

/-!
# Casts between integer types

A cast from one integer type to another keeps the number modulo the number of bit patterns of the
target.  A type on the way to another one loses nothing if it is at least as wide as the target, or
if it has the number: the sign is extended into a wider type, and read off the bits of a narrower
one.

* `FixedInt.value_ofInt_modEq`: what a number is wrapped into is congruent to it.
* `Value.castTo_castTo_of_width_le`, `Value.castTo_castTo_of_holds`: the two ways of losing nothing.
* `Value.integer_casts_compose`: what a cast gives, and two casts in a row.
-/

namespace TypedCalc

theorem IntegerType.natCast_modulus (type : IntegerType) :
    (type.modulus : Int) = 2 ^ type.width := by
  exact_mod_cast (rfl : type.modulus = 2 ^ type.width)

namespace FixedInt

theorem value_ofInt_modEq (type : IntegerType) (n : Int) :
    (ofInt type n).value ≡ n [ZMOD 2 ^ type.width] := by
  rw [Int.ModEq, ← type.natCast_modulus, value_ofInt, IntegerType.emod_wrap]

/-- A type has only one number of a residue class. -/
theorem eq_of_modEq {n m : FixedInt} (htype : n.type = m.type)
    (h : n.value ≡ m.value [ZMOD 2 ^ n.type.width]) : n = m := by
  rw [Int.ModEq, ← n.type.natCast_modulus] at h
  exact eq_of_emod_eq htype h

end FixedInt

namespace Value

variable {n : FixedInt} {unit : Option Measure} {type target : IntegerType}

theorem castTo_integer_eq (n : FixedInt) (unit : Option Measure) (type : IntegerType) :
    (Value.mk (.integer n) unit).castTo (.integer type) = ⟨.integer (.ofInt type n.value), unit⟩ :=
  rfl

/-- **A cast to a type that is as wide as the target loses nothing.** -/
theorem castTo_castTo_of_width_le (h : target.width ≤ type.width) :
    ((Value.mk (.integer n) unit).castTo (.integer type)).castTo (.integer target) =
      (Value.mk (.integer n) unit).castTo (.integer target) := by
  simp only [castTo_integer_eq, FixedInt.value_ofInt]
  rw [FixedInt.ofInt_congr (IntegerType.wrap_wrap h n.value)]

/-- **A cast to a type that has the number loses nothing.** -/
theorem castTo_castTo_of_holds (h : type.Holds n.value) :
    ((Value.mk (.integer n) unit).castTo (.integer type)).castTo (.integer target) =
      (Value.mk (.integer n) unit).castTo (.integer target) := by
  simp only [castTo_integer_eq, FixedInt.value_ofInt, IntegerType.wrap_eq_self h]

/-- **Casts between integer types.**  A cast gives the one number of the target that is congruent to
the number modulo `2 ^ width`, in the same unit.  A cast on the way to another type changes nothing
if the type is at least as wide as that one or has the number, so then the way back gives the number
itself. -/
theorem integer_casts_compose (n : FixedInt) (unit : Option Measure) (type : IntegerType) :
    (∃ m : FixedInt,
      (Value.mk (.integer n) unit).castTo (.integer type) = ⟨.integer m, unit⟩ ∧
      m.type = type ∧ m.value ≡ n.value [ZMOD 2 ^ type.width] ∧
      ∀ other : FixedInt, other.type = type → other.value ≡ n.value [ZMOD 2 ^ type.width] →
        other = m) ∧
    (∀ target : IntegerType, target.width ≤ type.width ∨ type.Holds n.value →
      ((Value.mk (.integer n) unit).castTo (.integer type)).castTo (.integer target) =
        (Value.mk (.integer n) unit).castTo (.integer target)) ∧
    (n.type.width ≤ type.width ∨ type.Holds n.value →
      ((Value.mk (.integer n) unit).castTo (.integer type)).castTo (.integer n.type) =
        ⟨.integer n, unit⟩) := by
  have hcompose (target : IntegerType) (h : target.width ≤ type.width ∨ type.Holds n.value) :
      ((Value.mk (.integer n) unit).castTo (.integer type)).castTo (.integer target) =
        (Value.mk (.integer n) unit).castTo (.integer target) := by
    rcases h with hwidth | hholds
    · exact castTo_castTo_of_width_le hwidth
    · exact castTo_castTo_of_holds hholds
  have hmod := FixedInt.value_ofInt_modEq type n.value
  refine ⟨⟨.ofInt type n.value, rfl, rfl, hmod, ?_⟩, hcompose, ?_⟩
  · intro other htype hother
    subst htype
    exact FixedInt.eq_of_modEq rfl (hother.trans hmod.symm)
  · intro h
    rw [hcompose n.type h]
    exact castTo_type _

/-- The `i8` -56 is the `u64` 18446744073709551560, and both are the `u16` 65480; the way back from
`u64` gives -56 again.  A `u8` is too narrow for -56 on the way to `i16`, but it has 100. -/
theorem integer_casts_compose_signed :
    let v : Value := ⟨.integer (.ofInt .i8 (-56)), some (.size .kilobyte)⟩
    IntegerType.u16.width ≤ IntegerType.u64.width ∧ IntegerType.i8.width ≤ IntegerType.u64.width ∧
      IntegerType.u8.Holds (FixedInt.ofInt .i8 100).value ∧
      (v.castTo (.integer .u64)).castTo (.integer .u16) =
        .integer .u16 65480 (some (.size .kilobyte)) ∧
      (v.castTo (.integer .u64)).castTo (.integer .i8) = v ∧
      (v.castTo (.integer .u8)).castTo (.integer .i16) ≠ v.castTo (.integer .i16) ∧
      ((Value.mk (.integer (.ofInt .i8 100)) none).castTo (.integer .u8)).castTo (.integer .i16) =
        .integer .i16 100 := by
  intro v
  have hwider : IntegerType.u16.width ≤ IntegerType.u64.width := by decide
  have hback : IntegerType.i8.width ≤ IntegerType.u64.width := by decide
  have hholds : IntegerType.u8.Holds (FixedInt.ofInt .i8 100).value := by decide
  obtain ⟨-, honward, hsame⟩ :=
    integer_casts_compose (.ofInt .i8 (-56)) (some (.size .kilobyte)) .u64
  obtain ⟨-, hnarrow, -⟩ := integer_casts_compose (.ofInt .i8 100) none .u8
  refine ⟨hwider, hback, hholds, ?_, hsame (.inl hback), by decide, ?_⟩
  · exact (honward .u16 (.inl hwider)).trans (by decide)
  · exact (hnarrow .i16 (.inr hholds)).trans (by decide)

end Value

end TypedCalc
