import Mathlib.Data.Rat.Floor
import TypedCalc.Measure
import TypedCalc.Proofs.Binary64.Decimal

/-!
# Results that need no rounding

A double is exactly a quotient of whole numbers when its count of units is.  Where the exact result
of an operation is a count that a double can hold, the operation gives that count.

* `Binary64.value?`: the rational number that a finite double is.
* `Binary64.isExactly_ofRatio`: a quotient that is such a count is not rounded.
* `Binary64.value?_ofInt`: nor is a whole number of 53 digits.
* `Binary64.mul_finite`, `Binary64.div_finite`: nor are such products and quotients of doubles.
* `SizeUnit.toBytes_finite`, `SizeUnit.ofBytes_finite`: so a change of unit multiplies or divides
  the count by the scale of the unit.
-/

namespace TypedCalc

namespace Binary64

/-- Whether a double is a quotient of whole numbers, not rounded. -/
def IsExactly (num : Int) (den : Nat) (x : Binary64) : Prop :=
  ∃ (negative : Bool) (units : Nat) (h : Representable units),
    x = .finite negative units h ∧ signedUnits negative units * den = num * unitsPerOne

/-- The number that a finite double is. -/
def value? : Binary64 → Option ℚ
  | .finite negative units _ => some (signedUnits negative units / unitsPerOne)
  | _ => none

theorem IsExactly.value? {num : Int} {den : Nat} {x : Binary64} (h : IsExactly num den x)
    (hden : 0 < den) : x.value? = some ((num : ℚ) / den) := by
  obtain ⟨negative, units, hunits, rfl, hcount⟩ := h
  have hone : (unitsPerOne : ℚ) ≠ 0 := by exact_mod_cast Nat.ne_of_gt unitsPerOne_pos
  have hden' : (den : ℚ) ≠ 0 := by exact_mod_cast Nat.ne_of_gt hden
  have hcount' : (signedUnits negative units : ℚ) * den = num * unitsPerOne := by
    exact_mod_cast hcount
  rw [Binary64.value?, (div_eq_div_iff hone hden').mpr hcount']

/-! ## Signs -/

theorem signedUnits_mul (negative : Bool) (units den : Nat) :
    signedUnits negative units * den = signedUnits negative (units * den) := by
  cases negative <;> simp only [signedUnits, Bool.false_eq_true, if_true, if_false, Int.neg_mul,
    Int.natCast_mul]

theorem signedUnits_natAbs (num : Int) : signedUnits (decide (num < 0)) num.natAbs = num := by
  by_cases hneg : num < 0
  · simp only [hneg, decide_true, signedUnits, if_true]
    omega
  · simp only [hneg, decide_false, signedUnits, Bool.false_eq_true, if_false]
    omega

/-- A count on the side of a whole number is a quotient of it if the magnitudes are. -/
theorem isExactly_finite {num : Int} {den units : Nat} (hunits : Representable units)
    (h : units * den = num.natAbs * unitsPerOne) :
    IsExactly num den (.finite (decide (num < 0)) units hunits) := by
  refine ⟨_, units, hunits, rfl, ?_⟩
  rw [signedUnits_mul, h, ← signedUnits_mul, signedUnits_natAbs]

/-! ## Operations -/

theorem ofRatio_finite {num den units : Nat} (hden : 0 < den) (hunits : Representable units)
    (h : num * unitsPerOne = units * den) (negative : Bool) :
    ofRatio negative num den = .finite negative units hunits := by
  rw [ofRatio, h, ofUnits_mul_right hden hunits]

/-- **A quotient of whole numbers that a double can hold is not rounded.** -/
theorem isExactly_ofRatio {num : Int} {den units : Nat} (hden : 0 < den)
    (hunits : Representable units) (h : num.natAbs * unitsPerOne = units * den) :
    IsExactly num den (ofRatio (decide (num < 0)) num.natAbs den) := by
  rw [ofRatio_finite hden hunits h]
  exact isExactly_finite hunits h.symm

/-- A product that a double can hold is not rounded. -/
theorem mul_finite {left right units : Nat} (hleft : Representable left)
    (hright : Representable right) (hunits : Representable units)
    (h : left * right = units * unitsPerOne) (a b : Bool) :
    (Binary64.finite a left hleft).mul (.finite b right hright) =
      .finite (a ^^ b) units hunits := by
  rw [mul, h, ofUnits_mul_right unitsPerOne_pos hunits]

/-- A quotient that a double can hold is not rounded. -/
theorem div_finite {left right units : Nat} (hleft : Representable left)
    (hright : Representable right) (hunits : Representable units) (hpos : 0 < right)
    (h : left * unitsPerOne = units * right) (a b : Bool) :
    (Binary64.finite a left hleft).div (.finite b right hright) =
      .finite (a ^^ b) units hunits := by
  rw [div, if_neg (Nat.ne_of_gt hpos), h, ofUnits_mul_right hpos hunits]

/-! ## Whole numbers -/

/-- A double can hold as many steps of one power of two as 53 digits can count. -/
theorem representable_mul_two_pow {n low : Nat} (h : n ≤ 2 ^ 53)
    (hlow : 2 ^ 53 * 2 ^ low < overflowUnits) : Representable (n * 2 ^ low) :=
  ⟨Nat.lt_of_le_of_lt (Nat.mul_le_mul_right _ h) hlow, slack_dvd_mul_two_pow h⟩

/-- So it can hold every whole number of at most 53 digits. -/
theorem representable_mul_unitsPerOne {n : Nat} (h : n ≤ 2 ^ 53) :
    Representable (n * unitsPerOne) := by
  obtain ⟨low, hunits, hlow⟩ :
      ∃ low, unitsPerOne = 2 ^ low ∧ 2 ^ 53 * 2 ^ low < overflowUnits :=
    ⟨1074, rfl, by decide +kernel⟩
  rw [hunits]
  exact representable_mul_two_pow h hlow

theorem value?_ofInt {n : Int} (h : n.natAbs ≤ 2 ^ 53) : (ofInt n).value? = some (n : ℚ) := by
  have hexact := isExactly_ofRatio Nat.one_pos (representable_mul_unitsPerOne h)
    (Nat.mul_one _).symm
  rw [ofInt, hexact.value? Nat.one_pos, Nat.cast_one, div_one]

end Binary64

/-! ## Units of size -/

namespace SizeUnit

open Binary64

theorem representable_scale (unit : SizeUnit) : Representable (unit.scale * unitsPerOne) :=
  representable_mul_unitsPerOne (Nat.le_trans unit.scale_le (by decide))

theorem ofInt_scale (unit : SizeUnit) :
    Binary64.ofInt unit.scale =
      .finite false (unit.scale * unitsPerOne) unit.representable_scale := by
  have hsign : decide ((unit.scale : Int) < 0) = false :=
    decide_eq_false (Int.not_lt.mpr (Int.natCast_nonneg _))
  rw [Binary64.ofInt, hsign, Int.natAbs_natCast]
  exact ofRatio_finite Nat.one_pos unit.representable_scale (Nat.mul_one _).symm false

variable {unit : SizeUnit} {units bytes : Nat} (hunits : Representable units)
  (hbytes : Representable bytes) (h : units * unit.scale = bytes) (negative : Bool)

include h

/-- **In bytes a count is multiplied by the scale**, if a double can hold the product. -/
theorem toBytes_finite :
    unit.toBytes (.finite negative units hunits) = .finite negative bytes hbytes := by
  have hproduct : units * (unit.scale * unitsPerOne) = bytes * unitsPerOne := by
    rw [← Nat.mul_assoc, h]
  rw [toBytes, ofInt_scale, mul_finite hunits unit.representable_scale hbytes hproduct,
    Bool.xor_false]

/-- **A count of bytes is divided by the scale**, if a double can hold the quotient. -/
theorem ofBytes_finite :
    unit.ofBytes (.finite negative bytes hbytes) = .finite negative units hunits := by
  have hproduct : bytes * unitsPerOne = units * (unit.scale * unitsPerOne) := by
    rw [← h, Nat.mul_assoc]
  rw [ofBytes, ofInt_scale, div_finite hbytes unit.representable_scale hunits
    (Nat.mul_pos unit.scale_pos unitsPerOne_pos) hproduct, Bool.xor_false]

end SizeUnit

end TypedCalc
