import Mathlib.Data.Rat.Floor
import TypedCalc.Proofs.Operand.Modular

/-!
# Quotients and remainders of integers

The quotient of two integers is the rational one truncated toward zero, which is a number of their
type but for the smallest one by -1.  The remainder is what the quotient before wrapping leaves, and
quotient and remainder give the dividend back in every case, since the missing number of bit
patterns is lost again in the sum.

* `Operand.tdiv_eq_truncate`: the quotient of the operators is the rational one truncated.
* `IntegerType.holds_tdiv`: where it is a number of the type.
* `Operand.division_remainder`: both results and how they fit together.
-/

namespace TypedCalc

namespace IntegerType

variable {type : IntegerType} {n m : Int}

/-- **The quotient of two numbers of a type is one of the type**, but for the smallest one of a
signed type by -1. -/
theorem holds_tdiv (hn : type.Holds n) (hm : type.Holds m) (hne : m ≠ 0)
    (hfits : ¬ (type.isSigned = true ∧ n = type.minimum ∧ m = -1)) : type.Holds (n.tdiv m) := by
  have habs : (n.tdiv m).natAbs ≤ n.natAbs := Int.natAbs_tdiv_le_natAbs n m
  rcases Int.lt_or_gt_of_ne hne with hneg | hpos
  · -- only a signed type has negative numbers
    obtain ⟨hmax, hmin⟩ := type.minimum_eq
    have hsigned : type.isSigned = true := by
      by_contra hunsigned
      rw [if_neg hunsigned] at hmin
      have hlower := hm.1
      omega
    rw [if_pos hsigned] at hmin
    by_cases hone : m = -1
    · subst hone
      have hfirst : n ≠ type.minimum := fun heq => hfits ⟨hsigned, heq, rfl⟩
      rw [Int.tdiv_neg, Int.tdiv_one]
      unfold Holds at hn ⊢
      omega
    · have hhalf : (n.tdiv m).natAbs ≤ n.natAbs / 2 := by
        rw [Int.natAbs_tdiv]
        exact Nat.div_le_div_left (by omega) (by decide)
      unfold Holds at hn ⊢
      omega
  · rcases Int.le_total 0 n with hnonneg | hnonpos
    · have hquotient := Int.tdiv_nonneg hnonneg (Int.le_of_lt hpos)
      exact hn.between (.inl ⟨hquotient, by omega⟩)
    · have hquotient := Int.tdiv_nonneg (Int.neg_nonneg_of_nonpos hnonpos) (Int.le_of_lt hpos)
      rw [Int.neg_tdiv] at hquotient
      exact hn.between (.inr ⟨by omega, by omega⟩)

/-- That one wraps to the smallest number again. -/
theorem wrap_neg_minimum (type : IntegerType) : type.wrap (-type.minimum) = type.minimum := by
  cases type <;> decide

/-- The remainder lies between zero and the dividend. -/
theorem holds_tmod (hn : type.Holds n) (m : Int) : type.Holds (n.tmod m) := by
  have habs : (n.tmod m).natAbs ≤ n.natAbs := by
    rw [Int.natAbs_tmod]
    exact Nat.mod_le _ _
  rcases Int.le_total 0 n with hnonneg | hnonpos
  · have hremainder := Int.tmod_nonneg m hnonneg
    exact hn.between (.inl ⟨hremainder, by omega⟩)
  · have hremainder := Int.tmod_nonneg m (Int.neg_nonneg_of_nonpos hnonpos)
    rw [Int.neg_tmod] at hremainder
    exact hn.between (.inr ⟨by omega, by omega⟩)

end IntegerType

namespace Operand

/-! ## The rational quotient -/

/-- The whole number next to a rational one toward zero. -/
def truncate (x : ℚ) : Int := if 0 ≤ x then ⌊x⌋ else ⌈x⌉

theorem tdiv_eq_truncate_of_pos (n : Int) {m : Nat} (h : 0 < m) :
    n.tdiv m = truncate ((n : ℚ) / m) := by
  have hpos : (0 : ℚ) < m := by exact_mod_cast h
  unfold truncate
  by_cases hn : 0 ≤ n
  · rw [if_pos (div_nonneg (by exact_mod_cast hn) hpos.le), Rat.floor_intCast_div_natCast,
      Int.tdiv_eq_ediv_of_nonneg hn]
  · have hneg : (n : ℚ) < 0 := by exact_mod_cast Int.not_le.mp hn
    rw [if_neg (not_le.mpr (div_neg_of_neg_of_pos hneg hpos)), Rat.ceil_intCast_div_natCast,
      ← Int.tdiv_eq_ediv_of_nonneg (by omega), Int.neg_tdiv, Int.neg_neg]

/-- **The quotient of the operators is the rational one truncated toward zero.** -/
theorem tdiv_eq_truncate (n : Int) {m : Int} (h : m ≠ 0) :
    n.tdiv m = truncate ((n : ℚ) / m) := by
  rcases Int.lt_or_gt_of_ne h with hneg | hpos
  · obtain ⟨k, rfl⟩ := Int.exists_eq_neg_ofNat hneg.le
    have hquotient := tdiv_eq_truncate_of_pos (-n) (m := k) (by omega)
    rw [Int.neg_tdiv] at hquotient
    rw [Int.tdiv_neg, hquotient]
    congr 1
    push_cast
    rw [neg_div, div_neg]
  · obtain ⟨k, rfl⟩ := Int.eq_ofNat_of_zero_le hpos.le
    have hquotient := tdiv_eq_truncate_of_pos n (m := k) (by omega)
    rw [hquotient]
    norm_cast

/-! ## Quotient and remainder -/

section

variable {a b : FixedInt} {right : Value}

/-- The quotient of integers, if the divisor is not zero. -/
theorem applyInfix_divide (hcast : right.castTo (.integer a.type) = ⟨.integer b, none⟩)
    (hne : b.value ≠ 0) :
    applyInfix (.arithmetic .divide) ⟨.integer a, none⟩ right =
      .ok (.integer a.type (a.value.tdiv b.value)) := by
  rw [applyInfix_arithmetic _ hcast, integerArithmetic, if_neg hne]
  rfl

/-- The remainder of integers, if the divisor is not zero. -/
theorem applyInfix_remainder (hcast : right.castTo (.integer a.type) = ⟨.integer b, none⟩)
    (hne : b.value ≠ 0) :
    applyInfix (.arithmetic .remainder) ⟨.integer a, none⟩ right =
      .ok (.integer a.type (a.value.tmod b.value)) := by
  rw [applyInfix_arithmetic _ hcast, integerArithmetic, if_neg hne]
  rfl

/-- **The product of quotient and divisor and the remainder give the dividend**, wrapped or not. -/
theorem quotient_mul_add_remainder (hcast : right.castTo (.integer a.type) = ⟨.integer b, none⟩) :
    (applyInfix (.arithmetic .multiply) (.integer a.type (a.value.tdiv b.value)) right >>=
        fun product => applyInfix (.arithmetic .add) product
          (.integer a.type (a.value.tmod b.value))) = .ok ⟨.integer a, none⟩ := by
  have hproduct :
      applyInfix (.arithmetic .multiply) (.integer a.type (a.value.tdiv b.value)) right =
        .ok (.integer a.type (a.type.wrap (a.value.tdiv b.value) * b.value)) :=
    applyInfix_arithmetic (a := .ofInt a.type (a.value.tdiv b.value)) .multiply hcast
  -- the remainder has the type of the product already, and is wrapped once more
  have hsum : applyInfix (.arithmetic .add)
      (.integer a.type (a.type.wrap (a.value.tdiv b.value) * b.value))
      (.integer a.type (a.value.tmod b.value)) =
        .ok (.integer a.type (a.type.wrap (a.type.wrap (a.value.tdiv b.value) * b.value) +
          a.type.wrap (a.type.wrap (a.value.tmod b.value)))) := rfl
  rw [hproduct]
  refine hsum.trans ?_
  have hdividend : Value.integer a.type a.value = ⟨.integer a, none⟩ := by
    rw [Value.integer, FixedInt.ofInt_value]
  rw [← hdividend]
  refine congrArg Except.ok (Value.integer_congr ?_)
  have hwrap := @IntegerType.ofInt_wrap a.type.width a.type (Nat.le_refl _)
  rw [BitVec.ofInt_add, hwrap, hwrap, hwrap, BitVec.ofInt_mul, hwrap, ← BitVec.ofInt_mul,
    ← BitVec.ofInt_add, Int.tdiv_mul_add_tmod]

end

/-- **Division and remainder fit together.**  The right operand is cast to the type of the left one
first.  Unless this gives zero, the quotient is the rational one truncated toward zero, but for the
smallest number of a signed type by -1, which gives that number again.  The remainder is what the
truncated quotient leaves.  The product of the quotient and the right operand and the remainder,
wrapped or not, give the left operand. -/
theorem division_remainder {a b : FixedInt} {right : Value}
    (hcast : right.castTo (.integer a.type) = ⟨.integer b, none⟩) (hne : b.value ≠ 0) :
    ∃ q r : FixedInt,
      applyInfix (.arithmetic .divide) ⟨.integer a, none⟩ right = .ok ⟨.integer q, none⟩ ∧
      applyInfix (.arithmetic .remainder) ⟨.integer a, none⟩ right = .ok ⟨.integer r, none⟩ ∧
      q.type = a.type ∧ r.type = a.type ∧
      q.value = (if a.type.isSigned = true ∧ a.value = a.type.minimum ∧ b.value = -1 then a.value
        else truncate ((a.value : ℚ) / b.value)) ∧
      r.value = a.value - b.value * truncate ((a.value : ℚ) / b.value) ∧
      |r.value| < |b.value| ∧ (r.value = 0 ∨ r.value.sign = a.value.sign) ∧
      (applyInfix (.arithmetic .multiply) ⟨.integer q, none⟩ right >>= fun product =>
        applyInfix (.arithmetic .add) product ⟨.integer r, none⟩) = .ok ⟨.integer a, none⟩ := by
  have htype : b.type = a.type := type_eq_of_castTo hcast
  have hb : a.type.Holds b.value := htype ▸ b.inRange
  have hremainder : a.type.wrap (a.value.tmod b.value) = a.value.tmod b.value :=
    IntegerType.wrap_eq_self (IntegerType.holds_tmod a.inRange b.value)
  refine ⟨.ofInt a.type (a.value.tdiv b.value), .ofInt a.type (a.value.tmod b.value),
    applyInfix_divide hcast hne, applyInfix_remainder hcast hne, rfl, rfl, ?_, ?_, ?_, ?_,
    quotient_mul_add_remainder hcast⟩
  · rw [FixedInt.value_ofInt, ← tdiv_eq_truncate a.value hne]
    split
    · rename_i hoverflow
      obtain ⟨-, hfirst, hone⟩ := hoverflow
      rw [hfirst, hone, Int.tdiv_neg, Int.tdiv_one, IntegerType.wrap_neg_minimum]
    · rename_i hfits
      exact IntegerType.wrap_eq_self (IntegerType.holds_tdiv a.inRange hb hne hfits)
  · rw [FixedInt.value_ofInt, hremainder, ← tdiv_eq_truncate a.value hne, Int.tmod_def]
  · rw [FixedInt.value_ofInt, hremainder, Int.abs_eq_natAbs, Int.abs_eq_natAbs, Int.natAbs_tmod]
    exact_mod_cast Nat.mod_lt _ (Int.natAbs_pos.mpr hne)
  · rw [FixedInt.value_ofInt, hremainder, Int.sign_tmod]
    by_cases hdvd : b.value ∣ a.value
    · exact .inl (Int.tmod_eq_zero_of_dvd hdvd)
    · exact .inr (if_neg hdvd)

/-- The `i8` -128 by the `u8` 255, which is -1 as an `i8`: the quotient is -128 again and the
remainder is zero. -/
theorem division_remainder_overflow :
    let a : FixedInt := .ofInt .i8 (-128)
    let b : FixedInt := .ofInt .i8 (-1)
    let right : Value := ⟨.integer (.ofInt .u8 255), none⟩
    right.castTo (.integer a.type) = ⟨.integer b, none⟩ ∧ b.value ≠ 0 ∧
      ∃ q r : FixedInt,
        applyInfix (.arithmetic .divide) ⟨.integer a, none⟩ right = .ok ⟨.integer q, none⟩ ∧
        applyInfix (.arithmetic .remainder) ⟨.integer a, none⟩ right = .ok ⟨.integer r, none⟩ ∧
        q.value = -128 ∧ r.value = 0 ∧
        (applyInfix (.arithmetic .multiply) ⟨.integer q, none⟩ right >>= fun product =>
          applyInfix (.arithmetic .add) product ⟨.integer r, none⟩) = .ok ⟨.integer a, none⟩ := by
  intro a b right
  have hcast : right.castTo (.integer a.type) = ⟨.integer b, none⟩ := by decide
  have hne : b.value ≠ 0 := by decide
  obtain ⟨q, r, hdivide, hremainder, -, -, hq, -, hlt, -, hback⟩ := division_remainder hcast hne
  refine ⟨hcast, hne, q, r, hdivide, hremainder, ?_, ?_, hback⟩
  · rw [hq, if_pos (by decide)]
    rfl
  · have hone : |b.value| = 1 := by decide
    rw [hone] at hlt
    exact Int.abs_lt_one_iff.mp hlt

end Operand

end TypedCalc
