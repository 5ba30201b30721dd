import Mathlib.Data.List.Basic
import TypedCalc.Binary64.Decimal
import TypedCalc.Proofs.Binary64.Rounding
import TypedCalc.Proofs.Text.Numeral

/-!
# Decimal numbers and the doubles they are read as

Reading a decimal number rounds its exact value once, so it depends on that value only and not on
how many of its zeros are written.

* `Decimal.toBinary64_eq`: the ways out for very large and very small numbers give what the
  quotient of whole numbers would give.
* `Decimal.toBinary64_mul_pow`: zeros at the end of the digits can be moved into the exponent.
* `Binary64.toBinary64_shortest`: the shortest digits of a double are read as that double.
-/

namespace TypedCalc

/-! ## Quotients written with larger numbers -/

theorem nearestNat_mul_mul_right {k : Nat} (hk : 0 < k) (num den : Nat) :
    nearestNat (num * k) (den * k) = nearestNat num den := by
  have hquotient : num * k / (den * k) = num / den := Nat.mul_div_mul_right num den hk
  have hlt : 2 * (num % den * k) < den * k ↔ 2 * (num % den) < den := by
    rw [← Nat.mul_assoc, Nat.mul_lt_mul_right hk]
  have heq : 2 * (num % den * k) = den * k ↔ 2 * (num % den) = den := by
    rw [← Nat.mul_assoc, Nat.mul_left_inj (Nat.ne_of_gt hk)]
  simp only [nearestNat, hquotient, Nat.mul_mod_mul_right, hlt, heq]

namespace Binary64

theorem nearestUnits_mul_mul_right {k : Nat} (hk : 0 < k) (num den : Nat) :
    nearestUnits (num * k) (den * k) = nearestUnits num den := by
  have hden (low : Nat) : den * k * 2 ^ low = den * 2 ^ low * k := Nat.mul_right_comm _ _ _
  simp only [nearestUnits, Nat.mul_div_mul_right num den hk, hden, nearestNat_mul_mul_right hk]

theorem ofUnits_mul_mul_right {k : Nat} (hk : 0 < k) (negative : Bool) (num den : Nat) :
    ofUnits negative (num * k) (den * k) = ofUnits negative num den := by
  simp only [ofUnits, nearestUnits_mul_mul_right hk]

/-- Equal quotients of whole numbers are the same double. -/
theorem ofRatio_eq_of_mul_eq {num den num' den' : Nat} (hden : 0 < den) (hden' : 0 < den')
    (h : num * den' = num' * den) (negative : Bool) :
    ofRatio negative num den = ofRatio negative num' den' := by
  unfold ofRatio
  rw [← ofUnits_mul_mul_right hden', ← ofUnits_mul_mul_right hden negative _ den',
    Nat.mul_right_comm, h, Nat.mul_right_comm num', Nat.mul_comm den]

/-! ## Counts that need no rounding -/

theorem nearestUnits_mul_right {units k : Nat} (hk : 0 < k) (h : 2 ^ slack units ∣ units) :
    nearestUnits (units * k) k = units := by
  obtain ⟨quotient, hquotient⟩ := h
  have hunits : units * k = quotient * (k * 2 ^ slack units) := by
    rw [Nat.mul_left_comm, Nat.mul_comm quotient, ← hquotient, Nat.mul_comm]
  simp only [nearestUnits, Nat.mul_div_cancel units hk]
  rw [hunits, nearestNat_mul_right _ _ (Nat.mul_pos hk (Nat.two_pow_pos _)), Nat.mul_comm,
    ← hquotient]

/-- A count that a double can hold is not rounded. -/
theorem ofUnits_mul_right {units k : Nat} (hk : 0 < k) (h : Representable units)
    (negative : Bool) : ofUnits negative (units * k) k = .finite negative units h := by
  simp only [ofUnits, nearestUnits_mul_right hk h.2, dif_pos h.1]

theorem ofRatio_zero (negative : Bool) (den : Nat) : ofRatio negative 0 den = zero negative := by
  have hnearest : nearestUnits 0 den = 0 := by
    have hslack : slack 0 = 0 := rfl
    have hzero : nearestNat 0 den = 0 := by
      have hdown : 2 * 0 < den ∨ 2 * 0 = den ∧ True :=
        (Nat.eq_zero_or_pos den).elim (fun h => .inr ⟨h.symm, trivial⟩) .inl
      simp only [nearestNat, Nat.zero_div, Nat.zero_mod]
      exact if_pos hdown
    simp only [nearestUnits, Nat.zero_div, hslack, Nat.pow_zero, Nat.mul_one, hzero]
  simp only [ofRatio, ofUnits, Nat.zero_mul, hnearest]
  exact dif_pos representable_zero.1

/-- Less than half a unit is rounded to zero. -/
theorem ofRatio_eq_zero {num den : Nat} (h : 2 * (num * unitsPerOne) < den) (negative : Bool) :
    ofRatio negative num den = zero negative := by
  have hnearest : nearestUnits (num * unitsPerOne) den = 0 := by
    have hquotient : num * unitsPerOne / den = 0 := Nat.div_eq_of_lt (by omega)
    have hmod : num * unitsPerOne % den = num * unitsPerOne := Nat.mod_eq_of_lt (by omega)
    have hslack : slack 0 = 0 := rfl
    have hzero : nearestNat (num * unitsPerOne) den = 0 := by
      simp only [nearestNat, hquotient, hmod]
      exact if_pos (.inl h)
    simp only [nearestUnits, hquotient, hslack, Nat.pow_zero, Nat.mul_one, hzero]
  simp only [ofRatio, ofUnits, hnearest]
  exact dif_pos representable_zero.1

/-- Whole numbers past the largest double are infinite. -/
theorem ofRatio_eq_infinity {num : Nat} (h : overflowUnits ≤ num * unitsPerOne)
    (negative : Bool) : ofRatio negative num 1 = .infinity negative := by
  have hnearest : ¬ nearestUnits (num * unitsPerOne) 1 < overflowUnits := by
    obtain ⟨k, -, htop⟩ := exists_halfStep
    rw [htop] at h ⊢
    exact Nat.not_lt.mpr (two_pow_le_nearestUnits h)
  simp only [ofRatio, ofUnits, dif_neg hnearest]

/-! ## Signs -/

theorem withSign_ofUnits (negative : Bool) (num den : Nat) :
    (ofUnits false num den).withSign negative = ofUnits negative num den := by
  unfold ofUnits
  dsimp only
  split <;> rfl

theorem isNegative_ofUnits (negative : Bool) (num den : Nat) :
    (ofUnits negative num den).isNegative = negative := by
  unfold ofUnits
  dsimp only
  split <;> rfl

end Binary64

/-! ## Reading decimal numbers -/

namespace Decimal

open Binary64

/-- A decimal number as a quotient of whole numbers. -/
def quotient (d : Decimal) : Nat × Nat := scale d.digits 1 (-d.exponent)

theorem quotient_of_nonneg {d : Decimal} (h : 0 ≤ d.exponent) :
    d.quotient = (d.digits * 10 ^ d.exponent.toNat, 1) := by
  unfold quotient scale
  rcases Int.lt_or_le 0 d.exponent with hpos | hzero
  · rw [if_neg (by omega), Int.neg_neg]
  · have hexponent : d.exponent = 0 := by omega
    simp [hexponent]

theorem quotient_of_nonpos {d : Decimal} (h : d.exponent ≤ 0) :
    d.quotient = (d.digits, 10 ^ (-d.exponent).toNat) := by
  unfold quotient scale
  rw [if_pos (by omega), Nat.one_mul]

theorem quotient_pos (d : Decimal) : 0 < d.quotient.2 := by
  rcases Int.le_total 0 d.exponent with h | h
  · rw [quotient_of_nonneg h]
    exact Nat.one_pos
  · rw [quotient_of_nonpos h]
    exact Nat.pow_pos (by decide)

/-- Numbers from `10 ^ 311` on are infinite. -/
theorem ofRatio_quotient_of_large {d : Decimal} (hdigits : d.digits ≠ 0) (h : 310 < d.exponent)
    (negative : Bool) : ofRatio negative d.quotient.1 d.quotient.2 = .infinity negative := by
  rw [quotient_of_nonneg (by omega)]
  refine ofRatio_eq_infinity ?_ negative
  obtain ⟨k, hk, hunits⟩ : ∃ k, k = 310 ∧ overflowUnits ≤ 10 ^ k * unitsPerOne :=
    ⟨310, rfl, by decide +kernel⟩
  calc overflowUnits ≤ 10 ^ k * unitsPerOne := hunits
    _ ≤ 10 ^ d.exponent.toNat * unitsPerOne :=
      Nat.mul_le_mul_right _ (Nat.pow_le_pow_right (by decide) (by omega))
    _ ≤ d.digits * 10 ^ d.exponent.toNat * unitsPerOne :=
      Nat.mul_le_mul_right _ (Nat.le_mul_of_pos_left _ (Nat.pos_of_ne_zero hdigits))

/-- Numbers below `10 ^ (-330)` are zero. -/
theorem ofRatio_quotient_of_small {d : Decimal} (h : d.exponent + (d.digits.log2 + 1) < -330)
    (negative : Bool) : ofRatio negative d.quotient.1 d.quotient.2 = .zero negative := by
  rw [quotient_of_nonpos (by omega)]
  refine ofRatio_eq_zero ?_ negative
  have hdigits : d.digits < 10 ^ (d.digits.log2 + 1) :=
    Nat.lt_of_lt_of_le Nat.lt_log2_self (Nat.pow_le_pow_left (by decide) _)
  obtain ⟨k, hk, hunits⟩ : ∃ k, k = 330 ∧ 2 * unitsPerOne ≤ 10 ^ k :=
    ⟨330, rfl, by decide +kernel⟩
  calc 2 * (d.digits * unitsPerOne) = d.digits * (2 * unitsPerOne) := Nat.mul_left_comm _ _ _
    _ < 10 ^ (d.digits.log2 + 1) * (2 * unitsPerOne) :=
      Nat.mul_lt_mul_of_pos_right hdigits (Nat.mul_pos Nat.two_pos unitsPerOne_pos)
    _ ≤ 10 ^ (d.digits.log2 + 1) * 10 ^ k := Nat.mul_le_mul_left _ hunits
    _ = 10 ^ (d.digits.log2 + 1 + k) := (Nat.pow_add _ _ _).symm
    _ ≤ 10 ^ (-d.exponent).toNat := Nat.pow_le_pow_right (by decide) (by omega)

/-- **A decimal number is read as its exact value, rounded once.** -/
theorem toBinary64_eq (negative : Bool) (d : Decimal) :
    d.toBinary64 negative = ofRatio negative d.quotient.1 d.quotient.2 := by
  unfold toBinary64
  split
  · rename_i hdigits
    have hzero : d.quotient.1 = 0 := by
      unfold quotient scale
      split <;> simp [hdigits]
    rw [hzero, ofRatio_zero]
  · rename_i hdigits
    split
    · rename_i hlarge
      exact (ofRatio_quotient_of_large hdigits hlarge negative).symm
    · split
      · rename_i hsmall
        exact (ofRatio_quotient_of_small hsmall negative).symm
      · rfl

/-- **Zeros at the end of the digits count as powers of ten.** -/
theorem toBinary64_mul_pow (negative : Bool) (digits zeros : Nat) (exponent : Int) :
    toBinary64 negative ⟨digits * 10 ^ zeros, exponent⟩ =
      toBinary64 negative ⟨digits, exponent + zeros⟩ := by
  rw [toBinary64_eq, toBinary64_eq]
  refine ofRatio_eq_of_mul_eq (quotient_pos _) (quotient_pos _) ?_ negative
  rcases Int.le_total 0 exponent with hexponent | hexponent
  · have hpower : (exponent + zeros).toNat = zeros + exponent.toNat := by omega
    rw [quotient_of_nonneg hexponent, quotient_of_nonneg (by dsimp only; omega)]
    dsimp only
    rw [hpower, Nat.pow_add, Nat.mul_one, Nat.mul_one, Nat.mul_assoc]
  · rw [quotient_of_nonpos hexponent]
    rcases Int.le_total 0 (exponent + zeros) with htotal | htotal
    · have hpower : zeros = (exponent + zeros).toNat + (-exponent).toNat := by omega
      rw [quotient_of_nonneg htotal]
      dsimp only
      rw [Nat.mul_one, Nat.mul_assoc, ← Nat.pow_add, ← hpower]
    · have hpower : (-exponent).toNat = zeros + (-(exponent + zeros)).toNat := by omega
      rw [quotient_of_nonpos htotal]
      dsimp only
      rw [hpower, Nat.pow_add, Nat.mul_assoc]

theorem withSign_toBinary64 (negative : Bool) (d : Decimal) :
    (d.toBinary64 false).withSign negative = d.toBinary64 negative := by
  rw [toBinary64_eq, toBinary64_eq]
  exact withSign_ofUnits negative _ _

theorem isNegative_toBinary64 (negative : Bool) (d : Decimal) :
    (d.toBinary64 negative).isNegative = negative := by
  rw [toBinary64_eq]
  exact isNegative_ofUnits negative _ _

end Decimal

/-! ## Shortest digits -/

namespace Binary64

/-- The exact decimal expansion of a count reads back. -/
theorem toBinary64_exactDecimal {units : Nat} (h : Representable units) (negative : Bool) :
    (exactDecimal units).toBinary64 negative = .finite negative units h := by
  obtain ⟨places, hplaces, hten⟩ : ∃ places : Nat,
      exactDecimal units = ⟨units * 5 ^ places, -places⟩ ∧
        5 ^ places * unitsPerOne = 10 ^ places := ⟨1074, rfl, by decide +kernel⟩
  rw [Decimal.toBinary64_eq, hplaces, Decimal.quotient_of_nonpos (by dsimp only; omega)]
  unfold ofRatio
  dsimp only
  rw [Nat.mul_assoc, hten, Int.neg_neg, Int.toNat_natCast]
  exact ofUnits_mul_right (Nat.pow_pos (by decide)) h negative

theorem toBinary64_of_readsBack {units : Nat} {d : Decimal} (h : readsBack units d = true)
    (hunits : Representable units) (negative : Bool) :
    d.toBinary64 negative = .finite negative units hunits := by
  unfold readsBack at h
  rw [← Decimal.withSign_toBinary64]
  split at h
  · rename_i found hfound heq
    rw [heq]
    obtain rfl := beq_iff_eq.mp h
    rfl
  · exact absurd h Bool.false_ne_true

/-- **The shortest digits of a double are read as that double.** -/
theorem toBinary64_shortest {units : Nat} (h : Representable units) (negative : Bool) :
    (shortest units).toBinary64 negative = .finite negative units h := by
  unfold shortest
  dsimp only
  split
  · rename_i d hd
    obtain ⟨place, -, hplace⟩ := List.exists_of_findSome?_eq_some hd
    exact toBinary64_of_readsBack (List.find?_some hplace) h negative
  · exact toBinary64_exactDecimal h negative

/-- A double that is not zero has digits. -/
theorem digits_shortest_pos {units : Nat} (h : Representable units) (hunits : units ≠ 0) :
    0 < (shortest units).digits := by
  refine Nat.pos_of_ne_zero fun hzero => hunits ?_
  have hread := toBinary64_shortest h false
  rw [Decimal.toBinary64, if_pos hzero, zero, finite.injEq] at hread
  exact hread.2.symm

end Binary64

end TypedCalc
