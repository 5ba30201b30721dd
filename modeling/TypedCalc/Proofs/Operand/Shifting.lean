import Mathlib.Data.Int.ModEq
import Mathlib.Data.Rat.Floor
import TypedCalc.Proofs.Operand.Modular
import TypedCalc.Proofs.Operand.Refusal

/-!
# Shifts of integers

The operators shift by less than the width of the type, so that no count is too large to compute
with, and know the result for all other counts: a number shifted left by its width has no bit left,
and one shifted right by it has nothing but its sign left.  So a shift multiplies or divides by a
power of two, whatever the count, and two shifts in a row are one.

* `Operand.ofInt_shiftLeft` and `Operand.shiftRight_eq`: all counts follow one formula.
* `Operand.applyInfix_shiftLeft` and `Operand.applyInfix_shiftRight`: the results.
* `Operand.shifts_by_powers`: as products and quotients, two in a row, and by a negative count.
-/

namespace TypedCalc

namespace IntegerType

variable {type : IntegerType} {n : Int}

/-- **A left shift by the width or more leaves no bit.** -/
theorem ofInt_mul_two_pow_of_le {w k : Nat} (h : w ≤ k) (n : Int) :
    BitVec.ofInt w (n * 2 ^ k) = 0#w := by
  have hdvd : ((2 ^ w : Nat) : Int) ∣ n * 2 ^ k := by
    refine dvd_mul_of_dvd_right ?_ n
    exact_mod_cast pow_dvd_pow 2 h
  apply BitVec.eq_of_toNat_eq
  rw [BitVec.toNat_ofInt, Int.emod_eq_zero_of_dvd hdvd]
  simp

theorem Holds.lt_two_pow (h : type.Holds n) : -2 ^ type.width ≤ n ∧ n < 2 ^ type.width := by
  cases type <;> simp only [Holds, minimum, maximum, width] at h ⊢ <;> omega

/-- What is left of a number after as many steps to the right as it has bits is its sign. -/
theorem ediv_two_pow_of_le {k : Nat} (h : type.Holds n) (hle : type.width ≤ k) :
    n / 2 ^ k = if n < 0 then -1 else 0 := by
  have hpow : (2 : Int) ^ type.width ≤ 2 ^ k := pow_le_pow_right₀ (by decide) hle
  have hpos : (0 : Int) < 2 ^ k := by positivity
  obtain ⟨hlower, hupper⟩ := h.lt_two_pow
  by_cases hneg : n < 0
  · rw [if_pos hneg]
    have hquotient := Int.ediv_neg_of_neg_of_pos hneg hpos
    have hleast : -1 ≤ n / 2 ^ k := (Int.le_ediv_iff_mul_le hpos).mpr (by omega)
    omega
  · rw [if_neg hneg]
    exact Int.ediv_eq_zero_of_lt (by omega) (by omega)

/-- **A right shift by the width or more leaves the sign.** -/
theorem ediv_two_pow_min (h : type.Holds n) (k : Nat) :
    n / 2 ^ min k type.width = n / 2 ^ k := by
  rcases Nat.le_total k type.width with hle | hle
  · rw [Nat.min_eq_left hle]
  · rw [Nat.min_eq_right hle, ediv_two_pow_of_le h (Nat.le_refl _), ediv_two_pow_of_le h hle]

/-- A number shifted right lies between zero and the number. -/
theorem holds_ediv_two_pow (h : type.Holds n) (k : Nat) : type.Holds (n / 2 ^ k) := by
  have hpos : (0 : Int) < 2 ^ k := by positivity
  rcases Int.le_total 0 n with hnonneg | hnonpos
  · exact h.between (.inl ⟨Int.ediv_nonneg hnonneg hpos.le, Int.ediv_le_self _ hnonneg⟩)
  · have hle : n ≤ n / 2 ^ k :=
      (Int.le_ediv_iff_mul_le hpos).mpr (mul_le_of_one_le_right hnonpos (by omega))
    exact h.between (.inr ⟨hle, Int.ediv_nonpos_of_nonpos_of_neg hnonpos hpos⟩)

end IntegerType

/-- The bits of an integer without a sign are the number itself. -/
theorem FixedInt.natCast_bits_of_unsigned (n : FixedInt) (h : n.type.isSigned = false) :
    (n.bits : Int) = n.value ∧ 0 ≤ n.value := by
  obtain ⟨hlower, hupper⟩ := n.inRange
  have hbounds : n.type.minimum = 0 ∧ n.type.maximum < n.type.modulus := by
    generalize n.type = type at h
    cases type with
    | u8 | u16 | u32 | u64 => decide
    | i8 | i16 | i32 | i64 => cases h
  have hnonneg : 0 ≤ n.value := hbounds.1 ▸ hlower
  exact ⟨by rw [natCast_bits, Int.emod_eq_of_lt hnonneg (by omega)], hnonneg⟩

namespace Operand

/-- **A left shift multiplies by a power of two**, whatever the count. -/
theorem ofInt_shiftLeft (a : FixedInt) (count : Nat) :
    BitVec.ofInt a.type.width (shiftLeft a count) =
      BitVec.ofInt a.type.width (a.value * 2 ^ count) := by
  rw [shiftLeft]
  split
  · rename_i hle
    rw [IntegerType.ofInt_mul_two_pow_of_le hle]
    simp
  · have hbits : BitVec.ofInt a.type.width (a.bits : Int) = BitVec.ofInt a.type.width a.value := by
      rw [BitVec.ofInt_natCast]
      exact a.ofNat_bits (Nat.le_refl _)
    rw [Nat.shiftLeft_eq, Nat.cast_mul, BitVec.ofInt_mul, BitVec.ofInt_mul, hbits]
    rfl

/-- **A right shift divides by a power of two**, whatever the count. -/
theorem shiftRight_eq (a : FixedInt) (count : Nat) : shiftRight a count = a.value / 2 ^ count := by
  rw [shiftRight]
  split
  · rw [Int.shiftRight_eq_div_pow, ← IntegerType.ediv_two_pow_min a.inRange count]
    rfl
  · rename_i hsigned
    obtain ⟨hbits, hnonneg⟩ := a.natCast_bits_of_unsigned (Bool.eq_false_iff.mpr hsigned)
    split
    · rename_i hle
      rw [IntegerType.ediv_two_pow_of_le a.inRange hle, if_neg (Int.not_lt.mpr hnonneg)]
    · rw [Nat.shiftRight_eq_div_pow, Int.natCast_ediv, hbits]
      push_cast
      rfl

section

variable {a n : FixedInt} {right : Value}

/-- **A left shift is a product with a power of two**, wrapped. -/
theorem applyInfix_shiftLeft (hcast : right.castTo (.integer a.type) = ⟨.integer n, none⟩)
    (hn : 0 ≤ n.value) :
    applyInfix (.bitwise .shiftLeft) ⟨.integer a, none⟩ right =
      .ok (.integer a.type (a.value * 2 ^ n.value.toNat)) := by
  rw [applyInfix_bitwise _ hcast, bitwise, if_neg (Int.not_lt.mpr hn)]
  exact congrArg Except.ok (Value.integer_congr (ofInt_shiftLeft _ _))

/-- **A right shift is a quotient by a power of two**, which no type is too narrow for. -/
theorem applyInfix_shiftRight (hcast : right.castTo (.integer a.type) = ⟨.integer n, none⟩)
    (hn : 0 ≤ n.value) :
    applyInfix (.bitwise .shiftRight) ⟨.integer a, none⟩ right =
      .ok (.integer a.type (a.value / 2 ^ n.value.toNat)) := by
  rw [applyInfix_bitwise _ hcast, bitwise, if_neg (Int.not_lt.mpr hn), shiftRight_eq]
  rfl

theorem refusedAs_shift {op : BitwiseOperator} (hop : op = .shiftLeft ∨ op = .shiftRight)
    (hcast : right.castTo (.integer a.type) = ⟨.integer n, none⟩) (hn : n.value < 0) :
    RefusedAs .evaluation (applyInfix (.bitwise op) ⟨.integer a, none⟩ right) := by
  refine ⟨.negativeShift n.value, ?_, rfl⟩
  rw [applyInfix_bitwise _ hcast]
  rcases hop with rfl | rfl
  · rw [bitwise, if_pos hn]
    rfl
  · rw [bitwise, if_pos hn]
    rfl

end

section

variable {a m n sum : FixedInt} {first second both : Value}

/-- **Two left shifts in a row** shift by the sum of their counts. -/
theorem shiftLeft_shiftLeft (hfirst : first.castTo (.integer a.type) = ⟨.integer m, none⟩)
    (hsecond : second.castTo (.integer a.type) = ⟨.integer n, none⟩)
    (hboth : both.castTo (.integer a.type) = ⟨.integer sum, none⟩) (hm : 0 ≤ m.value)
    (hn : 0 ≤ n.value) (hsum : sum.value = m.value + n.value) :
    (applyInfix (.bitwise .shiftLeft) ⟨.integer a, none⟩ first >>= fun shifted =>
        applyInfix (.bitwise .shiftLeft) shifted second) =
      applyInfix (.bitwise .shiftLeft) ⟨.integer a, none⟩ both := by
  have hagain : applyInfix (.bitwise .shiftLeft) (.integer a.type (a.value * 2 ^ m.value.toNat))
      second = .ok (.integer a.type
        (a.type.wrap (a.value * 2 ^ m.value.toNat) * 2 ^ n.value.toNat)) :=
    applyInfix_shiftLeft (a := .ofInt a.type (a.value * 2 ^ m.value.toNat)) hsecond hn
  rw [applyInfix_shiftLeft hfirst hm, applyInfix_shiftLeft hboth (by omega), hsum,
    Int.toNat_add hm hn, pow_add, ← mul_assoc]
  refine hagain.trans (congrArg Except.ok (Value.integer_congr ?_))
  rw [BitVec.ofInt_mul, IntegerType.ofInt_wrap (Nat.le_refl _), ← BitVec.ofInt_mul]

/-- **Two right shifts in a row** shift by the sum of their counts. -/
theorem shiftRight_shiftRight (hfirst : first.castTo (.integer a.type) = ⟨.integer m, none⟩)
    (hsecond : second.castTo (.integer a.type) = ⟨.integer n, none⟩)
    (hboth : both.castTo (.integer a.type) = ⟨.integer sum, none⟩) (hm : 0 ≤ m.value)
    (hn : 0 ≤ n.value) (hsum : sum.value = m.value + n.value) :
    (applyInfix (.bitwise .shiftRight) ⟨.integer a, none⟩ first >>= fun shifted =>
        applyInfix (.bitwise .shiftRight) shifted second) =
      applyInfix (.bitwise .shiftRight) ⟨.integer a, none⟩ both := by
  have hagain : applyInfix (.bitwise .shiftRight) (.integer a.type (a.value / 2 ^ m.value.toNat))
      second = .ok (.integer a.type
        (a.type.wrap (a.value / 2 ^ m.value.toNat) / 2 ^ n.value.toNat)) :=
    applyInfix_shiftRight (a := .ofInt a.type (a.value / 2 ^ m.value.toNat)) hsecond hn
  rw [applyInfix_shiftRight hfirst hm, applyInfix_shiftRight hboth (by omega), hsum,
    Int.toNat_add hm hn, pow_add]
  refine hagain.trans ?_
  rw [IntegerType.wrap_eq_self (IntegerType.holds_ediv_two_pow a.inRange _),
    Int.ediv_ediv_of_nonneg (by positivity)]

end

/-- **Shifts are products with powers of two and quotients by them**, whatever the count, which is
the right operand cast to the type of the left one.  A left shift is a product modulo the number of
bit patterns and a right shift the quotient rounded down, so two shifts in a row shift by the sum of
their counts.  A negative count is an error of the evaluation. -/
theorem shifts_by_powers (a : FixedInt) :
    (∀ (right : Value) (n : FixedInt),
      right.castTo (.integer a.type) = ⟨.integer n, none⟩ → 0 ≤ n.value →
        ∃ l r : FixedInt,
          applyInfix (.bitwise .shiftLeft) ⟨.integer a, none⟩ right = .ok ⟨.integer l, none⟩ ∧
          applyInfix (.bitwise .shiftRight) ⟨.integer a, none⟩ right = .ok ⟨.integer r, none⟩ ∧
          l.type = a.type ∧ r.type = a.type ∧
          l.value ≡ a.value * 2 ^ n.value.toNat [ZMOD 2 ^ a.type.width] ∧
          r.value = ⌊(a.value : ℚ) / 2 ^ n.value.toNat⌋) ∧
    (∀ (first second both : Value) (m n sum : FixedInt),
      first.castTo (.integer a.type) = ⟨.integer m, none⟩ →
      second.castTo (.integer a.type) = ⟨.integer n, none⟩ →
      both.castTo (.integer a.type) = ⟨.integer sum, none⟩ →
      0 ≤ m.value → 0 ≤ n.value → sum.value = m.value + n.value →
        ∀ op : BitwiseOperator, op = .shiftLeft ∨ op = .shiftRight →
          (applyInfix (.bitwise op) ⟨.integer a, none⟩ first >>= fun shifted =>
              applyInfix (.bitwise op) shifted second) =
            applyInfix (.bitwise op) ⟨.integer a, none⟩ both) ∧
    ∀ (right : Value) (n : FixedInt),
      right.castTo (.integer a.type) = ⟨.integer n, none⟩ → n.value < 0 →
        ∀ op : BitwiseOperator, op = .shiftLeft ∨ op = .shiftRight →
          RefusedAs .evaluation (applyInfix (.bitwise op) ⟨.integer a, none⟩ right) := by
  refine ⟨fun right n hcast hn => ?_, ?_,
    fun right n hcast hn op hop => refusedAs_shift hop hcast hn⟩
  · refine ⟨_, _, applyInfix_shiftLeft hcast hn, applyInfix_shiftRight hcast hn, rfl, rfl, ?_, ?_⟩
    · have hmodulus : (a.type.modulus : Int) = 2 ^ a.type.width := by
        exact_mod_cast (rfl : a.type.modulus = 2 ^ a.type.width)
      rw [Int.ModEq, ← hmodulus, FixedInt.value_ofInt, IntegerType.emod_wrap]
    · rw [FixedInt.value_ofInt,
        IntegerType.wrap_eq_self (IntegerType.holds_ediv_two_pow a.inRange _)]
      have hfloor := Rat.floor_intCast_div_natCast a.value (2 ^ n.value.toNat)
      push_cast at hfloor
      exact hfloor.symm
  · rintro first second both m n sum hfirst hsecond hboth hm hn hsum op (rfl | rfl)
    · exact shiftLeft_shiftLeft hfirst hsecond hboth hm hn hsum
    · exact shiftRight_shiftRight hfirst hsecond hboth hm hn hsum

/-- The `i8` -77 shifted by 9, which is more than its width, at once or by 3 and then by 6: no bit
is left on the left and the sign on the right.  The `u16` 65535 is -1 as an `i8`, and no count. -/
theorem shifts_by_powers_beyond_width :
    let a : FixedInt := .ofInt .i8 (-77)
    let count (n : Int) : Value := ⟨.integer (.ofInt .u16 n), none⟩
    (∀ n ∈ [3, 6, 9, 65535],
        (count n).castTo (.integer a.type) = ⟨.integer (.ofInt .i8 n), none⟩) ∧
      (∀ n ∈ [3, 6, 9], 0 ≤ (FixedInt.ofInt .i8 n).value) ∧ (FixedInt.ofInt .i8 65535).value < 0 ∧
      (FixedInt.ofInt .i8 9).value = (FixedInt.ofInt .i8 3).value + (FixedInt.ofInt .i8 6).value ∧
      (∃ l r : FixedInt,
        applyInfix (.bitwise .shiftLeft) ⟨.integer a, none⟩ (count 9) = .ok ⟨.integer l, none⟩ ∧
        applyInfix (.bitwise .shiftRight) ⟨.integer a, none⟩ (count 9) = .ok ⟨.integer r, none⟩ ∧
        l.value ≡ 0 [ZMOD 2 ^ 8] ∧ r.value = -1) ∧
      (applyInfix (.bitwise .shiftLeft) ⟨.integer a, none⟩ (count 3) >>= fun shifted =>
          applyInfix (.bitwise .shiftLeft) shifted (count 6)) =
        applyInfix (.bitwise .shiftLeft) ⟨.integer a, none⟩ (count 9) ∧
      RefusedAs .evaluation
        (applyInfix (.bitwise .shiftRight) ⟨.integer a, none⟩ (count 65535)) := by
  intro a count
  have hcast (n : Int) (hn : n ∈ [3, 6, 9, 65535]) :
      (count n).castTo (.integer a.type) = ⟨.integer (.ofInt .i8 n), none⟩ := by
    revert n
    decide
  have hcounts : ∀ n ∈ [3, 6, 9], 0 ≤ (FixedInt.ofInt .i8 n).value := by decide
  have hnegative : (FixedInt.ofInt .i8 65535).value < 0 := by decide
  have hsum : (FixedInt.ofInt .i8 9).value =
      (FixedInt.ofInt .i8 3).value + (FixedInt.ofInt .i8 6).value := by decide
  obtain ⟨hshift, htwice, hrefused⟩ := shifts_by_powers a
  obtain ⟨l, r, hleft, hright, -, -, hl, hr⟩ :=
    hshift _ _ (hcast 9 (by decide)) (hcounts 9 (by decide))
  refine ⟨hcast, hcounts, hnegative, hsum, ⟨l, r, hleft, hright, hl.trans (by decide), ?_⟩, ?_, ?_⟩
  · rw [hr, Int.floor_eq_iff]
    have hvalue : a.value = -77 := by decide
    have hcount : (FixedInt.ofInt .i8 9).value.toNat = 9 := by decide
    rw [hvalue, hcount]
    norm_num
  · exact htwice _ _ _ _ _ _ (hcast 3 (by decide)) (hcast 6 (by decide)) (hcast 9 (by decide))
      (hcounts 3 (by decide)) (hcounts 6 (by decide)) hsum .shiftLeft (.inl rfl)
  · exact hrefused _ _ (hcast 65535 (by decide)) hnegative .shiftRight (.inr rfl)

end Operand

end TypedCalc
