import Mathlib.Data.Int.ModEq
import TypedCalc.Proofs.Operand.Modular
import TypedCalc.Proofs.Operand.Refusal
import TypedCalc.Proofs.Value.IntegerCast
import TypedCalc.Proofs.Value.Saturation
import TypedCalc.Registry.Builtin

/-!
# Powers of integers

The power of an integer is computed by repeated squaring of its bit pattern, with exponents up to
the largest number of 64 bits.  It is the product that the multiplication operator would give if it
were applied that often, since wrapping after each step or once at the end makes no difference.

* `Builtin.powMod_eq`: repeated squaring gives the power.
* `Builtin.integerPower_eq`: so the power of an integer is the exact power, wrapped.
* `Operand.repeatedProduct_eq`: and so is the product of equal factors.
* `Builtin.power_wraps`: powers of integers, with any exponent that goes together with them.
-/

namespace TypedCalc

namespace Builtin

/-! ## Repeated squaring -/

/-- **Repeated squaring gives the power.** -/
theorem powMod_eq (modulus base exponent : Nat) :
    powMod modulus base exponent = base ^ exponent % modulus := by
  fun_induction powMod modulus base exponent with
  | case1 => rw [Nat.pow_zero]
  | case2 n root square hodd ih =>
    have hsplit : n.succ = (n + 1) / 2 + (n + 1) / 2 + 1 := by omega
    have hroot : root = base ^ ((n + 1) / 2) % modulus := ih
    calc square * base % modulus
        = root * root % modulus * base % modulus := rfl
      _ = base ^ ((n + 1) / 2) * base ^ ((n + 1) / 2) * base % modulus := by
        rw [hroot, ← Nat.mul_mod, Nat.mod_mul_mod]
      _ = base ^ n.succ % modulus := by rw [hsplit, Nat.pow_succ, Nat.pow_add]
  | case3 n root square heven ih =>
    have hsplit : n.succ = (n + 1) / 2 + (n + 1) / 2 := by omega
    have hroot : root = base ^ ((n + 1) / 2) % modulus := ih
    calc root * root % modulus
        = base ^ ((n + 1) / 2) * base ^ ((n + 1) / 2) % modulus := by rw [hroot, ← Nat.mul_mod]
      _ = base ^ n.succ % modulus := by rw [hsplit, Nat.pow_add]

/-- **The power of an integer is the exact power, wrapped.** -/
theorem integerPower_eq (base : FixedInt) (exponent : Nat) :
    integerPower base exponent = .integer base.type (base.value ^ exponent) := by
  have hpattern : (base.bits : Int) ≡ base.value [ZMOD base.type.modulus] := by
    rw [FixedInt.natCast_bits]
    exact Int.mod_modEq _ _
  have hpower : ((powMod base.type.modulus base.bits exponent : Nat) : Int) ≡
      base.value ^ exponent [ZMOD base.type.modulus] := by
    rw [powMod_eq]
    push_cast
    exact (Int.mod_modEq _ _).trans (hpattern.pow exponent)
  have hwrap := IntegerType.wrap_eq_wrap_iff.mpr hpower
  exact congrArg (fun number => Value.mk (.integer number) none) (FixedInt.ofInt_congr hwrap)

end Builtin

namespace Operand

/-! ## Products -/

/-- One multiplied by an integer again and again. -/
def repeatedProduct (a : FixedInt) : Nat → Except OperandFault Value
  | 0 => .ok (.integer a.type 1)
  | n + 1 => do
    let product ← repeatedProduct a n
    applyInfix (.arithmetic .multiply) product ⟨.integer a, none⟩

/-- **A product of numbers of one type is wrapped like the product of the numbers that were wrapped
into them.** -/
theorem applyInfix_multiply (type : IntegerType) (n m : Int) :
    applyInfix (.arithmetic .multiply) (.integer type n) (.integer type m) =
      .ok (.integer type (n * m)) := by
  have hresult : applyInfix (.arithmetic .multiply) (.integer type n) (.integer type m) =
      .ok (.integer type (type.wrap n * type.wrap (type.wrap m))) := rfl
  rw [hresult, IntegerType.wrap_wrap (Nat.le_refl _)]
  refine congrArg Except.ok (Value.integer_congr ?_)
  rw [BitVec.ofInt_mul, BitVec.ofInt_mul, IntegerType.ofInt_wrap (Nat.le_refl _),
    IntegerType.ofInt_wrap (Nat.le_refl _)]

theorem repeatedProduct_eq (a : FixedInt) (n : Nat) :
    repeatedProduct a n = .ok (.integer a.type (a.value ^ n)) := by
  induction n with
  | zero => simp [repeatedProduct]
  | succ n ih =>
    have hself : Value.mk (.integer a) none = .integer a.type a.value := by
      rw [Value.integer, FixedInt.ofInt_value]
    rw [repeatedProduct, ih, hself, pow_succ]
    exact applyInfix_multiply a.type (a.value ^ n) a.value

end Operand

/-! ## Powers -/

namespace Builtin

open Operand

section

variable {library : MathLibrary} {a e : FixedInt} {unit unit' : Option Measure} {exponent : Value}

/-- The exponent of an integer is brought to it, if their units go together. -/
theorem exists_coerced (h : ¬ UnitsClash ⟨.integer a, unit⟩ exponent) :
    ∃ (e : FixedInt) (unit' : Option Measure), e.type = a.type ∧
      coerce "pow" ⟨.integer a, unit⟩ exponent = .ok ⟨.integer e, unit'⟩ ∧
      Brought ⟨.integer a, unit⟩ exponent ⟨.integer e, unit'⟩ := by
  rcases coerce_decided "pow" ⟨.integer a, unit⟩ exponent with ⟨hclash, -⟩ |
    ⟨-, ⟨number, unit'⟩, hcoerce, hbrought⟩
  · exact absurd hclash h
  · have htype := hbrought.type_eq
    cases number with
    | float x => cases htype
    | integer e => exact ⟨e, unit', NumberType.integer.inj htype, hcoerce, hbrought⟩

theorem power_of_neg (hcoerce : coerce "pow" ⟨.integer a, unit⟩ exponent = .ok ⟨.integer e, unit'⟩)
    (h : e.value < 0) : RefusedAs .evaluation (power library ⟨.integer a, unit⟩ exponent) := by
  refine ⟨.negativeExponent ⟨.integer a, unit⟩ e.value, ?_, rfl⟩
  unfold power
  rw [hcoerce]
  exact if_pos h

theorem power_of_nonneg
    (hcoerce : coerce "pow" ⟨.integer a, unit⟩ exponent = .ok ⟨.integer e, unit'⟩)
    (h : 0 ≤ e.value) :
    power library ⟨.integer a, unit⟩ exponent =
      .ok ((Value.integer a.type (a.value ^ e.value.toNat)).attach? unit) := by
  unfold power
  rw [hcoerce, ← integerPower_eq]
  exact if_neg (Int.not_lt.mpr h)

end

/-- An integer with the unit of a result: a temperature is the nearest double. -/
theorem attach?_integer (n : FixedInt) (unit : Option Measure) :
    (unit.any Measure.isTemperature = false ∧
      (Value.mk (.integer n) none).attach? unit = ⟨.integer n, unit⟩) ∨
    (unit.any Measure.isTemperature = true ∧ ∃ x, Binary64.IsNearest n.value 1 x ∧
      (Value.mk (.integer n) none).attach? unit = .float x unit) := by
  match unit with
  | none => exact .inl ⟨rfl, rfl⟩
  | some (.size unit) => exact .inl ⟨rfl, rfl⟩
  | some (.temperature unit) =>
    exact .inr ⟨rfl, n.toBinary64, n.isNearest_toBinary64, rfl⟩

/-- **Powers of integers.**  An exponent whose unit goes together with that of the base is brought
into its unit and type.  The power is then the number of the type that is congruent to the exact
power modulo `2 ^ width`, in the unit of the base, and the nearest double if that is a temperature.
Without a unit it is one multiplied by the base as often, so the power by a sum is the product of
the powers.  A negative exponent is an error of the evaluation. -/
theorem power_wraps (library : MathLibrary) (a : FixedInt) :
    (∀ (unit : Option Measure) (exponent : Value), ¬ UnitsClash ⟨.integer a, unit⟩ exponent →
      ∃ (e : FixedInt) (unit' : Option Measure), e.type = a.type ∧
        coerce "pow" ⟨.integer a, unit⟩ exponent = .ok ⟨.integer e, unit'⟩ ∧
        Brought ⟨.integer a, unit⟩ exponent ⟨.integer e, unit'⟩ ∧
        (e.value < 0 → RefusedAs .evaluation (power library ⟨.integer a, unit⟩ exponent)) ∧
        (0 ≤ e.value → ∃ p : FixedInt, p.type = a.type ∧
          p.value ≡ a.value ^ e.value.toNat [ZMOD 2 ^ a.type.width] ∧
          (unit.any Measure.isTemperature = false →
            power library ⟨.integer a, unit⟩ exponent = .ok ⟨.integer p, unit⟩) ∧
          (unit.any Measure.isTemperature = true → ∃ x, Binary64.IsNearest p.value 1 x ∧
            power library ⟨.integer a, unit⟩ exponent = .ok (.float x unit)))) ∧
    (∀ (exponent : Value) (e : FixedInt) (unit' : Option Measure),
      exponent.castTo (.integer a.type) = ⟨.integer e, unit'⟩ → 0 ≤ e.value →
        power library ⟨.integer a, none⟩ exponent = repeatedProduct a e.value.toNat) ∧
    ∀ (first second both : Value) (m n sum : FixedInt) (u v w : Option Measure),
      first.castTo (.integer a.type) = ⟨.integer m, u⟩ →
      second.castTo (.integer a.type) = ⟨.integer n, v⟩ →
      both.castTo (.integer a.type) = ⟨.integer sum, w⟩ →
      0 ≤ m.value → 0 ≤ n.value → sum.value = m.value + n.value →
        (do
          let p ← power library ⟨.integer a, none⟩ first
          let q ← power library ⟨.integer a, none⟩ second
          applyInfix (.arithmetic .multiply) p q) =
          power library ⟨.integer a, none⟩ both := by
  have hpower {exponent : Value} {e : FixedInt} {unit' : Option Measure}
      (hcast : exponent.castTo (.integer a.type) = ⟨.integer e, unit'⟩) (he : 0 ≤ e.value) :
      power library ⟨.integer a, none⟩ exponent =
        .ok (.integer a.type (a.value ^ e.value.toNat)) := by
    have hcoerce : coerce "pow" ⟨.integer a, none⟩ exponent = .ok ⟨.integer e, unit'⟩ :=
      congrArg Except.ok hcast
    exact power_of_nonneg hcoerce he
  refine ⟨fun unit exponent hunits => ?_, fun exponent e unit' hcast he => ?_, ?_⟩
  · obtain ⟨e, unit', htype, hcoerce, hbrought⟩ := exists_coerced hunits
    refine ⟨e, unit', htype, hcoerce, hbrought, power_of_neg hcoerce, fun he => ?_⟩
    refine ⟨.ofInt a.type (a.value ^ e.value.toNat), rfl, FixedInt.value_ofInt_modEq _ _, ?_⟩
    rw [power_of_nonneg hcoerce he]
    rcases attach?_integer (.ofInt a.type (a.value ^ e.value.toNat)) unit with
      ⟨hsize, hresult⟩ | ⟨htemperature, x, hx, hresult⟩
    · refine ⟨fun _ => congrArg Except.ok hresult, fun h => ?_⟩
      exact absurd (hsize.symm.trans h) Bool.false_ne_true
    · refine ⟨fun h => ?_, fun _ => ⟨x, hx, congrArg Except.ok hresult⟩⟩
      exact absurd (h.symm.trans htemperature) Bool.false_ne_true
  · rw [hpower hcast he, repeatedProduct_eq]
  · intro first second both m n sum u v w hfirst hsecond hboth hm hn hsum
    rw [hpower hfirst hm, hpower hsecond hn, hpower hboth (by omega), hsum,
      Int.toNat_add hm hn, pow_add]
    exact applyInfix_multiply a.type (a.value ^ m.value.toNat) (a.value ^ n.value.toNat)

/-- The `i8` -3 to the power 5.5, which is the exponent 5: -243 is 13 modulo 256.  The exponents 2
and 3 give the same together, and the exponent 255 is -1 as an `i8`.  As a temperature 13 is a
double.  To a number of kilobytes 2048 bytes are the exponent 2. -/
theorem power_wraps_odd :
    let a : FixedInt := .ofInt .i8 (-3)
    let celsius : Option Measure := some (.temperature .celsius)
    let kilobyte : Option Measure := some (.size .kilobyte)
    let bytes : Value := .integer .u16 2048 (some (.size .byte))
    let five : Value := .float (.ofRatio false 11 2)
    let number (n : Int) : Value := .integer .u8 n
    let pow := power .platform
    (¬ UnitsClash ⟨.integer a, none⟩ five ∧ ¬ UnitsClash ⟨.integer a, celsius⟩ five ∧
      ¬ UnitsClash ⟨.integer a, kilobyte⟩ bytes ∧ ¬ UnitsClash ⟨.integer a, none⟩ (number 255)) ∧
    five.castTo (.integer a.type) = ⟨.integer (.ofInt .i8 5), none⟩ ∧
    (number 2).castTo (.integer a.type) = ⟨.integer (.ofInt .i8 2), none⟩ ∧
    (number 3).castTo (.integer a.type) = ⟨.integer (.ofInt .i8 3), none⟩ ∧
    (∃ p : FixedInt, p.type = .i8 ∧ p.value ≡ 13 [ZMOD 2 ^ 8] ∧
      pow ⟨.integer a, none⟩ five = .ok ⟨.integer p, none⟩) ∧
    (∃ (p : FixedInt) (x : Binary64), p.type = .i8 ∧ p.value ≡ 13 [ZMOD 2 ^ 8] ∧
      Binary64.IsNearest p.value 1 x ∧ pow ⟨.integer a, celsius⟩ five = .ok (.float x celsius)) ∧
    (∃ p : FixedInt, p.type = .i8 ∧ p.value ≡ 9 [ZMOD 2 ^ 8] ∧
      pow ⟨.integer a, kilobyte⟩ bytes = .ok ⟨.integer p, kilobyte⟩) ∧
    pow ⟨.integer a, none⟩ five = repeatedProduct a 5 ∧
    (do
      let p ← pow ⟨.integer a, none⟩ (number 2)
      let q ← pow ⟨.integer a, none⟩ (number 3)
      applyInfix (.arithmetic .multiply) p q) = pow ⟨.integer a, none⟩ five ∧
    RefusedAs .evaluation (pow ⟨.integer a, none⟩ (number 255)) := by
  intro a celsius kilobyte bytes five number pow
  have hunits : (∀ unit, ¬ UnitsClash ⟨.integer a, unit⟩ five) ∧
      ∀ n, ¬ UnitsClash ⟨.integer a, none⟩ (number n) := by
    constructor
    · rintro unit ⟨_, -, _, hright, -⟩
      cases hright
    · rintro n ⟨_, hleft, -⟩
      cases hleft
  have hsizes : ¬ UnitsClash ⟨.integer a, kilobyte⟩ bytes := by
    rintro ⟨_, hleft, _, hright, hne⟩
    cases hleft
    cases hright
    exact hne rfl
  have hbytes : coerce "pow" ⟨.integer a, kilobyte⟩ bytes =
      .ok ⟨.integer (.ofInt .i8 2), kilobyte⟩ := by
    with_unfolding_all rfl
  have hfive : five.castTo (.integer a.type) = ⟨.integer (.ofInt .i8 5), none⟩ := by
    decide +kernel
  have htwo : (number 2).castTo (.integer a.type) = ⟨.integer (.ofInt .i8 2), none⟩ := by decide
  have hthree : (number 3).castTo (.integer a.type) = ⟨.integer (.ofInt .i8 3), none⟩ := by decide
  have hnegative : (number 255).castTo (.integer a.type) = ⟨.integer (.ofInt .i8 (-1)), none⟩ := by
    decide
  obtain ⟨hpower, hproduct, hsum⟩ := power_wraps .platform a
  refine ⟨⟨hunits.1 none, hunits.1 celsius, hsizes, hunits.2 255⟩, hfive, htwo, hthree, ?_, ?_, ?_,
    ?_, ?_, ?_⟩
  · obtain ⟨e, unit', -, hcoerce, -, -, hresult⟩ := hpower none five (hunits.1 none)
    obtain ⟨rfl, -⟩ := hcoerce.symm.trans (congrArg Except.ok hfive)
    obtain ⟨p, htype, hp, hvalue, -⟩ := hresult (by decide)
    exact ⟨p, htype, hp.trans (by decide), hvalue rfl⟩
  · obtain ⟨e, unit', -, hcoerce, -, -, hresult⟩ := hpower celsius five (hunits.1 celsius)
    obtain ⟨rfl, -⟩ := hcoerce.symm.trans (congrArg Except.ok hfive)
    obtain ⟨p, htype, hp, -, hvalue⟩ := hresult (by decide)
    obtain ⟨x, hx, hfloat⟩ := hvalue rfl
    exact ⟨p, x, htype, hp.trans (by decide), hx, hfloat⟩
  · obtain ⟨e, unit', -, hcoerce, -, -, hresult⟩ := hpower kilobyte bytes hsizes
    cases hcoerce.symm.trans hbytes
    obtain ⟨p, htype, hp, hvalue, -⟩ := hresult (by decide)
    exact ⟨p, htype, hp.trans (by decide), hvalue rfl⟩
  · exact hproduct five _ _ hfive (by decide)
  · exact hsum _ _ _ _ _ _ _ _ _ htwo hthree hfive (by decide) (by decide) (by decide)
  · obtain ⟨e, unit', -, hcoerce, -, hrefused, -⟩ := hpower none (number 255) (hunits.2 255)
    obtain ⟨rfl, -⟩ := hcoerce.symm.trans (congrArg Except.ok hnegative)
    exact hrefused (by decide)

end Builtin

end TypedCalc
