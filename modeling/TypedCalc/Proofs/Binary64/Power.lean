import Mathlib.Algebra.Order.Field.Power
import Mathlib.Analysis.SpecialFunctions.Pow.Real
import TypedCalc.Proofs.Binary64.Exact
import TypedCalc.Proofs.Binary64.Nearest

/-!
# Powers of doubles

A library refuses some powers of doubles, and `Binary64.pow` puts a double in their place.  Here the
exact power is a real number, IEEE 754 says which double stands for it where it is too large or
missing, and the library is known by what it refuses.

* `Binary64.IsPower`: the exact power of two finite doubles.
* `Binary64.IsPower.neg_iff`: it is negative for a negative base and an odd exponent only.
* `Binary64.IsIeeePower`: the results of IEEE 754 where there is no power that fits.
* `Binary64.pow_spec`: which powers are those of IEEE 754.  The one exception is the negative zero
  with a negative odd exponent, which gives plus infinity where IEEE 754 has minus infinity.
-/

namespace TypedCalc.Binary64

/-! ## Whole and odd exponents -/

/-- Whether a double is an odd integer. -/
def IsOddInteger (x : Binary64) : Prop := ∃ k : ℤ, Odd k ∧ x.value? = some (k : ℚ)

/-- A count of units is a whole number of ones if it is divisible. -/
theorem value?_eq_intCast_iff {negative : Bool} {units : Nat} {h : Representable units} {k : ℤ} :
    (Binary64.finite negative units h).value? = some (k : ℚ) ↔
      signedUnits negative units = k * unitsPerOne := by
  have hone : (unitsPerOne : ℚ) ≠ 0 := by exact_mod_cast Nat.ne_of_gt unitsPerOne_pos
  rw [value?, Option.some_inj, div_eq_iff hone]
  exact_mod_cast Iff.rfl

theorem isOddWhole_iff {x : Binary64} : x.isOddWhole = true ↔ x.IsOddInteger := by
  cases x with
  | nan => simp [isOddWhole, IsOddInteger, value?]
  | infinity negative => simp [isOddWhole, IsOddInteger, value?]
  | finite negative units h =>
    simp only [isOddWhole, IsOddInteger, value?_eq_intCast_iff, Bool.and_eq_true, beq_iff_eq,
      wholePart]
    constructor
    · rintro ⟨hwhole, hodd⟩
      refine ⟨signedUnits negative (units / unitsPerOne), ?_, ?_⟩
      · rw [← Int.natAbs_odd, natAbs_signedUnits, Nat.odd_iff]
        exact hodd
      · rw [signedUnits_mul, Nat.div_mul_cancel (Nat.dvd_of_mod_eq_zero hwhole)]
    · rintro ⟨k, hodd, hk⟩
      have hunits : units = k.natAbs * unitsPerOne := by
        rw [← natAbs_signedUnits negative units, hk, Int.natAbs_mul, Int.natAbs_natCast]
      rw [hunits, Nat.mul_mod_left, Nat.mul_div_cancel _ unitsPerOne_pos, ← Nat.odd_iff,
        Int.natAbs_odd]
      exact ⟨rfl, hodd⟩

/-! ## Signs -/

theorem lt_zero_iff {x : Binary64} {q : ℚ} (h : x.value? = some q) :
    x.lt (zero false) = true ↔ q < 0 := by
  cases x with
  | nan => cases h
  | infinity negative => cases h
  | finite negative units hunits =>
    have hone : (0 : ℚ) < unitsPerOne := by exact_mod_cast unitsPerOne_pos
    rw [value?, Option.some_inj] at h
    rw [← h, div_lt_iff₀ hone, zero_mul, Int.cast_lt_zero]
    simp only [lt, zero, rank?_finite]
    simp [signedUnits]

theorem isZero_iff {x : Binary64} : x.isZero = true ↔ ∃ negative, x = zero negative := by
  cases x with
  | nan => simp [isZero, zero]
  | infinity negative => simp [isZero, zero]
  | finite negative units h => simp [isZero, zero]

theorem value?_zero (negative : Bool) : (zero negative).value? = some 0 := by
  have hcount : signedUnits negative 0 = 0 * unitsPerOne := by
    rw [Int.zero_mul]
    cases negative <;> rfl
  exact_mod_cast value?_eq_intCast_iff.mpr hcount

/-! ## Exact powers -/

/-- A real number is the power of two finite doubles.  A zero has no negative powers and a negative
number has whole ones only. -/
def IsPower (base exponent : Binary64) (p : ℝ) : Prop :=
  ∃ b e : ℚ, base.value? = some b ∧ exponent.value? = some e ∧ (b = 0 → 0 ≤ e) ∧
    (b < 0 → ∃ k : ℤ, e = k) ∧ p = (b : ℝ) ^ (e : ℝ)

/-- The power is too large for a double: the nearest whole step past the largest one is nearer. -/
def Overflows (base exponent : Binary64) : Prop :=
  ∃ p, IsPower base exponent p ∧ (integerBound : ℝ) ≤ |p|

/-- A zero has a negative exponent. -/
def DividesByZero (base exponent : Binary64) : Prop :=
  base.isZero = true ∧ exponent.lt (zero false) = true

/-- A negative number has an exponent with a fraction. -/
def HasNoPower (base exponent : Binary64) : Prop :=
  ∃ b e : ℚ, base.value? = some b ∧ exponent.value? = some e ∧ b < 0 ∧ ¬ ∃ k : ℤ, e = k

section

variable {base exponent : Binary64} {p : ℝ}

/-- **A power is negative for a negative base and an odd exponent only.** -/
theorem IsPower.neg_iff (h : IsPower base exponent p) :
    p < 0 ↔ base.lt (zero false) = true ∧ exponent.IsOddInteger := by
  obtain ⟨b, e, hb, he, -, hwhole, rfl⟩ := h
  rw [lt_zero_iff hb]
  by_cases hneg : b < 0
  · obtain ⟨k, rfl⟩ := hwhole hneg
    have hodd : exponent.IsOddInteger ↔ Odd k := by
      simp [IsOddInteger, he]
    rw [hodd, Rat.cast_intCast, Real.rpow_intCast]
    rcases Int.even_or_odd k with heven | hk
    · have hnonneg : (0 : ℝ) ≤ (b : ℝ) ^ k := heven.zpow_nonneg _
      simp [not_lt.mpr hnonneg, Int.not_odd_iff_even.mpr heven]
    · simp [hk.zpow_neg_iff, hk]
  · have hnonneg : (0 : ℝ) ≤ b := by exact_mod_cast not_lt.mp hneg
    simp [hneg, not_lt.mpr (Real.rpow_nonneg hnonneg e)]

/-- A whole power of an integer that is too large. -/
theorem overflows_of_integers {m : ℤ} {n : ℕ} (hbase : base.value? = some (m : ℚ))
    (hexponent : exponent.value? = some (n : ℚ)) (h : integerBound ≤ m.natAbs ^ n) :
    Overflows base exponent := by
  refine ⟨(m : ℝ) ^ n, ⟨m, n, hbase, hexponent, fun _ => n.cast_nonneg, fun _ => ⟨n, by simp⟩,
    by simp⟩, ?_⟩
  rw [abs_pow, ← Int.cast_abs, Int.abs_eq_natAbs, Int.cast_natCast]
  exact_mod_cast h

/-- The three cases exclude each other. -/
theorem DividesByZero.not_overflows (h : DividesByZero base exponent) :
    ¬ Overflows base exponent := by
  rintro ⟨p, ⟨b, e, hb, he, hzero, -, -⟩, -⟩
  obtain ⟨negative, rfl⟩ := isZero_iff.mp h.1
  obtain rfl : 0 = b := Option.some.inj ((value?_zero negative).symm.trans hb)
  exact absurd (hzero rfl) (not_le.mpr ((lt_zero_iff he).mp h.2))

theorem HasNoPower.not_overflows (h : HasNoPower base exponent) : ¬ Overflows base exponent := by
  obtain ⟨b, e, hb, he, hneg, hfraction⟩ := h
  rintro ⟨p, ⟨b', e', hb', he', -, hwhole, -⟩, -⟩
  obtain rfl : b = b' := Option.some.inj (hb.symm.trans hb')
  obtain rfl : e = e' := Option.some.inj (he.symm.trans he')
  exact hfraction (hwhole hneg)

theorem HasNoPower.not_dividesByZero (h : HasNoPower base exponent) :
    ¬ DividesByZero base exponent := by
  obtain ⟨b, e, hb, -, hneg, -⟩ := h
  rintro ⟨hzero, -⟩
  obtain ⟨negative, rfl⟩ := isZero_iff.mp hzero
  obtain rfl : 0 = b := Option.some.inj ((value?_zero negative).symm.trans hb)
  exact absurd hneg (lt_irrefl 0)

end

/-! ## The results of IEEE 754 -/

/-- The results of IEEE 754 where no power fits: infinities with the sign of the power where it is
too large, infinities for the negative powers of the zeros, which are negative for odd powers of the
negative zero, and not-a-number for the powers that are missing. -/
structure IsIeeePower (base exponent result : Binary64) : Prop where
  /-- The sign of a power that is too large is kept. -/
  overflow : ∀ p, IsPower base exponent p → (integerBound : ℝ) ≤ |p| →
    ∃ negative, result = .infinity negative ∧ (negative = true ↔ p < 0)
  /-- The sign of a zero is kept by odd powers. -/
  dividesByZero : ∀ negative, base = zero negative → exponent.lt (zero false) = true →
    ∃ negative', result = .infinity negative' ∧
      (negative' = true ↔ negative = true ∧ exponent.IsOddInteger)
  /-- A negative number has no powers with a fraction. -/
  invalid : HasNoPower base exponent → result = .nan

section

variable {base exponent : Binary64} {negative : Bool}

theorem isIeeePower_of_overflows (h : Overflows base exponent) :
    IsIeeePower base exponent (.infinity negative) ↔
      (negative = true ↔ base.lt (zero false) = true ∧ exponent.IsOddInteger) := by
  constructor
  · intro hieee
    obtain ⟨p, hp, hlarge⟩ := h
    obtain ⟨_, hresult, hsign⟩ := hieee.overflow p hp hlarge
    cases hresult
    rw [hsign, hp.neg_iff]
  · intro hsign
    refine ⟨fun p hp _ => ⟨negative, rfl, by rw [hsign, hp.neg_iff]⟩, ?_, ?_⟩
    · intro zeroSign hzero hexponent
      have hdivides : DividesByZero base exponent := ⟨isZero_iff.mpr ⟨zeroSign, hzero⟩, hexponent⟩
      exact absurd h hdivides.not_overflows
    · intro hpower
      exact absurd h hpower.not_overflows

theorem isIeeePower_of_dividesByZero {zeroSign : Bool}
    (h : DividesByZero (zero zeroSign) exponent) :
    IsIeeePower (zero zeroSign) exponent (.infinity negative) ↔
      (negative = true ↔ zeroSign = true ∧ exponent.IsOddInteger) := by
  constructor
  · intro hieee
    obtain ⟨_, hresult, hsign⟩ := hieee.dividesByZero zeroSign rfl h.2
    cases hresult
    exact hsign
  · intro hsign
    refine ⟨fun p hp hlarge => absurd ⟨p, hp, hlarge⟩ h.not_overflows, ?_, fun hpower => ?_⟩
    · intro _ hzero _
      cases hzero
      exact ⟨negative, rfl, hsign⟩
    · exact absurd h hpower.not_dividesByZero

theorem isIeeePower_of_hasNoPower (h : HasNoPower base exponent) :
    IsIeeePower base exponent .nan := by
  refine ⟨fun p hp hlarge => absurd ⟨p, hp, hlarge⟩ h.not_overflows, ?_, fun _ => rfl⟩
  intro zeroSign hzero hexponent
  exact absurd ⟨isZero_iff.mpr ⟨zeroSign, hzero⟩, hexponent⟩ h.not_dividesByZero

end

/-- What a library gives or refuses as the power of two doubles.  It refuses a power as too large
exactly where it is, finds none only where a zero or a negative number has none, and otherwise gives
a result of IEEE 754. -/
structure IsDocumentedPower (function : Binary64 → Binary64 → Except MathFault Binary64)
    (base exponent : Binary64) : Prop where
  /-- The powers that are too large. -/
  overflow : (∃ cause, function base exponent = .error (.overflow cause)) ↔
    Overflows base exponent
  /-- The powers that are missing. -/
  domain : function base exponent = .error .domain →
    DividesByZero base exponent ∨ HasNoPower base exponent
  /-- The other powers. -/
  result : ∀ power, function base exponent = .ok power → IsIeeePower base exponent power

/-! ## Powers in the place of refusals -/

section

variable {function : Binary64 → Binary64 → Except MathFault Binary64} {base exponent : Binary64}

theorem IsDocumentedPower.of_overflow {cause : Overflow}
    (h : function base exponent = .error (.overflow cause)) (hlarge : Overflows base exponent) :
    IsDocumentedPower function base exponent := by
  constructor
  · exact ⟨fun _ => hlarge, fun _ => ⟨cause, h⟩⟩
  · simp [h]
  · simp [h]

theorem IsDocumentedPower.of_domain (h : function base exponent = .error .domain)
    (hmissing : DividesByZero base exponent ∨ HasNoPower base exponent) :
    IsDocumentedPower function base exponent := by
  constructor
  · have hfits : ¬ Overflows base exponent :=
      hmissing.elim DividesByZero.not_overflows HasNoPower.not_overflows
    simp [h, hfits]
  · exact fun _ => hmissing
  · simp [h]

theorem pow_of_ok {power : Binary64} (h : function base exponent = .ok power) :
    pow function base exponent = power := by
  rw [pow, h]

theorem pow_of_overflow {cause : Overflow} (h : function base exponent = .error (.overflow cause)) :
    pow function base exponent = .infinity (base.lt (zero false) && exponent.isOddWhole) := by
  rw [pow, h]

theorem pow_of_dividesByZero (h : function base exponent = .error .domain)
    (hzero : DividesByZero base exponent) : pow function base exponent = .infinity false := by
  rw [pow, h]
  simp [hzero.1, hzero.2]

theorem pow_of_hasNoPower (h : function base exponent = .error .domain)
    (hpower : HasNoPower base exponent) : pow function base exponent = .nan := by
  have hzero : ¬ (base.isZero = true ∧ exponent.lt (zero false) = true) :=
    hpower.not_dividesByZero
  rw [pow, h]
  simp [hzero]

theorem exists_pow_of_overflows (h : IsDocumentedPower function base exponent)
    (hlarge : Overflows base exponent) :
    (∃ cause, function base exponent = .error (.overflow cause)) ∧
    ∃ negative, pow function base exponent = .infinity negative ∧
      (negative = true ↔ base.lt (zero false) = true ∧ exponent.IsOddInteger) := by
  obtain ⟨cause, hrefused⟩ := h.overflow.mpr hlarge
  refine ⟨⟨cause, hrefused⟩, _, pow_of_overflow hrefused, ?_⟩
  rw [Bool.and_eq_true, isOddWhole_iff]

/-- Without an overflow the library gives the power or has none. -/
theorem ok_or_domain (h : IsDocumentedPower function base exponent)
    (hfits : ¬ Overflows base exponent) :
    function base exponent = .ok (pow function base exponent) ∨
      function base exponent = .error .domain := by
  cases hresult : function base exponent with
  | ok power => exact .inl (congrArg Except.ok (pow_of_ok hresult).symm)
  | error fault =>
    cases fault with
    | domain => exact .inr rfl
    | overflow cause => exact absurd (h.overflow.mp ⟨cause, hresult⟩) hfits

/-- **The powers that are not those of IEEE 754** are the odd negative ones of the negative zero
that the library refuses. -/
theorem isIeeePower_pow_iff (h : IsDocumentedPower function base exponent) :
    IsIeeePower base exponent (pow function base exponent) ↔
      ¬ (function base exponent = .error .domain ∧ base = zero true ∧
        exponent.lt (zero false) = true ∧ exponent.IsOddInteger) := by
  by_cases hlarge : Overflows base exponent
  · obtain ⟨⟨cause, hrefused⟩, negative, hpow, hsign⟩ := exists_pow_of_overflows h hlarge
    rw [hpow, isIeeePower_of_overflows hlarge, hrefused]
    simp [hsign]
  · rcases ok_or_domain h hlarge with hok | hrefused
    · simp [h.result _ hok, hok]
    · rcases h.domain hrefused with hzero | hnone
      · obtain ⟨zeroSign, rfl⟩ := isZero_iff.mp hzero.1
        have hsign : zero zeroSign = zero true ↔ zeroSign = true := by simp [zero]
        rw [pow_of_dividesByZero hrefused hzero, isIeeePower_of_dividesByZero hzero, hrefused]
        simp [hsign, hzero.2]
      · have hbase : ¬ (base = zero true ∧ exponent.lt (zero false) = true) := by
          rintro ⟨hbase, hexponent⟩
          exact hnone.not_dividesByZero ⟨isZero_iff.mpr ⟨true, hbase⟩, hexponent⟩
        rw [pow_of_hasNoPower hrefused hnone]
        exact iff_of_true (isIeeePower_of_hasNoPower hnone)
          fun hexception => hbase ⟨hexception.2.1, hexception.2.2.1⟩

/-- **Powers of doubles, with a library that keeps to its documentation.**  Every power is a double:
an infinity with the sign of the power where that is too large, not-a-number for a negative base
with a fraction in the exponent, and otherwise what the library gives, or plus infinity where it
refuses a negative power of a zero.  That is IEEE 754 except for the odd negative powers of the
negative zero that the library refuses. -/
theorem pow_spec (h : IsDocumentedPower function base exponent) :
    (Overflows base exponent → ∃ negative, pow function base exponent = .infinity negative ∧
      (negative = true ↔ base.lt (zero false) = true ∧ exponent.IsOddInteger)) ∧
    (DividesByZero base exponent →
      (function base exponent = .error .domain ∧
        pow function base exponent = .infinity false) ∨
      function base exponent = .ok (pow function base exponent)) ∧
    (HasNoPower base exponent → pow function base exponent = .nan) ∧
    (¬ Overflows base exponent → ¬ DividesByZero base exponent → ¬ HasNoPower base exponent →
      function base exponent = .ok (pow function base exponent)) ∧
    (IsIeeePower base exponent (pow function base exponent) ↔
      ¬ (function base exponent = .error .domain ∧ base = zero true ∧
        exponent.lt (zero false) = true ∧ exponent.IsOddInteger)) := by
  refine ⟨fun hlarge => (exists_pow_of_overflows h hlarge).2, fun hzero => ?_, fun hnone => ?_,
    fun hfits hzero hnone => ?_, isIeeePower_pow_iff h⟩
  · rcases ok_or_domain h hzero.not_overflows with hok | hrefused
    · exact .inr hok
    · exact .inl ⟨hrefused, pow_of_dividesByZero hrefused hzero⟩
  · rcases ok_or_domain h hnone.not_overflows with hok | hrefused
    · exact (h.result _ hok).invalid hnone
    · exact pow_of_hasNoPower hrefused hnone
  · rcases ok_or_domain h hfits with hok | hrefused
    · exact hok
    · rcases h.domain hrefused with hzero' | hnone'
      · exact absurd hzero' hzero
      · exact absurd hnone' hnone

end

/-- A library that refuses these powers: -2 to the power 1025 is too large, the square root of -2 is
missing, and so is the reciprocal of the negative zero, which IEEE 754 has as minus infinity. -/
theorem pow_spec_negativeZero :
    let library (base exponent : Binary64) : Except MathFault Binary64 :=
      if base.isZero || !exponent.isWhole then .error .domain else .error (.overflow .result)
    let minusTwo := ofInt (-2)
    let minusOne := ofInt (-1)
    (IsDocumentedPower library minusTwo (ofInt 1025) ∧
      pow library minusTwo (ofInt 1025) = .infinity true) ∧
    (IsDocumentedPower library minusTwo half ∧ pow library minusTwo half = .nan) ∧
    IsDocumentedPower library (zero true) minusOne ∧
      pow library (zero true) minusOne = .infinity false ∧
      ¬ IsIeeePower (zero true) minusOne (.infinity false) := by
  intro library minusTwo minusOne
  have hodd : (ofInt 1025).IsOddInteger ∧ minusOne.IsOddInteger :=
    ⟨⟨1025, by decide, value?_ofInt (by decide)⟩, ⟨-1, by decide, value?_ofInt (by decide)⟩⟩
  have hlarge : Overflows minusTwo (ofInt 1025) := by
    refine overflows_of_integers (n := 1025) (value?_ofInt (by decide)) ?_ (by decide +kernel)
    exact_mod_cast value?_ofInt (n := 1025) (by decide)
  have hnone : HasNoPower minusTwo half := by
    obtain ⟨units, hunits, hcount⟩ :
        ∃ units, Representable units ∧ (1 : Int).natAbs * unitsPerOne = units * 2 :=
      ⟨2 ^ 1073, by decide +kernel, by decide +kernel⟩
    have hhalf := (isExactly_ofRatio Nat.two_pos hunits hcount).value? Nat.two_pos
    refine ⟨-2, _, value?_ofInt (by decide), hhalf, by norm_num, ?_⟩
    rintro ⟨k, hk⟩
    have hdouble : (1 : ℚ) = 2 * k := by
      push_cast at hk
      linarith
    have hparity : (1 : ℤ) = 2 * k := by exact_mod_cast hdouble
    omega
  have hzero : DividesByZero (zero true) minusOne := ⟨rfl, by decide +kernel⟩
  have hrefused : library minusTwo half = .error .domain ∧
      library (zero true) minusOne = .error .domain ∧
      library minusTwo (ofInt 1025) = .error (.overflow .result) := by decide +kernel
  obtain ⟨hrootRefused, hreciprocalRefused, hpowerRefused⟩ := hrefused
  have hpower : IsDocumentedPower library minusTwo (ofInt 1025) := .of_overflow hpowerRefused hlarge
  have hroot : IsDocumentedPower library minusTwo half := .of_domain hrootRefused (.inr hnone)
  have hreciprocal : IsDocumentedPower library (zero true) minusOne :=
    .of_domain hreciprocalRefused (.inl hzero)
  refine ⟨⟨hpower, ?_⟩, ⟨hroot, (pow_spec hroot).2.2.1 hnone⟩, hreciprocal, ?_⟩
  · obtain ⟨negative, hpow, hsign⟩ := (pow_spec hpower).1 hlarge
    have hnegative : minusTwo.lt (zero false) = true := by decide +kernel
    rw [hpow, hsign.mpr ⟨hnegative, hodd.1⟩]
  · obtain ⟨-, hdivision, -, -, hieee⟩ := pow_spec hreciprocal
    have hinfinity : pow library (zero true) minusOne = .infinity false := by
      rcases hdivision hzero with ⟨-, hpow⟩ | hok
      · exact hpow
      · exact absurd (hok.symm.trans hreciprocalRefused) (by simp)
    rw [hinfinity] at hieee
    exact ⟨hinfinity, fun h => hieee.mp h ⟨hreciprocalRefused, rfl, hzero.2, hodd.2⟩⟩

end TypedCalc.Binary64
