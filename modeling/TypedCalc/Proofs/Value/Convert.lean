import TypedCalc.Proofs.Binary64.Decimal
import TypedCalc.Proofs.Binary64.Nearest
import TypedCalc.Proofs.Value.Wrap
import TypedCalc.Value.Convert

/-!
# Integer sizes in another unit

An integer size has a quotient in every other unit of size.  It stays an integer where that quotient
is a whole number of its type, and is the double nearest to it otherwise.

* `IntegerType.saturate_eq_clamp`: a finite double is cut down to a whole number and then to the
  range of the type.
* `Value.convertInteger_of_isQuotient`, `Value.convertInteger_of_not_isQuotient`: the two cases.
* `Value.isNearest_quotientInUnit`: the double is the nearest one.
* `Value.truncate?_quotientInUnit`: a number of at most 53 digits is not rounded in it.
-/

namespace TypedCalc

/-! ## Cutting down to a range -/

namespace IntegerType

theorem clamp_inRange (type : IntegerType) (n : Int) : type.Holds (type.clamp n) := by
  have hle : type.minimum ≤ type.maximum := by cases type <;> decide
  unfold Holds clamp
  omega

theorem clamp_eq_self {type : IntegerType} {n : Int} (h : type.Holds n) : type.clamp n = n := by
  unfold Holds at h
  unfold clamp
  omega

/-- A double with a whole part is cut down to the number of the type nearest to that part. -/
theorem saturate_eq_clamp (type : IntegerType) {x : Binary64} {whole : Int}
    (h : x.truncate? = some whole) : type.saturate x = type.clamp whole := by
  cases x with
  | nan | infinity => cases h
  | finite negative units hunits =>
    rw [← Option.some.inj h]
    rfl

end IntegerType

namespace Binary64

theorem exists_truncate? {x : Binary64} (h : x.isFinite = true) :
    ∃ whole, x.truncate? = some whole := by
  cases x with
  | nan | infinity => cases h
  | finite negative units hunits => exact ⟨_, rfl⟩

/-- Truncated division divides the magnitude and keeps the sign. -/
theorem signed_natAbs_div (n : Int) (den : Nat) :
    (if n < 0 then -((n.natAbs / den : Nat) : Int) else (n.natAbs / den : Nat)) = n.tdiv den := by
  by_cases hneg : n < 0
  · have hn : n = -(n.natAbs : Int) := by omega
    rw [if_pos hneg]
    conv_rhs => rw [hn, Int.neg_tdiv]
    rfl
  · have hn : n = n.natAbs := by omega
    rw [if_neg hneg]
    conv_rhs => rw [hn]
    rfl

/-- A quotient that is a count already is not rounded before its fraction is cut off. -/
theorem truncate?_ofRatio {num : Int} {den units : Nat} (hden : 0 < den)
    (hunits : Representable units) (h : num.natAbs * unitsPerOne = units * den) :
    (ofRatio (decide (num < 0)) num.natAbs den).truncate? = some (num.tdiv den) := by
  have hwhole : wholePart units = num.natAbs / den := by
    rw [wholePart, ← Nat.mul_div_mul_right _ _ hden, ← h, Nat.mul_comm unitsPerOne,
      Nat.mul_div_mul_right _ _ unitsPerOne_pos]
  rw [ofRatio, h, ofUnits_mul_right hden hunits, truncate?, hwhole, ← signed_natAbs_div]
  simp only [decide_eq_true_eq]

end Binary64

namespace Value

open Binary64

variable (n : FixedInt) (source target : SizeUnit)

/-! ## The two cases -/

/-- Whether a whole number is the quotient of an integer size in another unit, and of its type. -/
def IsQuotient (quotient : Int) : Prop :=
  quotient * target.scale = n.value * source.scale ∧ n.type.Holds quotient

variable {n source target}

theorem natCast_scale_ne_zero (unit : SizeUnit) : (unit.scale : Int) ≠ 0 :=
  Int.natCast_ne_zero.mpr (Nat.ne_of_gt unit.scale_pos)

/-- A quotient is the truncated one. -/
theorem IsQuotient.tdiv_eq {quotient : Int} (h : IsQuotient n source target quotient) :
    (n.value * source.scale).tdiv target.scale = quotient := by
  rw [← h.1, Int.mul_tdiv_cancel _ (natCast_scale_ne_zero target)]

theorem convertInteger_of_isQuotient {quotient : Int} (h : IsQuotient n source target quotient) :
    convertInteger n source target = .integer n.type quotient (some (.size target)) := by
  simp only [convertInteger, bytesOf, ← h.1, Int.mul_emod_left, true_and,
    Int.mul_ediv_cancel _ (natCast_scale_ne_zero target)]
  exact if_pos h.2

theorem convertInteger_of_not_isQuotient (h : ∀ quotient, ¬ IsQuotient n source target quotient) :
    convertInteger n source target =
      .float (quotientInUnit n source target) (some (.size target)) := by
  refine if_neg fun ⟨hmod, hholds⟩ => h _ ⟨?_, hholds⟩
  exact Int.ediv_mul_cancel (Int.dvd_of_emod_eq_zero hmod)

/-- An integer size in its own unit is converted like one in any other. -/
theorem convertTo_size (n : FixedInt) (source target : SizeUnit) :
    (Value.mk (.integer n) (some (.size source))).convertTo (.size target) =
      .ok (convertInteger n source target) := by
  unfold convertTo
  by_cases hunit : source = target
  · subst hunit
    rw [convertInteger_of_isQuotient ⟨rfl, n.inRange⟩]
    simp only [if_true, Value.integer, FixedInt.ofInt_value]
  · have hne : Measure.size source ≠ .size target := fun h => hunit (Measure.size.inj h)
    simp only [if_neg hne]

variable (n source target)

/-! ## The double -/

theorem isNearest_quotientInUnit :
    IsNearest (n.value * source.scale) target.scale (quotientInUnit n source target) := by
  rw [quotientInUnit_eq_ofRatio]
  exact isNearest_ofRatio target.scale_pos _

theorem isFinite_quotientInUnit : (quotientInUnit n source target).isFinite = true := by
  rw [quotientInUnit_eq_ofRatio]
  exact isFinite_ofRatio _ (natAbs_bytesOf_lt n source)

/-- The scales and the number of units in one are powers of two. -/
theorem exists_scale_mul_unitsPerOne :
    ∃ k, source.scale * unitsPerOne = 2 ^ k * target.scale ∧ 2 ^ 53 * 2 ^ k < overflowUnits := by
  obtain ⟨one, hone, hbound⟩ :
      ∃ k, unitsPerOne = 2 ^ (k + 50) ∧ 2 ^ 53 * 2 ^ (k + 100) < overflowUnits :=
    ⟨1024, by decide +kernel, by decide +kernel⟩
  have hscale (unit : SizeUnit) : unit.scale = 2 ^ (10 * unit.power) := Nat.pow_mul 2 10 _ ▸ rfl
  have hpower (unit : SizeUnit) : unit.power ≤ 5 := by cases unit <;> decide
  have hsource := hpower source
  have htarget := hpower target
  refine ⟨10 * source.power + (one + 50) - 10 * target.power, ?_, ?_⟩
  · rw [hone, hscale, hscale, ← Nat.pow_add, ← Nat.pow_add, Nat.sub_add_cancel (by omega)]
  · refine Nat.lt_of_le_of_lt (Nat.mul_le_mul_left _ ?_) hbound
    exact Nat.pow_le_pow_right (by decide) (by omega)

/-- A number of at most 53 digits keeps all of them in another unit: its quotient is a count that a
double can hold. -/
theorem exists_count_quotient {n : FixedInt} (h : n.value.natAbs ≤ 2 ^ 53) :
    ∃ units, Representable units ∧
      units * target.scale = n.value.natAbs * source.scale * unitsPerOne := by
  obtain ⟨k, hscales, hbound⟩ := exists_scale_mul_unitsPerOne source target
  refine ⟨n.value.natAbs * 2 ^ k, ⟨?_, slack_dvd_mul_two_pow h⟩, ?_⟩
  · exact Nat.lt_of_le_of_lt (Nat.mul_le_mul_right _ h) hbound
  · rw [Nat.mul_assoc, Nat.mul_assoc, hscales]

/-- The whole part of such a number in another unit is that of the exact quotient. -/
theorem truncate?_quotientInUnit {n : FixedInt} (h : n.value.natAbs ≤ 2 ^ 53) :
    (quotientInUnit n source target).truncate? =
      some ((n.value * source.scale).tdiv target.scale) := by
  obtain ⟨units, hunits, hcount⟩ := exists_count_quotient source target h
  rw [quotientInUnit_eq_ofRatio]
  refine truncate?_ofRatio target.scale_pos hunits ?_
  rw [hcount, bytesOf, Int.natAbs_mul, Int.natAbs_natCast]

end Value

end TypedCalc
