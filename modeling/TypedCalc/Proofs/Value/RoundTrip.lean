import TypedCalc.Proofs.Binary64.Exact
import TypedCalc.Proofs.Value.Convert

/-!
# Sizes there and back

A conversion of an integer size that stays an integer keeps the number of bytes, and what further
conversions give depends on the number of bytes and the type only.  A conversion that becomes a
double loses nothing either if the integer has at most 53 digits.

* `Value.convertTo_cases`: the two outcomes.
* `Value.convertInteger_congr`: integers of one type with equally many bytes are converted alike.
* `Value.convertTo_exact`: the outcomes, and the way back and onward from each.
-/

namespace TypedCalc.Value

open Binary64

/-! ## The two outcomes -/

section

variable {n : FixedInt} {source target : SizeUnit}

theorem IsQuotient.unique {quotient other : Int} (h : IsQuotient n source target quotient)
    (hother : IsQuotient n source target other) : quotient = other := by
  rw [← h.tdiv_eq, hother.tdiv_eq]

variable (n source target) in
/-- An integer size becomes the integer that is its quotient, or the double nearest to it. -/
theorem convertTo_cases :
    (∃ m : FixedInt, m.type = n.type ∧ IsQuotient n source target m.value ∧
        (Value.mk (.integer n) (some (.size source))).convertTo (.size target) =
          .ok ⟨.integer m, some (.size target)⟩) ∨
      (∀ quotient, ¬ IsQuotient n source target quotient) ∧
        (Value.mk (.integer n) (some (.size source))).convertTo (.size target) =
          .ok (.float (quotientInUnit n source target) (some (.size target))) := by
  rw [convertTo_size]
  by_cases hwhole : ∃ quotient, IsQuotient n source target quotient
  · obtain ⟨quotient, hquotient⟩ := hwhole
    refine .inl ⟨⟨n.type, quotient, hquotient.2⟩, rfl, hquotient, ?_⟩
    have hvalue := FixedInt.ofInt_value ⟨n.type, quotient, hquotient.2⟩
    dsimp only at hvalue
    rw [convertInteger_of_isQuotient hquotient, Value.integer, hvalue]
  · have hnone := not_exists.mp hwhole
    exact .inr ⟨hnone, by rw [convertInteger_of_not_isQuotient hnone]⟩

/-- An integer result is the quotient. -/
theorem isQuotient_of_convertTo {m : FixedInt} {unit : Option Measure}
    (h : (Value.mk (.integer n) (some (.size source))).convertTo (.size target) =
      .ok ⟨.integer m, unit⟩) :
    m.type = n.type ∧ IsQuotient n source target m.value ∧ unit = some (.size target) := by
  rcases convertTo_cases n source target with ⟨m', htype, hquotient, hresult⟩ | ⟨-, hresult⟩
  · rw [hresult] at h
    cases h
    exact ⟨htype, hquotient, rfl⟩
  · rw [hresult] at h
    cases h

/-- A double is the rounded quotient. -/
theorem eq_quotientInUnit_of_convertTo {x : Binary64} {unit : Option Measure}
    (h : (Value.mk (.integer n) (some (.size source))).convertTo (.size target) =
      .ok (.float x unit)) : x = quotientInUnit n source target ∧ unit = some (.size target) := by
  rcases convertTo_cases n source target with ⟨m', -, -, hresult⟩ | ⟨-, hresult⟩
  · rw [hresult] at h
    cases h
  · rw [hresult, Except.ok.injEq, Value.float, Value.float, Value.mk.injEq,
      Number.float.injEq] at h
    exact ⟨h.1.symm, h.2.symm⟩

/-- An integer in its own unit stays one. -/
theorem source_ne_of_convertTo {x : Binary64} {unit : Option Measure}
    (h : (Value.mk (.integer n) (some (.size source))).convertTo (.size target) =
      .ok (.float x unit)) : target ≠ source := by
  rintro rfl
  rw [convertTo_size, convertInteger_of_isQuotient ⟨rfl, n.inRange⟩] at h
  cases h

/-! ## Integers -/

/-- **Integers of one type with equally many bytes are converted alike.** -/
theorem convertInteger_congr {m : FixedInt} (htype : m.type = n.type)
    (hbytes : bytesOf m target = bytesOf n source) (other : SizeUnit) :
    convertInteger m target other = convertInteger n source other := by
  simp only [convertInteger, quotientInUnit, htype, hbytes]

/-- An integer quotient is converted like the number that it comes from. -/
theorem convertTo_of_isQuotient {m : FixedInt} (htype : m.type = n.type)
    (h : IsQuotient n source target m.value) (other : SizeUnit) :
    (Value.mk (.integer m) (some (.size target))).convertTo (.size other) =
      (Value.mk (.integer n) (some (.size source))).convertTo (.size other) := by
  rw [convertTo_size, convertTo_size, convertInteger_congr htype h.1]

/-- A value in its own unit is left alone. -/
theorem convertTo_self (v : Number) (unit : Measure) :
    (Value.mk v (some unit)).convertTo unit = .ok ⟨v, some unit⟩ := by
  simp only [convertTo, if_true]

end

/-! ## Doubles -/

section

variable {n : FixedInt} (source target : SizeUnit)

theorem bytesOf_neg_iff : bytesOf n source < 0 ↔ n.value < 0 := by
  have hpos : (0 : Int) < source.scale := Int.natCast_pos.mpr source.scale_pos
  constructor
  · intro hneg
    by_contra hnonneg
    exact absurd hneg
      (Int.not_lt.mpr (Int.mul_nonneg (Int.not_lt.mp hnonneg) (Int.le_of_lt hpos)))
  · exact fun hneg => Int.mul_neg_of_neg_of_pos hneg hpos

variable {source target}

/-- A quotient that is a count is that count. -/
theorem quotientInUnit_finite {units : Nat} (hunits : Representable units)
    (h : units * target.scale = n.value.natAbs * source.scale * unitsPerOne) :
    quotientInUnit n source target = .finite (decide (n.value < 0)) units hunits := by
  have hbytes : (bytesOf n source).natAbs * unitsPerOne = units * target.scale := by
    rw [h, bytesOf, Int.natAbs_mul, Int.natAbs_natCast]
  rw [quotientInUnit_eq_ofRatio, ofRatio_finite target.scale_pos hunits hbytes,
    decide_eq_decide.mpr (bytesOf_neg_iff source)]

variable (source target)

/-- **A number of at most 53 digits is not rounded in another unit**, nor on the way back. -/
theorem isExactly_quotientInUnit (h : n.value.natAbs ≤ 2 ^ 53) :
    IsExactly (n.value * source.scale) target.scale (quotientInUnit n source target) ∧
      IsExactly n.value 1 (source.ofBytes (target.toBytes (quotientInUnit n source target))) := by
  obtain ⟨units, hunits, hcount⟩ := exists_count_quotient source target h
  obtain ⟨bytes, hbytes, hcountBytes⟩ := exists_count_quotient source .byte h
  obtain ⟨whole, hwhole, hcountWhole⟩ := exists_count_quotient .byte .byte h
  have hscale : SizeUnit.byte.scale = 1 := rfl
  rw [hscale, Nat.mul_one] at hcountBytes
  rw [hscale, Nat.mul_one, Nat.mul_one] at hcountWhole
  -- both counts are worth the same number of bytes in their units
  have htarget : units * target.scale = bytes := hcount.trans hcountBytes.symm
  have hsource : whole * source.scale = bytes := by
    rw [hcountBytes, hcountWhole, Nat.mul_right_comm]
  rw [quotientInUnit_finite hunits hcount]
  constructor
  · rw [← decide_eq_decide.mpr (bytesOf_neg_iff source)]
    exact isExactly_finite hunits (by rw [hcount, Int.natAbs_mul, Int.natAbs_natCast])
  · rw [SizeUnit.toBytes_finite hunits hbytes htarget,
      SizeUnit.ofBytes_finite hwhole hbytes hsource]
    exact isExactly_finite hwhole (by rw [Nat.mul_one, hcountWhole])

/-- Doubles are converted by way of bytes. -/
theorem convertTo_float {source target : SizeUnit} (hne : source ≠ target) (x : Binary64) :
    (Value.float x (some (.size source))).convertTo (.size target) =
      .ok (.float (target.ofBytes (source.toBytes x)) (some (.size target))) := by
  have hunit : Measure.size source ≠ .size target := fun h => hne (Measure.size.inj h)
  simp only [convertTo, Value.float, if_neg hunit]

end

/-! ## There, back and onward -/

/-- **Conversion of integer sizes is exact.**  An integer whose quotient is a whole number of its
type becomes that number, and any other becomes the double nearest to its quotient.  An integer
result is converted back into the integer it comes from, and into any other unit like that integer.
A double that an integer of at most `2 ^ 53` becomes is its quotient exactly, and is converted back
into a double that is the integer exactly. -/
theorem convertTo_exact (n : FixedInt) (source target : SizeUnit) :
    (∀ quotient, IsQuotient n source target quotient →
      ∃ m : FixedInt, m.type = n.type ∧ m.value = quotient ∧
        (Value.mk (.integer n) (some (.size source))).convertTo (.size target) =
          .ok ⟨.integer m, some (.size target)⟩) ∧
      ((∀ quotient, ¬ IsQuotient n source target quotient) →
        ∃ x, IsNearest (n.value * source.scale) target.scale x ∧
          (Value.mk (.integer n) (some (.size source))).convertTo (.size target) =
            .ok (.float x (some (.size target)))) ∧
      (∀ (m : FixedInt) (unit : Option Measure),
        (Value.mk (.integer n) (some (.size source))).convertTo (.size target) =
            .ok ⟨.integer m, unit⟩ →
          (Value.mk (.integer m) unit).convertTo (.size source) =
              .ok ⟨.integer n, some (.size source)⟩ ∧
            ∀ other : SizeUnit, (Value.mk (.integer m) unit).convertTo (.size other) =
              (Value.mk (.integer n) (some (.size source))).convertTo (.size other)) ∧
      (n.value.natAbs ≤ 2 ^ 53 →
        ∀ (x : Binary64) (unit : Option Measure),
          (Value.mk (.integer n) (some (.size source))).convertTo (.size target) =
              .ok (.float x unit) →
            IsExactly (n.value * source.scale) target.scale x ∧
              ∃ y, (Value.float x unit).convertTo (.size source) =
                  .ok (.float y (some (.size source))) ∧ IsExactly n.value 1 y) := by
  refine ⟨fun quotient hquotient => ?_, fun hnone => ?_, fun m unit hresult => ?_,
    fun hdigits x unit hresult => ?_⟩
  · rcases convertTo_cases n source target with ⟨m, htype, hm, hresult⟩ | ⟨hnone, -⟩
    · exact ⟨m, htype, hm.unique hquotient, hresult⟩
    · exact absurd hquotient (hnone quotient)
  · rcases convertTo_cases n source target with ⟨m, -, hm, -⟩ | ⟨-, hresult⟩
    · exact absurd hm (hnone m.value)
    · exact ⟨_, isNearest_quotientInUnit n source target, hresult⟩
  · obtain ⟨htype, hquotient, rfl⟩ := isQuotient_of_convertTo hresult
    have honward := convertTo_of_isQuotient htype hquotient
    exact ⟨(honward source).trans (convertTo_self _ _), honward⟩
  · obtain ⟨hx, rfl⟩ := eq_quotientInUnit_of_convertTo hresult
    obtain ⟨hexact, hback⟩ := isExactly_quotientInUnit source target hdigits
    rw [hx]
    exact ⟨hexact, _, convertTo_float (source_ne_of_convertTo hresult) _, hback⟩

/-- One and a half kilobytes are a double, and two are an integer; both come back as bytes. -/
theorem convertTo_exact_kilobytes :
    (∃ x y, (Value.mk (.integer (.ofInt .u64 1536)) (some (.size .byte))).convertTo
          (.size .kilobyte) = .ok (.float x (some (.size .kilobyte))) ∧
        IsExactly (1536 * 1) 1024 x ∧
        (Value.float x (some (.size .kilobyte))).convertTo (.size .byte) =
          .ok (.float y (some (.size .byte))) ∧ IsExactly 1536 1 y) ∧
      ∃ m : FixedInt, m.type = .u64 ∧ m.value = 2 ∧
        (Value.mk (.integer (.ofInt .u64 2048)) (some (.size .byte))).convertTo
          (.size .kilobyte) = .ok ⟨.integer m, some (.size .kilobyte)⟩ ∧
        (Value.mk (.integer m) (some (.size .kilobyte))).convertTo (.size .byte) =
          .ok ⟨.integer (.ofInt .u64 2048), some (.size .byte)⟩ := by
  constructor
  · obtain ⟨-, hfloat, -, hback⟩ := convertTo_exact (.ofInt .u64 1536) .byte .kilobyte
    have hnone : ∀ quotient, ¬ IsQuotient (.ofInt .u64 1536) .byte .kilobyte quotient := by
      rintro quotient ⟨hbytes, -⟩
      have hkilobytes : quotient * 1024 = 1536 := hbytes
      omega
    obtain ⟨x, -, hx⟩ := hfloat hnone
    obtain ⟨hexact, y, hy, hvalue⟩ := hback (by decide) x _ hx
    exact ⟨x, y, hx, hexact, hy, hvalue⟩
  · obtain ⟨hinteger, -, hback, -⟩ := convertTo_exact (.ofInt .u64 2048) .byte .kilobyte
    obtain ⟨m, htype, hvalue, hm⟩ := hinteger 2 ⟨by decide, by decide⟩
    exact ⟨m, htype, hvalue, hm, (hback m _ hm).1⟩

end TypedCalc.Value
