import TypedCalc.Operand.Apply
import TypedCalc.Proofs.Value.Convert

/-!
# Bringing integer sizes together

The right operand of an infix operator is brought into the unit of the left one before it is cast to
its type, and in between it can have become a double.

* `Operand.coerce_eq_castTo_convertInteger`: the two steps.
* `Operand.coerce_sizes`: what they give together, and where that is the exact quotient.
* `Operand.coerce_sizes_not_modular`: it is not always the exact quotient wrapped into the type.
-/

namespace TypedCalc.Operand

open Value

theorem coerce_eq_castTo_convertInteger (symbol : String) (left right : FixedInt)
    (leftUnit rightUnit : SizeUnit) :
    coerce symbol ⟨.integer left, some (.size leftUnit)⟩ ⟨.integer right, some (.size rightUnit)⟩ =
      .ok ((convertInteger right rightUnit leftUnit).castTo (.integer left.type)) := by
  have hcategory : (Measure.size leftUnit).category = (Measure.size rightUnit).category := rfl
  unfold coerce
  dsimp only
  rw [if_pos hcategory, convertTo_size]
  rfl

/-- **Bringing an integer size to another one.**  A quotient that is a whole number of the right
operand's type is wrapped into the left operand's type.  Any other is rounded to the nearest double,
and the whole part of that is cut down to the range of the left operand's type.  A number of at most
53 digits gives the whole part of the exact quotient, whatever its type, if the left operand's type
has that number. -/
theorem coerce_sizes (symbol : String) (left right : FixedInt) (leftUnit rightUnit : SizeUnit) :
    ∃ brought : FixedInt,
      coerce symbol ⟨.integer left, some (.size leftUnit)⟩
          ⟨.integer right, some (.size rightUnit)⟩ =
        .ok ⟨.integer brought, some (.size leftUnit)⟩ ∧
      brought.type = left.type ∧
      ((∃ quotient, IsQuotient right rightUnit leftUnit quotient ∧
          brought.value % left.type.modulus = quotient % left.type.modulus) ∨
        (∀ quotient, ¬ IsQuotient right rightUnit leftUnit quotient) ∧
          ∃ x whole, Binary64.IsNearest (right.value * rightUnit.scale) leftUnit.scale x ∧
            x.truncate? = some whole ∧ brought.value = left.type.clamp whole) ∧
      (right.value.natAbs ≤ 2 ^ 53 →
        left.type.Holds ((right.value * rightUnit.scale).tdiv leftUnit.scale) →
        brought.value = (right.value * rightUnit.scale).tdiv leftUnit.scale) := by
  rw [coerce_eq_castTo_convertInteger]
  by_cases hwhole : ∃ quotient, IsQuotient right rightUnit leftUnit quotient
  · obtain ⟨quotient, hquotient⟩ := hwhole
    rw [convertInteger_of_isQuotient hquotient, hquotient.tdiv_eq]
    refine ⟨.ofInt left.type quotient, ?_, rfl, .inl ⟨quotient, hquotient, ?_⟩, ?_⟩
    · simp only [castTo, Value.integer, Number.castTo, FixedInt.value_ofInt,
        IntegerType.wrap_eq_self hquotient.2]
    · exact IntegerType.emod_wrap _ _
    · exact fun _ hrange => IntegerType.wrap_eq_self hrange
  · have hnone := not_exists.mp hwhole
    obtain ⟨whole, htruncate⟩ :=
      Binary64.exists_truncate? (isFinite_quotientInUnit right rightUnit leftUnit)
    rw [convertInteger_of_not_isQuotient hnone]
    refine ⟨.ofInt left.type (left.type.clamp whole), ?_, rfl,
      .inr ⟨hnone, _, whole, isNearest_quotientInUnit right rightUnit leftUnit, htruncate, ?_⟩, ?_⟩
    · simp only [castTo, Value.float, Number.castTo, left.type.saturate_eq_clamp htruncate]
    · exact IntegerType.wrap_eq_self (left.type.clamp_inRange whole)
    · intro hdigits hrange
      have hexact := truncate?_quotientInUnit rightUnit leftUnit hdigits
      rw [htruncate] at hexact
      rw [Option.some.inj hexact, IntegerType.clamp_eq_self hrange]
      exact IntegerType.wrap_eq_self hrange

/-- One and a half kilobytes of a wider type are one kilobyte in a `u8`. -/
theorem coerce_sizes_kilobyte :
    ∃ brought : FixedInt,
      coerce "+" ⟨.integer (.ofInt .u8 0), some (.size .kilobyte)⟩
          ⟨.integer (.ofInt .u64 1536), some (.size .byte)⟩ =
        .ok ⟨.integer brought, some (.size .kilobyte)⟩ ∧
      brought.type = .u8 ∧ brought.value = 1 := by
  obtain ⟨brought, hcoerce, htype, -, hexact⟩ :=
    coerce_sizes "+" (.ofInt .u8 0) (.ofInt .u64 1536) .kilobyte .byte
  exact ⟨brought, hcoerce, htype, hexact (by decide) (by decide)⟩

/-- One kilobyte is no whole number of bytes in a `u8`, so it saturates where it could have been
wrapped: a size is not always brought over modulo the number of bit patterns. -/
theorem coerce_sizes_not_modular :
    ¬ ∀ (symbol : String) (left right : FixedInt) (leftUnit rightUnit : SizeUnit),
      ∃ brought : FixedInt,
        coerce symbol ⟨.integer left, some (.size leftUnit)⟩
            ⟨.integer right, some (.size rightUnit)⟩ =
          .ok ⟨.integer brought, some (.size leftUnit)⟩ ∧
        brought.type = left.type ∧
        brought.value % left.type.modulus =
          (right.value * rightUnit.scale).tdiv leftUnit.scale % left.type.modulus := by
  intro h
  obtain ⟨brought, hcoerce, -, hvalue⟩ := h "+" (.ofInt .u8 0) (.ofInt .u8 1) .byte .kilobyte
  have hsaturated : (convertInteger (.ofInt .u8 1) .kilobyte .byte).castTo (.integer .u8) =
      ⟨.integer (.ofInt .u8 255), some (.size .byte)⟩ := by decide +kernel
  rw [coerce_eq_castTo_convertInteger] at hcoerce
  obtain ⟨rfl⟩ := hsaturated.symm.trans (Except.ok.inj hcoerce)
  exact absurd hvalue (by decide)

end TypedCalc.Operand
