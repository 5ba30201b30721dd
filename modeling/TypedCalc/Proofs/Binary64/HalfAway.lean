import Mathlib.Data.Nat.Dist
import TypedCalc.Proofs.Binary64.Decimal

/-!
# Rounding to a whole number

`Binary64.round` adds one half to the magnitude and cuts off the fraction.  The sum is a double
again, so it can be rounded up to the next whole number, and then the result is one too large.

* `Binary64.div_nearestUnits_of_lt_half`, `Binary64.div_nearestUnits_of_half_le` and
  `Binary64.div_nearestUnits_of_whole`: what the sum is cut down to, by the size of its steps.
* `Binary64.round_finite`: a finite double is rounded to the nearest whole number, halves away from
  zero, except for the double below one half and the odd whole numbers from `2 ^ 52` to `2 ^ 53`.
-/

namespace TypedCalc

theorem nearestNat_mul_add {remainder den : Nat} (h : remainder < den) (quotient : Nat) :
    nearestNat (quotient * den + remainder) den =
      if 2 * remainder < den ∨ 2 * remainder = den ∧ quotient % 2 = 0 then quotient
      else quotient + 1 := by
  have hden : 0 < den := Nat.zero_lt_of_lt h
  have hquotient : (quotient * den + remainder) / den = quotient := by
    rw [Nat.mul_comm, Nat.mul_add_div hden, Nat.div_eq_of_lt h, Nat.add_zero]
  have hremainder : (quotient * den + remainder) % den = remainder := by
    rw [Nat.mul_comm, Nat.mul_add_mod, Nat.mod_eq_of_lt h]
  simp only [nearestNat, hquotient, hremainder]

namespace Binary64

theorem le_slack_of_le {num k : Nat} (h : 2 ^ (k + 52) ≤ num) : k ≤ slack num := by
  have hne : num ≠ 0 := Nat.ne_of_gt (Nat.lt_of_lt_of_le (Nat.two_pow_pos _) h)
  exact Nat.le_sub_of_add_le ((Nat.le_log2 hne).mpr h)

/-! ## Adding half of a power of two

A count of at most 53 digits is added to half of `2 ^ (q + 54)`.  The sum is a multiple of a step,
`2 ^ slack`, and what happens depends on how large that step is. -/

section

variable {q units : Nat}

theorem two_pow_eq (q : Nat) : 2 ^ (q + 54) = 2 * 2 ^ (q + 53) := by
  rw [Nat.pow_succ, Nat.mul_comm]

/-- Below one half, only the largest count is rounded up. -/
theorem div_nearestUnits_of_lt_half (hdigits : 2 ^ slack units ∣ units)
    (hlt : units < 2 ^ (q + 53)) :
    nearestUnits (units + 2 ^ (q + 53)) 1 / 2 ^ (q + 54) =
      if units + 2 ^ q = 2 ^ (q + 53) then 1 else 0 := by
  have hone := two_pow_eq q
  have hroom := add_two_pow_le hdigits hlt
  have hiff := nearestUnits_lt_two_pow_iff (units + 2 ^ (q + 53)) q
  have htop : nearestUnits (units + 2 ^ (q + 53)) 1 ≤ 2 ^ (q + 54) :=
    nearestUnits_le_two_pow (k := q + 1) (by rw [Nat.div_one, Nat.add_right_comm]; omega)
  split
  · have hnearest : nearestUnits (units + 2 ^ (q + 53)) 1 = 2 ^ (q + 54) := by omega
    rw [hnearest, Nat.div_self (Nat.two_pow_pos _)]
  · exact Nat.div_eq_of_lt (hiff.mpr (by omega))

/-- From one half on, and as long as halves are counts, the sum is not rounded past a whole
number. -/
theorem div_nearestUnits_of_half_le (hdigits : 2 ^ slack units ∣ units)
    (hge : 2 ^ (q + 53) ≤ units) (hlt : units + 2 ^ (q + 53) < 2 ^ (q + 106)) :
    nearestUnits (units + 2 ^ (q + 53)) 1 / 2 ^ (q + 54) =
      (units + 2 ^ (q + 53)) / 2 ^ (q + 54) := by
  have hone := two_pow_eq q
  generalize htotal : units + 2 ^ (q + 53) = total at *
  have hone' : 2 ^ (q + 54) ≤ total := by omega
  have hlow : q + 2 ≤ slack total := le_slack_of_le hone'
  have hhigh : slack total ≤ q + 53 := slack_le_of_lt hlt
  have hhalf : 2 ^ slack total ∣ 2 ^ (q + 53) := Nat.pow_dvd_pow 2 hhigh
  rcases dvd_or_lt_two_pow hdigits (slack total) with hdvd | ⟨hpos, hbinade⟩
  · have hsum := Nat.dvd_add hdvd hhalf
    rw [htotal] at hsum
    have hnearest : nearestUnits total 1 = total :=
      Nat.le_antisymm (nearestUnits_le_of_dvd (Nat.le_refl _) hsum)
        (le_nearestUnits_of_dvd (Nat.le_refl _) hsum)
    rw [hnearest]
  · -- the sum has just reached a power of two, and its rounding stays within a half of that power
    have hreached : 2 ^ (slack total + 52) ≤ total := two_pow_le_of_slack_pos hpos
    have hstep : 2 ^ slack total ∣ 2 ^ (slack total + 52) :=
      Nat.pow_dvd_pow 2 (Nat.le_add_right _ _)
    have habove : 2 ^ (slack total + 52) ≤ nearestUnits total 1 :=
      le_nearestUnits_of_dvd hreached hstep
    have hbelow : nearestUnits total 1 ≤ 2 ^ (slack total + 52) + 2 ^ (q + 53) :=
      nearestUnits_le_of_dvd (by omega) (Nat.dvd_add hstep hhalf)
    obtain ⟨whole, hwhole⟩ : 2 ^ (q + 54) ∣ 2 ^ (slack total + 52) :=
      Nat.pow_dvd_pow 2 (by omega)
    have hpos := Nat.two_pow_pos (q + 53)
    rw [hwhole, Nat.mul_comm] at hreached habove hbelow hbinade
    have hdiv {n : Nat} (hn : whole * 2 ^ (q + 54) ≤ n)
        (hn' : n < whole * 2 ^ (q + 54) + 2 ^ (q + 54)) : n / 2 ^ (q + 54) = whole :=
      Nat.div_eq_of_lt_le hn (by rwa [Nat.succ_mul])
    rw [hdiv habove (by omega), hdiv hreached (by omega)]

/-- Where the steps of the sum are whole numbers, the half in the sum is a tie, which goes to the
even whole number. -/
theorem div_nearestUnits_of_whole_step {whole : Nat} (hge : 2 ^ 52 ≤ whole) (hlt : whole < 2 ^ 53) :
    nearestUnits (whole * 2 ^ (q + 54) + 2 ^ (q + 53)) 1 / 2 ^ (q + 54) = whole + whole % 2 := by
  have hone := two_pow_eq q
  have hpos := Nat.two_pow_pos (q + 53)
  have hslack : slack (whole * 2 ^ (q + 54) + 2 ^ (q + 53)) = q + 54 := by
    apply Nat.le_antisymm
    · apply slack_le_of_lt
      have hmul := Nat.mul_le_mul_right (2 ^ (q + 54)) (Nat.succ_le_of_lt hlt)
      rw [Nat.succ_mul, ← Nat.pow_add, Nat.add_comm 53] at hmul
      omega
    · apply le_slack_of_le
      have hmul := Nat.mul_le_mul_right (2 ^ (q + 54)) hge
      rw [← Nat.pow_add, Nat.add_comm 52] at hmul
      omega
  rw [nearestUnits_one, hslack, Nat.mul_div_cancel _ (Nat.two_pow_pos _),
    nearestNat_mul_add (by omega)]
  split <;> omega

/-- Where the steps are larger, the half in the sum is lost. -/
theorem nearestUnits_of_large_step (hdigits : 2 ^ slack units ∣ units)
    (hge : 2 ^ (q + 107) ≤ units) : nearestUnits (units + 2 ^ (q + 53)) 1 = units := by
  have hlow : q + 55 ≤ slack (units + 2 ^ (q + 53)) :=
    le_slack_of_le (Nat.le_trans hge (Nat.le_add_right _ _))
  have hreached := two_pow_le_of_slack_pos (Nat.lt_of_lt_of_le (by omega) hlow)
  rw [nearestUnits_one]
  generalize slack (units + 2 ^ (q + 53)) = low at *
  obtain ⟨low, rfl⟩ : ∃ k, low = k + 1 := ⟨low - 1, by omega⟩
  have hhalf : 2 ^ (q + 53) < 2 ^ low := Nat.pow_lt_pow_right (by decide) (by omega)
  rcases dvd_or_lt_two_pow hdigits (low + 1) with ⟨m, rfl⟩ | ⟨-, hbinade⟩
  · have hstep : 2 ^ (low + 1) = 2 * 2 ^ low := by rw [Nat.pow_succ, Nat.mul_comm]
    rw [Nat.mul_comm _ m, nearestNat_mul_add (by omega), if_pos (by omega)]
  · have hbinade' : 2 ^ (low + 1 + 52) = 2 ^ (low + 53) := by rw [Nat.add_assoc]
    rw [hbinade'] at hbinade hreached
    have hroom := add_two_pow_le hdigits hbinade
    omega

/-- A whole number from `2 ^ 52` on is rounded to an even one below `2 ^ 53`, and to itself from
there on. -/
theorem div_nearestUnits_of_whole {whole : Nat} (hdigits : 2 ^ slack units ∣ units)
    (hwhole : units = whole * 2 ^ (q + 54)) (hge : 2 ^ 52 ≤ whole) :
    nearestUnits (units + 2 ^ (q + 53)) 1 / 2 ^ (q + 54) =
      if whole < 2 ^ 53 then whole + whole % 2 else whole := by
  split
  · rename_i hlt
    rw [hwhole]
    exact div_nearestUnits_of_whole_step hge hlt
  · rename_i hlt
    have hlarge : 2 ^ (q + 107) ≤ units := by
      have hmul := Nat.mul_le_mul_right (2 ^ (q + 54)) (Nat.le_of_not_lt hlt)
      rwa [← Nat.pow_add, Nat.add_comm 53, ← hwhole] at hmul
    rw [nearestUnits_of_large_step hdigits hlarge, hwhole,
      Nat.mul_div_cancel _ (Nat.two_pow_pos _)]

/-- A power of two is not rounded. -/
theorem nearestUnits_two_pow (k : Nat) : nearestUnits (2 ^ k) 1 = 2 ^ k := by
  have hdvd : 2 ^ slack (2 ^ k) ∣ 2 ^ k := by
    rw [slack_two_pow]
    exact Nat.pow_dvd_pow 2 (Nat.sub_le _ _)
  have hnearest := nearestUnits_mul_right Nat.one_pos hdvd
  rwa [Nat.mul_one] at hnearest

end

/-! ## The nearest whole number -/

/-- Whether a whole number is the one nearest to a magnitude: they differ by at most one half, and
by one half only if the whole number is the larger one. -/
def IsNearestWhole (units whole : Nat) : Prop :=
  2 * units.dist (whole * unitsPerOne) ≤ unitsPerOne ∧
    (2 * units.dist (whole * unitsPerOne) = unitsPerOne → units < whole * unitsPerOne)

/-- The count of the largest double below one half. -/
def belowHalf : Nat := 2 ^ 1073 - 2 ^ 1020

/-- The magnitudes that become too large when one half is added: the double below one half, and the
odd whole numbers between `2 ^ 52` and `2 ^ 53`. -/
def RoundsPast (units : Nat) : Prop :=
  units = belowHalf ∨
    2 ^ 52 * unitsPerOne < units ∧ units < 2 ^ 53 * unitsPerOne ∧
      units % unitsPerOne = 0 ∧ wholePart units % 2 = 1

/-- The constants as powers of two with one exponent. -/
theorem exists_exponent : ∃ q, unitsPerOne / 2 = 2 ^ (q + 53) ∧ unitsPerOne = 2 ^ (q + 54) ∧
    belowHalf + 2 ^ q = 2 ^ (q + 53) :=
  ⟨1020, by decide +kernel, by decide +kernel, by decide +kernel⟩

theorem isNearestWhole_iff (units whole : Nat) :
    IsNearestWhole units whole ↔ whole = (units + unitsPerOne / 2) / unitsPerOne := by
  obtain ⟨q, hhalf, hone, -⟩ := exists_exponent
  have hdouble := two_pow_eq q
  have hpos := Nat.two_pow_pos (q + 53)
  rw [eq_comm, Nat.div_eq_iff unitsPerOne_pos, IsNearestWhole, Nat.dist, hhalf, hone]
  omega

/-- **What the sum is cut down to**: the nearest whole number, or one more than the whole part. -/
theorem wholePart_nearestUnits {units : Nat} (h : Representable units) :
    RoundsPast units ∧ ¬ IsNearestWhole units (wholePart units + 1) ∧
        wholePart (nearestUnits (units + unitsPerOne / 2) 1) = wholePart units + 1 ∨
      ¬ RoundsPast units ∧
        IsNearestWhole units (wholePart (nearestUnits (units + unitsPerOne / 2) 1)) := by
  simp only [isNearestWhole_iff, RoundsPast, wholePart]
  obtain ⟨q, hhalf, hone, hbelow⟩ := exists_exponent
  have hdouble := two_pow_eq q
  have hpos := Nat.two_pow_pos (q + 53)
  have hpos' := Nat.two_pow_pos q
  have hpower : 2 ^ (q + 106) = 2 ^ 52 * 2 ^ (q + 54) := by rw [← Nat.pow_add, Nat.add_comm 52]
  rw [hhalf, hone]
  obtain ⟨-, hdigits⟩ := h
  rcases Nat.lt_or_ge units (2 ^ (q + 53)) with hlt | hge
  · -- below one half
    have hunits : units / 2 ^ (q + 54) = 0 := Nat.div_eq_of_lt (by omega)
    have htotal : (units + 2 ^ (q + 53)) / 2 ^ (q + 54) = 0 := Nat.div_eq_of_lt (by omega)
    rw [div_nearestUnits_of_lt_half hdigits hlt, hunits, htotal]
    split
    · exact .inl ⟨.inl (by omega), by omega, rfl⟩
    · exact .inr ⟨by omega, rfl⟩
  have hne : units ≠ belowHalf := by omega
  rcases Nat.lt_or_ge (units + 2 ^ (q + 53)) (2 ^ (q + 106)) with hsmall | hlarge
  · -- halves are counts
    rw [div_nearestUnits_of_half_le hdigits hge hsmall]
    exact .inr ⟨by omega, rfl⟩
  rcases dvd_or_lt_two_pow hdigits (q + 54) with ⟨whole, hwhole⟩ | ⟨-, hlt⟩
  · -- the number is whole
    rw [Nat.mul_comm] at hwhole
    have hge : 2 ^ 52 ≤ whole := by
      refine Nat.le_of_not_lt fun hlt => ?_
      have hmul := Nat.mul_le_mul_right (2 ^ (q + 54)) (Nat.succ_le_of_lt hlt)
      rw [Nat.succ_mul] at hmul
      omega
    have htotal : (units + 2 ^ (q + 53)) / 2 ^ (q + 54) = whole := by
      refine Nat.div_eq_of_lt_le (by omega) ?_
      rw [Nat.succ_mul]
      omega
    have hunits : units / 2 ^ (q + 54) = whole := by
      rw [hwhole, Nat.mul_div_cancel _ (Nat.two_pow_pos _)]
    have habove : 2 ^ 52 * 2 ^ (q + 54) < units ↔ 2 ^ 52 < whole := by
      rw [hwhole, Nat.mul_lt_mul_right (Nat.two_pow_pos _)]
    have hbelow : units < 2 ^ 53 * 2 ^ (q + 54) ↔ whole < 2 ^ 53 := by
      rw [hwhole, Nat.mul_lt_mul_right (Nat.two_pow_pos _)]
    have hmod : units % 2 ^ (q + 54) = 0 := by rw [hwhole, Nat.mul_mod_left]
    rw [div_nearestUnits_of_whole hdigits hwhole hge, htotal, hunits, habove, hbelow, hmod]
    split <;> omega
  · -- the half in the sum fills the binade up to a power of two
    replace hlt : units < 2 ^ (q + 106) := hlt
    have hfull : units + 2 ^ (q + 53) = 2 ^ (q + 106) :=
      Nat.le_antisymm (add_two_pow_le (k := q + 53) hdigits hlt) hlarge
    have hle : units ≤ 2 ^ 52 * 2 ^ (q + 54) := by
      rw [← hpower, ← hfull]
      exact Nat.le_add_right _ _
    rw [hfull, nearestUnits_two_pow]
    exact .inr ⟨fun h => h.elim hne fun h => absurd h.1 (Nat.not_lt.mpr hle), rfl⟩

/-! ## The result -/

/-- Cutting low digits off a count leaves a count. -/
theorem Representable.div_mul {units : Nat} (h : Representable units) (k : Nat) :
    Representable (units / 2 ^ k * 2 ^ k) := by
  refine ⟨Nat.lt_of_le_of_lt (Nat.div_mul_le_self _ _) h.1, ?_⟩
  rcases Nat.le_total k (slack units) with hle | hle
  · rw [Nat.div_mul_cancel (Nat.dvd_trans (Nat.pow_dvd_pow 2 hle) h.2)]
    exact h.2
  · refine slack_dvd_mul_two_pow (Nat.le_of_lt (Nat.div_lt_of_lt_mul ?_))
    rw [← Nat.pow_add]
    exact Nat.lt_of_lt_of_le (lt_two_pow_slack units)
      (Nat.pow_le_pow_right (by decide) (Nat.add_le_add_right hle 53))

theorem Representable.wholePart_mul {units : Nat} (h : Representable units) :
    Representable (wholePart units * unitsPerOne) := by
  obtain ⟨q, -, hone, -⟩ := exists_exponent
  rw [wholePart, hone]
  exact h.div_mul _

/-- The whole part of a double is a double. -/
theorem ofWhole_wholePart {units : Nat} (h : Representable units) :
    ofWhole (wholePart units) = .ok (.finite false (wholePart units * unitsPerOne)
      h.wholePart_mul) := by
  have hunits : ofRatio false (wholePart units) 1 =
      .finite false (wholePart units * unitsPerOne) h.wholePart_mul := by
    rw [ofRatio, ← ofUnits_mul_right Nat.one_pos h.wholePart_mul, Nat.mul_one]
  have hnonneg : ¬ (wholePart units : Int) < 0 := Int.not_lt.mpr (Int.natCast_nonneg _)
  have hsome : ofInt? (wholePart units) =
      some (.finite false (wholePart units * unitsPerOne) h.wholePart_mul) := by
    rw [ofInt?, decide_eq_false hnonneg, Int.natAbs_natCast, ofRatio?, hunits]
    rfl
  rw [ofWhole, hsome]
  rfl

/-- **Rounding to a whole number.**  A finite double is rounded to the nearest whole number, halves
away from zero, and keeps its sign.  The exceptions are the magnitudes that become too large when
one half is added; their results are one more than their whole parts. -/
theorem round_finite (negative : Bool) (units : Nat) (h : Representable units) :
    ∃ whole hwhole, (finite negative units h).round =
        .ok (.finite negative (whole * unitsPerOne) hwhole) ∧
      (IsNearestWhole units whole ↔ ¬ RoundsPast units) ∧
      (RoundsPast units → whole = wholePart units + 1) := by
  obtain ⟨htotal, hsum⟩ := exists_abs_add_half negative h
  refine ⟨_, htotal.wholePart_mul, ?_, ?_⟩
  · have hfloor : (finite false _ htotal).floor? = some (wholePart _ : Int) := rfl
    simp only [round, isFinite, if_true, hsum, hfloor, ofWhole_wholePart htotal]
    rfl
  · rcases wholePart_nearestUnits h with ⟨hpast, hfar, hwhole⟩ | ⟨hpast, hnear⟩
    · rw [hwhole]
      exact ⟨iff_of_false hfar (not_not_intro hpast), fun _ => rfl⟩
    · exact ⟨iff_of_true hnear hpast, fun h => absurd h hpast⟩

/-- The double below one half is rounded to one. -/
theorem round_belowHalf : ∃ hunits hwhole, (finite false belowHalf hunits).round =
    .ok (.finite false (1 * unitsPerOne) hwhole) := by
  have hunits : Representable belowHalf := by decide +kernel
  obtain ⟨whole, hwhole, hround, -, hpast⟩ := round_finite false belowHalf hunits
  have hzero : wholePart belowHalf = 0 := by decide +kernel
  obtain rfl : whole = 1 := by rw [hpast (.inl rfl), hzero]
  exact ⟨hunits, hwhole, hround⟩

end Binary64

end TypedCalc
