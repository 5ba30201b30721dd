import Mathlib.Data.Nat.Dist
import TypedCalc.Proofs.Binary64.Rounding

/-!
# Rounding gives the nearest double

What it means for a double to be nearest to a quotient of whole numbers is said here without any
rounding: no other double is nearer, and one that has another equally near has an even significand.
Distances are compared as whole numbers, on a scale on which the quotient and the doubles are whole.

* `Binary64.dist_nearestUnits_le`, `Binary64.significandEven_nearestUnits`: a rounded count is
  nearest among the counts with at most 53 digits, and even if it is not the only such count.
* `Binary64.isNearest_ofRatio`: so is a rounded quotient among the doubles.
* `Binary64.IsNearest.mono`: rounding keeps the order of numbers.
* `Binary64.IsNearest.unique`: only one number is nearest in that sense, and only one double without
  a sign (`Binary64.IsNearest.eq`).
-/

namespace TypedCalc

/-! ## Multiples of a step -/

theorem nearestNat_cases (num den : Nat) :
    (nearestNat num den = num / den ∧ 2 * (num % den) ≤ den) ∨
      (nearestNat num den = num / den + 1 ∧ den ≤ 2 * (num % den)) := by
  unfold nearestNat
  dsimp only
  split
  · exact .inl ⟨rfl, by omega⟩
  · exact .inr ⟨rfl, by omega⟩

/-- No multiple is nearer than the rounded one. -/
theorem dist_nearestNat_le {den : Nat} (hden : 0 < den) (num k : Nat) :
    num.dist (nearestNat num den * den) ≤ num.dist (k * den) := by
  have hsplit := Nat.div_add_mod' num den
  have hmod := Nat.mod_lt num hden
  have hside : k * den ≤ num / den * den ∨ num / den * den + den ≤ k * den := by
    rcases Nat.lt_or_ge (num / den) k with hlt | hle
    · right
      rw [← Nat.succ_mul]
      exact Nat.mul_le_mul_right den hlt
    · exact .inl (Nat.mul_le_mul_right den hle)
  unfold Nat.dist
  rcases nearestNat_cases num den with ⟨hnearest, hhalf⟩ | ⟨hnearest, hhalf⟩
  · rw [hnearest]
    omega
  · rw [hnearest, Nat.succ_mul]
    omega

/-- If another multiple is equally near, the rounded one is even. -/
theorem even_nearestNat_of_dist_eq {num den k : Nat} (hden : 0 < den)
    (hk : k ≠ nearestNat num den)
    (hdist : num.dist (nearestNat num den * den) = num.dist (k * den)) :
    nearestNat num den % 2 = 0 := by
  have hsplit := Nat.div_add_mod' num den
  have hmod := Nat.mod_lt num hden
  -- one of the two multiples next to the number is the rounded one, and the other is `k`
  have htie : 2 * (num % den) = den := by
    have hside : k * den + den ≤ num / den * den ∨ k = num / den ∨ k = num / den + 1 ∨
        num / den * den + 2 * den ≤ k * den := by
      rcases Nat.lt_or_ge k (num / den) with hlt | hge
      · left
        rw [← Nat.succ_mul]
        exact Nat.mul_le_mul_right den hlt
      · rcases Nat.lt_or_ge (num / den + 1) k with hlt | hle
        · have hmul := Nat.mul_le_mul_right den (Nat.succ_le_of_lt hlt)
          rw [Nat.succ_mul, Nat.succ_mul] at hmul
          omega
        · omega
    have hsucc : (num / den + 1) * den = num / den * den + den := Nat.succ_mul _ _
    unfold Nat.dist at hdist
    rcases nearestNat_cases num den with ⟨hnearest, hhalf⟩ | ⟨hnearest, hhalf⟩
    · rw [hnearest] at hk hdist
      rcases hside with hside | rfl | rfl | hside <;> omega
    · rw [hnearest, hsucc] at hdist
      rw [hnearest] at hk
      rcases hside with hside | rfl | rfl | hside <;> omega
  unfold nearestNat
  dsimp only
  split <;> omega

namespace Binary64

/-! ## Counts with 53 digits -/

/-- The last of the significant digits of a count is zero. -/
def SignificandEven (units : Nat) : Prop := 2 ^ (slack units + 1) ∣ units

instance (units : Nat) : Decidable (SignificandEven units) :=
  inferInstanceAs (Decidable (_ ∣ _))

/-- An even number of steps has an even significand, also where it has one digit more. -/
theorem significandEven_mul_two_pow {m low : Nat} (hm : m ≤ 2 ^ 53) (heven : m % 2 = 0) :
    SignificandEven (m * 2 ^ low) := by
  unfold SignificandEven
  rcases Nat.lt_or_ge m (2 ^ 53) with hlt | hge
  · obtain ⟨half, rfl⟩ := Nat.dvd_of_mod_eq_zero heven
    refine Nat.dvd_trans (Nat.pow_dvd_pow 2 (Nat.succ_le_succ (slack_mul_two_pow_le hlt))) ?_
    exact ⟨half, by rw [Nat.pow_succ, Nat.mul_right_comm, Nat.mul_comm 2]⟩
  · obtain rfl : m = 2 ^ 53 := Nat.le_antisymm hm hge
    rw [← Nat.pow_add, slack_two_pow]
    exact Nat.pow_dvd_pow 2 (by omega)

theorem overflowUnits_eq : ∃ k, overflowUnits = 2 ^ (k + 53) := ⟨2045, by decide +kernel⟩

theorem significandEven_overflowUnits : SignificandEven overflowUnits := by
  obtain ⟨k, hk⟩ := overflowUnits_eq
  rw [SignificandEven, hk, slack_two_pow]
  exact Nat.pow_dvd_pow 2 (by omega)

theorem SignificandEven.dvd {units : Nat} (h : SignificandEven units) : 2 ^ slack units ∣ units :=
  Nat.dvd_trans (Nat.pow_dvd_pow 2 (Nat.le_succ _)) h

/-! ## Magnitudes -/

/-- The rounded count is a whole number of steps, on the scale of the dividend. -/
theorem nearestUnits_mul (num den : Nat) :
    nearestUnits num den * den =
      nearestNat num (den * 2 ^ slack (num / den)) * (den * 2 ^ slack (num / den)) := by
  rw [nearestUnits, Nat.mul_assoc, Nat.mul_comm (2 ^ slack (num / den))]

section

variable {num den : Nat} (hden : 0 < den)

include hden

/-- Below the digits of a quotient there is no count that could be as near as its rounding. -/
theorem dist_nearestUnits_lt {other : Nat} (hlow : 0 < slack (num / den))
    (hother : other < 2 ^ (slack (num / den) + 52)) :
    num.dist (nearestUnits num den * den) < num.dist (other * den) := by
  have hle : 2 ^ (slack (num / den) + 52) * den ≤ num :=
    (Nat.le_div_iff_mul_le hden).mp (two_pow_le_of_slack_pos hlow)
  have hlt : other * den < 2 ^ (slack (num / den) + 52) * den :=
    Nat.mul_lt_mul_of_pos_right hother hden
  have hstep : 2 ^ (slack (num / den) + 52) * den = 2 ^ 52 * (den * 2 ^ slack (num / den)) := by
    rw [Nat.add_comm, Nat.pow_add, Nat.mul_assoc, Nat.mul_comm den]
  have hnearest := dist_nearestNat_le (Nat.mul_pos hden (Nat.two_pow_pos (slack (num / den))))
    num (2 ^ 52)
  rw [← nearestUnits_mul, ← hstep] at hnearest
  unfold Nat.dist at hnearest ⊢
  omega

/-- **No count with 53 digits is nearer** to a quotient than its rounding. -/
theorem dist_nearestUnits_le {other : Nat} (hother : 2 ^ slack other ∣ other) :
    num.dist (nearestUnits num den * den) ≤ num.dist (other * den) := by
  rcases dvd_or_lt_two_pow hother (slack (num / den)) with ⟨k, rfl⟩ | ⟨hlow, hlt⟩
  · rw [nearestUnits_mul, Nat.mul_comm _ k, Nat.mul_assoc k, Nat.mul_comm _ den]
    exact dist_nearestNat_le (Nat.mul_pos hden (Nat.two_pow_pos _)) num k
  · exact Nat.le_of_lt (dist_nearestUnits_lt hden hlow hlt)

/-- **Ties go to the even significand.** -/
theorem significandEven_nearestUnits {other : Nat} (hother : 2 ^ slack other ∣ other)
    (hne : other ≠ nearestUnits num den)
    (hdist : num.dist (nearestUnits num den * den) = num.dist (other * den)) :
    SignificandEven (nearestUnits num den) := by
  rcases dvd_or_lt_two_pow hother (slack (num / den)) with ⟨k, rfl⟩ | ⟨hlow, hlt⟩
  · rw [nearestUnits_mul, Nat.mul_comm _ k, Nat.mul_assoc k, Nat.mul_comm _ den] at hdist
    have hk : k ≠ nearestNat num (den * 2 ^ slack (num / den)) := by
      rintro rfl
      exact hne (Nat.mul_comm _ _)
    exact significandEven_mul_two_pow (nearestNat_slack_le num den)
      (even_nearestNat_of_dist_eq (Nat.mul_pos hden (Nat.two_pow_pos _)) hk hdist)
  · exact absurd hdist (Nat.ne_of_lt (dist_nearestUnits_lt hden hlow hlt))

/-- The rounded count, or the place of the infinity when it lies further out. -/
def nearestRank (num den : Nat) : Nat := min (nearestUnits num den) overflowUnits

/-- A quotient that is rounded past the place of the infinities lies past it itself. -/
theorem overflowUnits_mul_le (h : overflowUnits < nearestUnits num den) :
    overflowUnits * den ≤ num := by
  obtain ⟨k, hk⟩ := overflowUnits_eq
  rw [← Nat.le_div_iff_mul_le hden]
  rw [hk] at h ⊢
  by_contra hlt
  exact absurd (nearestUnits_le_two_pow (Nat.lt_of_not_le hlt)) (Nat.not_le_of_lt h)

theorem dist_nearestRank_le {other : Nat} (hother : 2 ^ slack other ∣ other)
    (hle : other ≤ overflowUnits) :
    num.dist (nearestRank num den * den) ≤ num.dist (other * den) := by
  unfold nearestRank
  rcases Nat.le_total (nearestUnits num den) overflowUnits with hrank | hrank
  · rw [Nat.min_eq_left hrank]
    exact dist_nearestUnits_le hden hother
  · rw [Nat.min_eq_right hrank]
    rcases Nat.eq_or_lt_of_le hrank with heq | hlt
    · rw [heq]
      exact dist_nearestUnits_le hden hother
    · have hpast := overflowUnits_mul_le hden hlt
      have hmul := Nat.mul_le_mul_right den hle
      unfold Nat.dist
      omega

theorem dist_nearestRank_le_self (num : Nat) : num.dist (nearestRank num den * den) ≤ num := by
  have hzero : num.dist (nearestRank num den * den) ≤ num.dist (0 * den) :=
    dist_nearestRank_le hden (Nat.dvd_zero (2 ^ slack 0)) (Nat.zero_le _)
  rwa [Nat.zero_mul, Nat.dist_zero_right] at hzero

theorem significandEven_nearestRank {other : Nat} (hother : 2 ^ slack other ∣ other)
    (hne : other ≠ nearestRank num den)
    (hdist : num.dist (nearestRank num den * den) = num.dist (other * den)) :
    SignificandEven (nearestRank num den) := by
  unfold nearestRank at hne hdist ⊢
  rcases Nat.le_total (nearestUnits num den) overflowUnits with hrank | hrank
  · rw [Nat.min_eq_left hrank] at hne hdist ⊢
    exact significandEven_nearestUnits hden hother hne hdist
  · rw [Nat.min_eq_right hrank]
    exact significandEven_overflowUnits

end

/-! ## Doubles -/

/-- How far a rank is from `num / den`, on the scale on which both are whole. -/
def distanceTo (num : Int) (den : Nat) (rank : Int) : Nat :=
  (num * unitsPerOne - rank * den).natAbs

/-- Whether a double is the one nearest to `num / den`: no double is nearer, and if one of another
rank is equally near, the significand is even.  The infinities stand just past the ends. -/
def IsNearest (num : Int) (den : Nat) (x : Binary64) : Prop :=
  ∃ rank, x.rank? = some rank ∧ ∀ (y : Binary64) (other : Int), y.rank? = some other →
    distanceTo num den rank ≤ distanceTo num den other ∧
      (other ≠ rank → distanceTo num den rank = distanceTo num den other →
        SignificandEven rank.natAbs)

theorem rank?_finite (negative : Bool) (units : Nat) (h : Representable units) :
    (Binary64.finite negative units h).rank? = some (signedUnits negative units) := by
  cases negative <;> rfl

theorem rank?_infinity (negative : Bool) :
    (Binary64.infinity negative).rank? = some (signedUnits negative overflowUnits) := by
  cases negative <;> rfl

theorem natAbs_signedUnits (negative : Bool) (units : Nat) :
    (signedUnits negative units).natAbs = units := by
  cases negative <;> simp [signedUnits]

/-- The ranks are the counts of finite doubles and the places of the infinities. -/
theorem natAbs_rank? {x : Binary64} {rank : Int} (h : x.rank? = some rank) :
    rank.natAbs ≤ overflowUnits ∧ 2 ^ slack rank.natAbs ∣ rank.natAbs := by
  cases x with
  | nan => cases h
  | infinity negative =>
    have hrank : rank.natAbs = overflowUnits := by
      rw [rank?_infinity] at h
      rw [← Option.some.inj h, natAbs_signedUnits]
    rw [hrank]
    exact ⟨Nat.le_refl _, significandEven_overflowUnits.dvd⟩
  | finite negative units hunits =>
    rw [rank?_finite] at h
    cases h
    rw [natAbs_signedUnits]
    exact ⟨Nat.le_of_lt hunits.1, hunits.2⟩

theorem rank?_ofUnits (negative : Bool) (num den : Nat) :
    (ofUnits negative num den).rank? = some (signedUnits negative (nearestRank num den)) := by
  unfold ofUnits nearestRank
  dsimp only
  split
  · rename_i hlt
    rw [Nat.min_eq_left (Nat.le_of_lt hlt)]
    exact rank?_finite negative _ _
  · rename_i hge
    rw [Nat.min_eq_right (Nat.le_of_not_lt hge)]
    exact rank?_infinity negative

section

variable (num : Int) (den : Nat)

theorem natAbs_mul_unitsPerOne : (num * unitsPerOne).natAbs = num.natAbs * unitsPerOne := by
  rw [Int.natAbs_mul, Int.natAbs_natCast]

theorem mul_unitsPerOne_neg_iff : num * unitsPerOne < 0 ↔ num < 0 :=
  ⟨fun h => Int.lt_of_not_ge fun hnum =>
      absurd (Int.mul_nonneg hnum (Int.natCast_nonneg unitsPerOne)) (Int.not_le.mpr h),
    fun h => Int.mul_neg_of_neg_of_pos h (Int.natCast_pos.mpr unitsPerOne_pos)⟩

/-- On the side of the dividend, distances are those of the magnitudes. -/
theorem distanceTo_same_side (units : Nat) :
    distanceTo num den (signedUnits (decide (num < 0)) units) =
      (num.natAbs * unitsPerOne).dist (units * den) := by
  have hnum := mul_unitsPerOne_neg_iff num
  rw [← natAbs_mul_unitsPerOne, distanceTo, Nat.dist]
  by_cases hneg : num < 0
  · simp only [hneg, decide_true, signedUnits, if_true, Int.neg_mul, ← Int.natCast_mul]
    omega
  · simp only [hneg, decide_false, signedUnits, if_false, Bool.false_eq_true, ← Int.natCast_mul]
    omega

/-- On the other side they add up. -/
theorem distanceTo_other_side (units : Nat) :
    distanceTo num den (signedUnits (!decide (num < 0)) units) =
      num.natAbs * unitsPerOne + units * den := by
  have hnum := mul_unitsPerOne_neg_iff num
  rw [← natAbs_mul_unitsPerOne, distanceTo]
  by_cases hneg : num < 0
  · simp only [hneg, decide_true, Bool.not_true, signedUnits, if_false, Bool.false_eq_true,
      ← Int.natCast_mul]
    omega
  · simp only [hneg, decide_false, Bool.not_false, signedUnits, if_true, Int.neg_mul,
      ← Int.natCast_mul]
    omega

/-- A rank is on the side of the dividend or on the other side. -/
theorem eq_signedUnits_natAbs (rank : Int) :
    rank = signedUnits (decide (num < 0)) rank.natAbs ∨
      rank = signedUnits (!decide (num < 0)) rank.natAbs := by
  cases decide (num < 0) <;> simp only [signedUnits, Bool.not_true, Bool.not_false, if_true,
    if_false, Bool.false_eq_true] <;> omega

end

/-- **A rounded quotient is the nearest double**, ties going to the even significand. -/
theorem isNearest_ofRatio {den : Nat} (hden : 0 < den) (num : Int) :
    IsNearest num den (ofRatio (decide (num < 0)) num.natAbs den) := by
  refine ⟨_, rank?_ofUnits _ _ _, fun y other hother => ?_⟩
  obtain ⟨hle, hdvd⟩ := natAbs_rank? hother
  rw [distanceTo_same_side, natAbs_signedUnits]
  rcases eq_signedUnits_natAbs num other with hside | hside
  · rw [hside, distanceTo_same_side]
    refine ⟨dist_nearestRank_le hden hdvd hle, fun hne htie => ?_⟩
    exact significandEven_nearestRank hden hdvd (fun heq => hne (by rw [heq])) htie
  · -- zero is already at least as near as anything on the other side
    have hzero := dist_nearestRank_le_self hden (num.natAbs * unitsPerOne)
    rw [hside, distanceTo_other_side]
    refine ⟨Nat.le_trans hzero (Nat.le_add_right _ _), fun hne htie => ?_⟩
    have hother : other.natAbs = 0 :=
      (Nat.mul_eq_zero.mp (by omega)).resolve_right (Nat.ne_of_gt hden)
    refine significandEven_nearestRank hden (Nat.dvd_zero (2 ^ slack 0)) (fun heq => hne ?_) ?_
    · rw [hother, ← heq]
      cases decide (num < 0) <;> rfl
    · rw [Nat.zero_mul, Nat.dist_zero_right, htie, hother, Nat.zero_mul, Nat.add_zero]

/-! ## Rounding keeps the order -/

/-- **Rounding is monotone.**  If it were not, each of two numbers would be on the other side of the
middle of their roundings. -/
theorem IsNearest.mono {num num' : Int} {den : Nat} (hden : 0 < den) {x y : Binary64}
    (hx : IsNearest num den x) (hy : IsNearest num' den y) (hlt : num < num') {rank rank' : Int}
    (hrank : x.rank? = some rank) (hrank' : y.rank? = some rank') : rank ≤ rank' := by
  obtain ⟨_, hfound, hnearest⟩ := hx
  obtain ⟨_, hfound', hnearest'⟩ := hy
  obtain rfl := Option.some.inj (hfound.symm.trans hrank)
  obtain rfl := Option.some.inj (hfound'.symm.trans hrank')
  by_contra hreversed
  have hunits := Int.mul_lt_mul_of_pos_right hlt (Int.natCast_pos.mpr unitsPerOne_pos)
  have hranks := Int.mul_lt_mul_of_pos_right (Int.not_le.mp hreversed) (Int.natCast_pos.mpr hden)
  have hleft := (hnearest y _ hrank').1
  have hright := (hnearest' x _ hrank).1
  unfold distanceTo at hleft hright
  omega

/-! ## Only one number is nearest -/

/-- Between two even significands there is another count. -/
theorem exists_count_between {low high : Nat} (hlow : SignificandEven low)
    (hhigh : SignificandEven high) (hlt : low < high) (hle : high ≤ overflowUnits) :
    ∃ units, Representable units ∧ low < units ∧ units < high := by
  have hstep : 2 ^ (slack low + 1) = 2 * 2 ^ slack low := by rw [Nat.pow_succ, Nat.mul_comm]
  have hslack : slack low ≤ slack high :=
    slack_le_of_lt (Nat.lt_trans hlt (lt_two_pow_slack high))
  have hpos := Nat.two_pow_pos (slack low)
  have hroom : low + 2 * 2 ^ slack low ≤ high := by
    obtain ⟨m, hm⟩ := hlow
    obtain ⟨n, hn⟩ := Nat.dvd_trans (Nat.pow_dvd_pow 2 (Nat.add_le_add_right hslack 1)) hhigh
    have hmn : m < n := by
      refine Nat.lt_of_mul_lt_mul_left (a := 2 ^ (slack low + 1)) ?_
      rw [← hm, ← hn]
      exact hlt
    have hmul := Nat.mul_le_mul_left (2 ^ (slack low + 1)) (Nat.succ_le_of_lt hmn)
    rw [Nat.mul_succ, ← hm, ← hn] at hmul
    omega
  obtain ⟨m, hm⟩ := hlow.dvd
  have hdigits : m < 2 ^ 53 := by
    have hlog := lt_two_pow_slack low
    rw [Nat.pow_add] at hlog
    exact Nat.lt_of_mul_lt_mul_left (Nat.lt_of_le_of_lt (Nat.le_of_eq hm.symm) hlog)
  have hunits : low + 2 ^ slack low = (m + 1) * 2 ^ slack low := by
    rw [Nat.succ_mul, Nat.mul_comm m, ← hm]
  refine ⟨low + 2 ^ slack low, ⟨by omega, ?_⟩, by omega, by omega⟩
  rw [hunits]
  exact slack_dvd_mul_two_pow hdigits

/-- Between two even ranks there is a double. -/
theorem exists_rank_between {x y : Binary64} {low high : Int} (hx : x.rank? = some low)
    (hy : y.rank? = some high) (hlow : SignificandEven low.natAbs)
    (hhigh : SignificandEven high.natAbs) (hlt : low < high) :
    ∃ (z : Binary64) (rank : Int), z.rank? = some rank ∧ low < rank ∧ rank < high := by
  obtain ⟨hlowLe, -⟩ := natAbs_rank? hx
  obtain ⟨hhighLe, -⟩ := natAbs_rank? hy
  rcases Int.lt_or_le low 0 with hneg | hnonneg
  · rcases Int.lt_or_le 0 high with hpos | hnonpos
    · exact ⟨zero false, 0, rfl, hneg, hpos⟩
    · obtain ⟨units, hunits, habove, hbelow⟩ :=
        exists_count_between hhigh hlow (by omega) hlowLe
      exact ⟨.finite true units hunits, -units, rfl, by omega, by omega⟩
  · obtain ⟨units, hunits, habove, hbelow⟩ :=
      exists_count_between hlow hhigh (by omega) hhighLe
    exact ⟨.finite false units hunits, units, rfl, by omega, by omega⟩

/-- Of two even ranks that are equally near, neither is nearest. -/
theorem exists_nearer {num : Int} {den : Nat} (hden : 0 < den) {x y : Binary64} {low high : Int}
    (hx : x.rank? = some low) (hy : y.rank? = some high) (hlow : SignificandEven low.natAbs)
    (hhigh : SignificandEven high.natAbs) (hlt : low < high)
    (htie : distanceTo num den low = distanceTo num den high) :
    ∃ (z : Binary64) (rank : Int), z.rank? = some rank ∧
      distanceTo num den rank < distanceTo num den low := by
  obtain ⟨z, rank, hz, habove, hbelow⟩ := exists_rank_between hx hy hlow hhigh hlt
  have hden' : (0 : Int) < den := Int.natCast_pos.mpr hden
  have hleft := Int.mul_lt_mul_of_pos_right habove hden'
  have hright := Int.mul_lt_mul_of_pos_right hbelow hden'
  refine ⟨z, rank, hz, ?_⟩
  unfold distanceTo at htie ⊢
  omega

/-- **Only one number is nearest**: two doubles that are have one rank. -/
theorem IsNearest.unique {num : Int} {den : Nat} (hden : 0 < den) {x y : Binary64}
    (hx : IsNearest num den x) (hy : IsNearest num den y) : x.rank? = y.rank? := by
  obtain ⟨rank, hrank, hnearest⟩ := hx
  obtain ⟨other, hother, hnearest'⟩ := hy
  have htie : distanceTo num den rank = distanceTo num den other :=
    Nat.le_antisymm (hnearest y other hother).1 (hnearest' x rank hrank).1
  rw [hrank, hother]
  by_contra hne
  have hdifferent : rank ≠ other := fun heq => hne (by rw [heq])
  have heven := (hnearest y other hother).2 hdifferent.symm htie
  have heven' := (hnearest' x rank hrank).2 hdifferent htie.symm
  rcases Int.lt_or_gt_of_ne hdifferent with hlt | hgt
  · obtain ⟨z, between, hz, hnearer⟩ := exists_nearer hden hrank hother heven heven' hlt htie
    exact absurd (hnearest z between hz).1 (Nat.not_le.mpr hnearer)
  · obtain ⟨z, between, hz, hnearer⟩ :=
      exists_nearer hden hother hrank heven' heven hgt htie.symm
    exact absurd (hnearest' z between hz).1 (Nat.not_le.mpr hnearer)

/-- A double without a sign is told by its place on the line. -/
theorem eq_of_rank? {x : Binary64} {rank : Int} (hsign : x.isNegative = false)
    (h : x.rank? = some rank) :
    x = .infinity false ∧ rank = overflowUnits ∨
      ∃ (units : Nat) (hunits : Representable units),
        x = .finite false units hunits ∧ rank = units := by
  cases x with
  | nan => cases h
  | infinity negative =>
    obtain rfl : negative = false := hsign
    exact .inl ⟨rfl, (Option.some.inj h).symm⟩
  | finite negative units hunits =>
    obtain rfl : negative = false := hsign
    exact .inr ⟨units, hunits, rfl, (Option.some.inj h).symm⟩

/-- Only one double without a sign is nearest. -/
theorem IsNearest.eq {num : Int} {den : Nat} (hden : 0 < den) {x y : Binary64}
    (hx : IsNearest num den x) (hy : IsNearest num den y) (hxsign : x.isNegative = false)
    (hysign : y.isNegative = false) : x = y := by
  have hplaces := hx.unique hden hy
  obtain ⟨rank, hrank, -⟩ := hx
  rcases eq_of_rank? hxsign hrank with ⟨rfl, hplace⟩ | ⟨m, hm, rfl, hplace⟩ <;>
    rcases eq_of_rank? hysign (hplaces.symm.trans hrank) with
      ⟨rfl, hplace'⟩ | ⟨n, hn, rfl, hplace'⟩
  · rfl
  · exact absurd (Int.natCast_inj.mp (hplace'.symm.trans hplace)) (Nat.ne_of_lt hn.1)
  · exact absurd (Int.natCast_inj.mp (hplace.symm.trans hplace')) (Nat.ne_of_lt hm.1)
  · obtain rfl := Int.natCast_inj.mp (hplace.symm.trans hplace')
    rfl

end Binary64

end TypedCalc
