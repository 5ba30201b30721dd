import TypedCalc.Binary64.Elementary

/-!
# Where rounding leaves the finite doubles

A whole count of units stays below a power of two when it is rounded exactly if it is more than half
a step away from that power.

* `Binary64.ofInt?_eq_none_iff`: which whole numbers are too large for a double.
* `Binary64.exists_floor_eq_ok`, `Binary64.exists_ceil_eq_ok`, `Binary64.exists_round_eq_ok`:
  rounding to a whole number always gives a double.
-/

namespace TypedCalc

/-- Rounding to a whole number reaches an even bound from half a step below it on. -/
theorem nearestNat_lt_iff {num half bound : Nat} (hhalf : 0 < half) (heven : bound % 2 = 0)
    (hnum : num < bound * (2 * half)) :
    nearestNat num (2 * half) < bound ↔ num + half < bound * (2 * half) := by
  have hstep : 0 < 2 * half := by omega
  have hsplit := Nat.div_add_mod' num (2 * half)
  have hmod := Nat.mod_lt num hstep
  have hquotient : num / (2 * half) < bound := (Nat.div_lt_iff_lt_mul hstep).mpr hnum
  rcases Nat.lt_or_ge (num / (2 * half) + 1) bound with hlt | hge
  · have hnearest := nearestNat_le num (2 * half)
    have hmul : (num / (2 * half) + 2) * (2 * half) ≤ bound * (2 * half) :=
      Nat.mul_le_mul_right _ hlt
    rw [Nat.add_mul] at hmul
    exact ⟨fun _ => by omega, fun _ => by omega⟩
  · have hbound : bound = num / (2 * half) + 1 := by omega
    have hodd : num / (2 * half) % 2 ≠ 0 := by omega
    have hmul : bound * (2 * half) = num / (2 * half) * (2 * half) + 2 * half := by
      rw [hbound, Nat.add_mul, Nat.one_mul]
    unfold nearestNat
    dsimp only
    split
    · rename_i hdown
      exact ⟨fun _ => by omega, fun _ => by omega⟩
    · rename_i hup
      exact ⟨fun _ => by omega, fun _ => by omega⟩

namespace Binary64

/-! ## Counts with 53 digits -/

theorem two_pow_le_of_slack_pos {units : Nat} (h : 0 < slack units) :
    2 ^ (slack units + 52) ≤ units := by
  have hlog : slack units + 52 = units.log2 := by
    unfold slack at h ⊢
    omega
  rw [hlog]
  refine Nat.log2_self_le ?_
  rintro rfl
  exact absurd h (by decide)

/-- A count with 53 digits is a multiple of any step, or too small to have that step. -/
theorem dvd_or_lt_two_pow {units : Nat} (h : 2 ^ slack units ∣ units) (low : Nat) :
    2 ^ low ∣ units ∨ 0 < low ∧ units < 2 ^ (low + 52) := by
  rcases Nat.lt_or_ge (slack units) low with hlt | hge
  · right
    refine ⟨by omega, Nat.lt_of_lt_of_le (lt_two_pow_slack units) ?_⟩
    exact Nat.pow_le_pow_right (by decide) (by omega)
  · exact .inl (Nat.dvd_trans (Nat.pow_dvd_pow 2 hge) h)

theorem slack_mul_two_pow_le {m low : Nat} (h : m < 2 ^ 53) : slack (m * 2 ^ low) ≤ low := by
  apply slack_le_of_lt
  rw [Nat.add_comm, Nat.pow_add]
  exact Nat.mul_lt_mul_of_pos_right h (Nat.two_pow_pos low)

theorem slack_two_pow (k : Nat) : slack (2 ^ k) = k - 52 := by
  rw [slack, Nat.log2_two_pow]

/-- A whole number of steps with at most 53 digits, or `2 ^ 53` steps, is a count with 53 digits. -/
theorem slack_dvd_mul_two_pow {m low : Nat} (h : m ≤ 2 ^ 53) :
    2 ^ slack (m * 2 ^ low) ∣ m * 2 ^ low := by
  rcases Nat.lt_or_ge m (2 ^ 53) with hlt | hge
  · exact Nat.dvd_trans (Nat.pow_dvd_pow 2 (slack_mul_two_pow_le hlt)) (Nat.dvd_mul_left _ _)
  · obtain rfl : m = 2 ^ 53 := Nat.le_antisymm h hge
    rw [← Nat.pow_add, slack_two_pow]
    exact Nat.pow_dvd_pow 2 (Nat.sub_le _ _)

/-- Below a power of two there is room for a step. -/
theorem add_two_pow_le {units k : Nat} (h : 2 ^ slack units ∣ units) (hlt : units < 2 ^ (k + 53)) :
    units + 2 ^ k ≤ 2 ^ (k + 53) := by
  have htop : 2 ^ (k + 53) = 2 ^ k * 2 ^ 53 := Nat.pow_add 2 k 53
  rcases dvd_or_lt_two_pow h k with ⟨m, rfl⟩ | ⟨-, hlow⟩
  · rw [htop, Nat.mul_lt_mul_left (Nat.two_pow_pos k)] at hlt
    rw [htop, ← Nat.mul_succ]
    exact Nat.mul_le_mul_left _ hlt
  · have hpos := Nat.two_pow_pos k
    rw [Nat.pow_add] at hlow
    omega

/-! ## Rounding a count -/

theorem nearestUnits_one (num : Nat) :
    nearestUnits num 1 = nearestNat num (2 ^ slack num) * 2 ^ slack num := by
  simp only [nearestUnits, Nat.div_one, Nat.one_mul]

/-- Rounding does not fall below a multiple of the step. -/
theorem le_nearestUnits_of_dvd {num bound : Nat} (h : bound ≤ num) (hdvd : 2 ^ slack num ∣ bound) :
    bound ≤ nearestUnits num 1 := by
  obtain ⟨k, rfl⟩ := hdvd
  rw [nearestUnits_one, Nat.mul_comm _ k]
  rw [Nat.mul_comm, ← Nat.le_div_iff_mul_le (Nat.two_pow_pos _)] at h
  exact Nat.mul_le_mul_right _ (Nat.le_trans h (le_nearestNat _ _))

/-- Nor does it rise above one. -/
theorem nearestUnits_le_of_dvd {num bound : Nat} (h : num ≤ bound) (hdvd : 2 ^ slack num ∣ bound) :
    nearestUnits num 1 ≤ bound := by
  obtain ⟨k, rfl⟩ := hdvd
  rw [nearestUnits_one, Nat.mul_comm _ k]
  refine Nat.mul_le_mul_right _ ?_
  generalize slack num = low at *
  rcases Nat.eq_or_lt_of_le h with heq | hlt
  · rw [heq, Nat.mul_comm]
    exact Nat.le_of_eq (nearestNat_mul_right _ _ (Nat.two_pow_pos _))
  · exact Nat.le_trans (nearestNat_le _ _) (Nat.div_lt_of_lt_mul hlt)

/-- Rounding does not fall below a power of two. -/
theorem two_pow_le_nearestUnits {num m : Nat} (h : 2 ^ m ≤ num) : 2 ^ m ≤ nearestUnits num 1 := by
  rcases Nat.le_total (slack num) m with hslack | hslack
  · exact le_nearestUnits_of_dvd h (Nat.pow_dvd_pow 2 hslack)
  · have hne : num ≠ 0 := Nat.ne_of_gt (Nat.lt_of_lt_of_le (Nat.two_pow_pos m) h)
    have hstep : 2 ^ slack num ≤ num :=
      Nat.le_trans (Nat.pow_le_pow_right (by decide) (Nat.sub_le _ _)) (Nat.log2_self_le hne)
    calc 2 ^ m ≤ 2 ^ slack num := Nat.pow_le_pow_right (by decide) hslack
      _ ≤ nearestUnits num 1 := le_nearestUnits_of_dvd hstep (Nat.dvd_refl _)

/-- A count is rounded to `2 ^ (k + 54)` or more from half a step below that power on. -/
theorem nearestUnits_lt_two_pow_iff (num k : Nat) :
    nearestUnits num 1 < 2 ^ (k + 54) ↔ num + 2 ^ k < 2 ^ (k + 54) := by
  have hstep : 2 ^ (k + 1) = 2 * 2 ^ k := by rw [Nat.pow_succ, Nat.mul_comm]
  have htop : 2 ^ (k + 54) = 2 ^ 53 * (2 * 2 ^ k) := by
    rw [Nat.pow_add]
    omega
  have hhalf : 2 ^ (k + 53) = 2 ^ 53 * 2 ^ k := by rw [Nat.pow_add, Nat.mul_comm]
  have hpos : 0 < 2 ^ k := Nat.two_pow_pos k
  rcases Nat.lt_or_ge num (2 ^ (k + 53)) with hlow | hhigh
  · -- one binade lower there is room for any rounding
    have hle : nearestUnits num 1 ≤ 2 ^ (k + 53) := nearestUnits_le_two_pow (by rwa [Nat.div_one])
    exact ⟨fun _ => by omega, fun _ => by omega⟩
  rcases Nat.lt_or_ge num (2 ^ (k + 54)) with htop' | hpast
  · have hne : num ≠ 0 := by omega
    have hlog : num.log2 = k + 53 := (Nat.log2_eq_iff hne).mpr ⟨hhigh, htop'⟩
    have hslack : slack num = k + 1 := by rw [slack, hlog]; rfl
    have hunits : nearestUnits num 1 = nearestNat num (2 * 2 ^ k) * (2 * 2 ^ k) := by
      rw [nearestUnits_one, hslack, hstep]
    rw [hunits, htop, Nat.mul_lt_mul_right (by omega)]
    exact nearestNat_lt_iff hpos (by decide) (htop ▸ htop')
  · have hle := two_pow_le_nearestUnits hpast
    exact ⟨fun _ => by omega, fun _ => by omega⟩

/-! ## Whole numbers -/

/-- Half of the step between the largest doubles, in units. -/
def halfStep : Nat := 2 ^ 2044

/-- The least whole number that is too large for a double. -/
def integerBound : Nat := 2 ^ 1024 - 2 ^ 970

theorem exists_halfStep : ∃ k, halfStep = 2 ^ k ∧ overflowUnits = 2 ^ (k + 54) :=
  ⟨2044, by decide +kernel, by decide +kernel⟩

theorem isFinite_ofUnits_iff (negative : Bool) (num den : Nat) :
    (ofUnits negative num den).isFinite = true ↔ nearestUnits num den < overflowUnits := by
  unfold ofUnits
  by_cases h : nearestUnits num den < overflowUnits
  · simp only [h, dif_pos, isFinite]
  · simp only [h, dif_neg, isFinite, not_false_eq_true, Bool.false_eq_true]

theorem exists_ofUnits_eq_finite {negative : Bool} {num den : Nat}
    (h : (ofUnits negative num den).isFinite = true) :
    ∃ hunits, ofUnits negative num den = .finite negative (nearestUnits num den) hunits := by
  have hlt := (isFinite_ofUnits_iff negative num den).mp h
  refine ⟨⟨hlt, slack_dvd_nearestUnits num den⟩, ?_⟩
  unfold ofUnits
  simp only [dif_pos hlt]

theorem isFinite_ofUnits_one_iff (negative : Bool) (num : Nat) :
    (ofUnits negative num 1).isFinite = true ↔ num + halfStep < overflowUnits := by
  obtain ⟨k, hhalf, htop⟩ := exists_halfStep
  rw [isFinite_ofUnits_iff, hhalf, htop, nearestUnits_lt_two_pow_iff]

theorem isSome_ofInt?_iff (n : Int) :
    (ofInt? n).isSome = true ↔ n.natAbs * unitsPerOne + halfStep < overflowUnits := by
  rw [← isFinite_ofUnits_one_iff (decide (n < 0))]
  simp only [ofInt?, ofRatio?, ofRatio]
  exact Option.isSome_ite

/-- **The whole numbers that are too large** are those of magnitude `2 ^ 1024 - 2 ^ 970` or more:
half a step past the largest double. -/
theorem ofInt?_eq_none_iff (n : Int) : ofInt? n = none ↔ integerBound ≤ n.natAbs := by
  obtain ⟨top, half, htop, hhalf, hbound, hle⟩ :
      ∃ top half, overflowUnits = top * unitsPerOne ∧ halfStep = half * unitsPerOne ∧
        integerBound = top - half ∧ half ≤ top :=
    ⟨2 ^ 1024, 2 ^ 970, by decide +kernel, by decide +kernel, rfl, by decide +kernel⟩
  have hsome := isSome_ofInt?_iff n
  rw [htop, hhalf, ← Nat.add_mul, Nat.mul_lt_mul_right unitsPerOne_pos] at hsome
  rw [← Option.not_isSome_iff_eq_none, hsome, hbound]
  omega

/-- The largest doubles are a whole step below the first count that is none. -/
theorem Representable.add_halfStep_le {units : Nat} (h : Representable units) :
    units + 2 * halfStep ≤ overflowUnits := by
  obtain ⟨k, hhalf, htop⟩ := exists_halfStep
  have hstep : 2 ^ (k + 1) = 2 * 2 ^ k := by rw [Nat.pow_succ, Nat.mul_comm]
  rw [hhalf, htop, ← hstep]
  exact add_two_pow_le h.2 (htop ▸ h.1)

theorem exists_ofWhole_of_isSome {n : Int} (h : (ofInt? n).isSome = true) :
    ∃ x, ofWhole n = .ok x := by
  obtain ⟨x, hx⟩ := Option.isSome_iff_exists.mp h
  refine ⟨x, ?_⟩
  unfold ofWhole
  rw [hx]
  rfl

/-- A whole number next to a double is not too large. -/
theorem exists_ofWhole_eq_ok {units : Nat} (h : Representable units) {n : Int}
    (hn : n.natAbs ≤ units / unitsPerOne + 1) : ∃ x, ofWhole n = .ok x := by
  have hunits : unitsPerOne < halfStep := by decide +kernel
  have hmul := Nat.mul_le_mul_right unitsPerOne hn
  have hdiv := Nat.div_mul_le_self units unitsPerOne
  have hstep := h.add_halfStep_le
  rw [Nat.add_mul, Nat.one_mul] at hmul
  refine exists_ofWhole_of_isSome ((isSome_ofInt?_iff n).mpr ?_)
  omega

theorem natAbs_signedUnits_ediv_le (negative : Bool) (units : Nat) {den : Nat} (hden : 0 < den) :
    (signedUnits negative units / (den : Int)).natAbs ≤ units / den + 1 := by
  cases negative with
  | false =>
    show ((units : Int) / (den : Int)).natAbs ≤ _
    rw [← Int.natCast_ediv, Int.natAbs_natCast]
    omega
  | true =>
    show (-(units : Int) / (den : Int)).natAbs ≤ _
    have hden' : (0 : Int) < den := Int.natCast_pos.mpr hden
    have hlow : -((units / den + 1 : Nat) : Int) ≤ -(units : Int) / (den : Int) := by
      rw [Int.le_ediv_iff_mul_le hden', Int.neg_mul, ← Int.natCast_mul]
      have hlt := Nat.lt_mul_div_succ units hden
      rw [Nat.mul_comm] at hlt
      omega
    have hhigh : -(units : Int) / (den : Int) ≤ 0 :=
      Int.ediv_nonpos_of_nonpos_of_neg (by omega) hden'
    omega

theorem natAbs_floor?_le {negative : Bool} {units : Nat} {h : Representable units} {n : Int}
    (hn : (Binary64.finite negative units h).floor? = some n) :
    n.natAbs ≤ units / unitsPerOne + 1 := by
  rw [← Option.some.inj hn]
  exact natAbs_signedUnits_ediv_le negative units unitsPerOne_pos

theorem natAbs_ceil?_le {negative : Bool} {units : Nat} {h : Representable units} {n : Int}
    (hn : (Binary64.finite negative units h).ceil? = some n) :
    n.natAbs ≤ units / unitsPerOne + 1 := by
  have hneg : -signedUnits negative units = signedUnits (!negative) units := by
    cases negative <;> simp [signedUnits]
  rw [← Option.some.inj hn, Int.natAbs_neg, hneg]
  exact natAbs_signedUnits_ediv_le _ units unitsPerOne_pos

theorem exists_floor_eq_ok (x : Binary64) : ∃ y, x.floor = .ok y := by
  unfold floor
  cases hfloor : x.floor? with
  | none => exact ⟨x, rfl⟩
  | some n =>
    cases x with
    | finite negative units h => exact exists_ofWhole_eq_ok h (natAbs_floor?_le hfloor)
    | nan | infinity => exact nomatch hfloor

theorem exists_ceil_eq_ok (x : Binary64) : ∃ y, x.ceil = .ok y := by
  unfold ceil
  cases hceil : x.ceil? with
  | none => exact ⟨x, rfl⟩
  | some n =>
    cases x with
    | finite negative units h => exact exists_ofWhole_eq_ok h (natAbs_ceil?_le hceil)
    | nan | infinity => exact nomatch hceil

theorem half_eq : ∃ h, half = .finite false (unitsPerOne / 2) h :=
  ⟨by decide +kernel, by decide +kernel⟩

theorem abs_add_half (negative : Bool) {units : Nat} (h : Representable units) :
    (Binary64.finite negative units h).abs.add half =
      ofUnits false (units + unitsPerOne / 2) 1 := by
  obtain ⟨hhalf, heq⟩ := half_eq
  have htotal : signedUnits false units + signedUnits false (unitsPerOne / 2) =
      ((units + unitsPerOne / 2 : Nat) : Int) := (Int.natCast_add _ _).symm
  have hpos : unitsPerOne / 2 ≠ 0 := by decide +kernel
  have hne : ((units + unitsPerOne / 2 : Nat) : Int) ≠ 0 := by omega
  rw [heq]
  simp only [abs, withSign, add, htotal, if_neg hne, Int.natAbs_natCast]
  rw [decide_eq_false (by omega)]

/-- Half of one can be added to a magnitude without leaving the finite doubles. -/
theorem exists_abs_add_half (negative : Bool) {units : Nat} (h : Representable units) :
    ∃ h', (Binary64.finite negative units h).abs.add half =
      .finite false (nearestUnits (units + unitsPerOne / 2) 1) h' := by
  have hunits : unitsPerOne < halfStep := by decide +kernel
  have hone := unitsPerOne_pos
  have hstep := h.add_halfStep_le
  rw [abs_add_half]
  refine exists_ofUnits_eq_finite ((isFinite_ofUnits_one_iff _ _).mpr ?_)
  omega

theorem exists_round_eq_ok (x : Binary64) : ∃ y, x.round = .ok y := by
  cases x with
  | finite negative units h =>
    obtain ⟨h', hsum⟩ := exists_abs_add_half negative h
    obtain ⟨n, hfloor⟩ : ∃ n, (Binary64.finite false _ h').floor? = some n := ⟨_, rfl⟩
    obtain ⟨y, hy⟩ := exists_ofWhole_eq_ok h' (natAbs_floor?_le hfloor)
    refine ⟨y.withSign negative, ?_⟩
    simp only [round, isFinite, if_true, hsum, hfloor, hy]
    rfl
  | nan => exact ⟨_, rfl⟩
  | infinity negative => exact ⟨_, rfl⟩

end Binary64

end TypedCalc
