import TypedCalc.Proofs.Binary64.Exact
import TypedCalc.Proofs.Operand.Division
import TypedCalc.Proofs.Value.Convert

/-!
# Casts between doubles and integers

A cast of a double to an integer type cuts off the fraction and stops at the ends of the range.  The
places of the infinities lie far outside every range, so one formula on places covers them too, and
the cast keeps the order.  An integer that is cast to a double is rounded, which keeps the order as
well and moves a number of 64 bits by half a step of `2 ^ 11` at most.

* `IntegerType.SaturatesTo`: the number of a type that a double is cut down to.
* `IntegerType.saturate_eq_of_rank?`: the formula on places.
* `Binary64.IsNearest.natAbs_sub_le`: how far an integer is from its double.
* `Value.casts_saturate`: casts of doubles, and of integers to doubles and back.
-/

namespace TypedCalc

open Binary64

/-- The number of a type that a double is cut down to: zero for not-a-number, an end of the range
for an infinity, and otherwise the whole part, or the end of the range that the whole part is
past. -/
inductive IntegerType.SaturatesTo (type : IntegerType) : Binary64 → Int → Prop
  /-- Not-a-number. -/
  | nan : type.SaturatesTo .nan 0
  /-- Minus infinity. -/
  | minusInfinity : type.SaturatesTo (.infinity true) type.minimum
  /-- Plus infinity. -/
  | plusInfinity : type.SaturatesTo (.infinity false) type.maximum
  /-- A finite double. -/
  | finite {x : Binary64} {q : ℚ} (h : x.value? = some q) :
    type.SaturatesTo x (max type.minimum (min type.maximum (Operand.truncate q)))

/-! ## Places of doubles -/

namespace Binary64

/-- The infinities stand where a whole number would that no type has. -/
theorem exists_tdiv_rank?_infinity (negative : Bool) :
    ∃ whole, 2 ^ 64 ≤ whole ∧
      (signedUnits negative overflowUnits).tdiv unitsPerOne = signedUnits negative whole := by
  obtain ⟨whole, hwhole, hle⟩ : ∃ whole, overflowUnits = whole * unitsPerOne ∧ 2 ^ 64 ≤ whole :=
    ⟨2 ^ 1024, by decide +kernel, by decide +kernel⟩
  have hone : (unitsPerOne : Int) ≠ 0 := Int.natCast_ne_zero.mpr (Nat.ne_of_gt unitsPerOne_pos)
  refine ⟨whole, hle, ?_⟩
  rw [hwhole, ← signedUnits_mul, Int.mul_tdiv_cancel _ hone]

theorem truncate?_finite (negative : Bool) (units : Nat) (h : Representable units) :
    (Binary64.finite negative units h).truncate? =
      some ((signedUnits negative units).tdiv unitsPerOne) := by
  cases negative with
  | false => rfl
  | true =>
    have hquotient : (-(units : Int)).tdiv unitsPerOne = -((units / unitsPerOne : Nat) : Int) :=
      Int.neg_tdiv _ _
    exact congrArg some hquotient.symm

/-- Whole multiples of `2 ^ low` with at most 53 digits have a place. -/
theorem exists_rank?_eq {k : Int} {low : Nat} (hk : k.natAbs ≤ 2 ^ 53)
    (hlow : 2 ^ 53 * 2 ^ low < overflowUnits) :
    ∃ x : Binary64, x.rank? = some (k * 2 ^ low) := by
  refine ⟨.finite (decide (k < 0)) _ (representable_mul_two_pow hk hlow), ?_⟩
  rw [rank?_finite, ← signedUnits_mul, signedUnits_natAbs]
  push_cast
  rfl

/-- **A number of 64 bits is at most `2 ^ 10` from its double**, since there is a multiple of
`2 ^ 11` that near. -/
theorem IsNearest.natAbs_sub_le {n : Int} {x : Binary64} {rank : Int} (h : IsNearest n 1 x)
    (hrank : x.rank? = some rank) (hn : n.natAbs ≤ 2 ^ 64) :
    (rank - n * unitsPerOne).natAbs ≤ 2 ^ 10 * unitsPerOne := by
  obtain ⟨_, hfound, hnearest⟩ := h
  obtain rfl := Option.some.inj (hfound.symm.trans hrank)
  obtain ⟨low, hunits, hlow⟩ :
      ∃ low, (2 : Int) ^ low = 2 ^ 11 * unitsPerOne ∧ 2 ^ 53 * 2 ^ low < overflowUnits :=
    ⟨1085, by decide +kernel, by decide +kernel⟩
  -- the multiple is the one that is nearest from below to the number and half a step
  obtain ⟨k, hk, hnear⟩ : ∃ k : Int, k.natAbs ≤ 2 ^ 53 ∧ (n - k * 2 ^ 11).natAbs ≤ 2 ^ 10 :=
    ⟨(n + 2 ^ 10) / 2 ^ 11, by omega, by omega⟩
  obtain ⟨y, hy⟩ := exists_rank?_eq hk hlow
  have hle := (hnearest y _ hy).1
  have hfar : distanceTo n 1 (k * 2 ^ low) = (n - k * 2 ^ 11).natAbs * unitsPerOne := by
    rw [distanceTo, Nat.cast_one, Int.mul_one, hunits, ← natAbs_mul_unitsPerOne, Int.sub_mul,
      ← Int.mul_assoc]
  have hmul := Nat.mul_le_mul_right unitsPerOne hnear
  rw [hfar, distanceTo] at hle
  omega

end Binary64

/-! ## Cutting down to a range -/

namespace IntegerType

variable {type : IntegerType} {n m : Int} {x y : Binary64} {rank rank' : Int}

theorem clamp_mono (type : IntegerType) (h : n ≤ m) : type.clamp n ≤ type.clamp m := by
  unfold clamp
  omega

/-- Cutting down to a range moves no number further from a number of the range. -/
theorem natAbs_clamp_sub_le (h : type.Holds m) (n : Int) :
    (type.clamp n - m).natAbs ≤ (n - m).natAbs := by
  unfold Holds at h
  unfold clamp
  omega

/-- What is so large in magnitude that no type has it is cut down to an end of the range. -/
theorem clamp_signedUnits (type : IntegerType) (negative : Bool) {units : Nat}
    (h : 2 ^ 64 ≤ units) :
    type.clamp (signedUnits negative units) = if negative then type.minimum else type.maximum := by
  have hends : type.Holds type.minimum ∧ type.Holds type.maximum := by
    cases type <;> decide
  have hminimum := natAbs_le_of_holds hends.1
  have hmaximum := natAbs_le_of_holds hends.2
  obtain ⟨hpositive, hle⟩ := type.minimum_eq
  cases negative with
  | false =>
    simp only [clamp, signedUnits, Bool.false_eq_true, if_false]
    split at hle <;> omega
  | true =>
    simp only [clamp, signedUnits, if_true]
    split at hle <;> omega

/-- **A double is cut down by its place**, an infinity like any other. -/
theorem saturate_eq_of_rank? (type : IntegerType) (h : x.rank? = some rank) :
    type.saturate x = type.clamp (rank.tdiv unitsPerOne) := by
  cases x with
  | nan => cases h
  | infinity negative =>
    obtain ⟨whole, hle, hwhole⟩ := exists_tdiv_rank?_infinity negative
    rw [rank?_infinity] at h
    rw [← Option.some.inj h, hwhole, clamp_signedUnits type negative hle]
    rfl
  | finite negative units hunits =>
    rw [rank?_finite] at h
    rw [← Option.some.inj h]
    exact type.saturate_eq_clamp (truncate?_finite negative units hunits)

/-- **Cutting down keeps the order.** -/
theorem saturate_mono (type : IntegerType) (hx : x.rank? = some rank) (hy : y.rank? = some rank')
    (h : rank ≤ rank') : type.saturate x ≤ type.saturate y := by
  rw [type.saturate_eq_of_rank? hx, type.saturate_eq_of_rank? hy]
  exact clamp_mono type (Int.tdiv_le_tdiv (Int.natCast_pos.mpr unitsPerOne_pos) h)

theorem saturate_inRange (type : IntegerType) (x : Binary64) : type.Holds (type.saturate x) := by
  cases hrank : x.rank? with
  | some rank =>
    rw [type.saturate_eq_of_rank? hrank]
    exact clamp_inRange type _
  | none =>
    cases x with
    | nan => cases type <;> decide
    | infinity negative => cases negative <;> cases hrank
    | finite negative units hunits => cases negative <;> cases hrank

theorem saturatesTo_saturate (type : IntegerType) (x : Binary64) :
    type.SaturatesTo x (type.saturate x) := by
  cases x with
  | nan => exact .nan
  | infinity negative =>
    cases negative with
    | false => exact .plusInfinity
    | true => exact .minusInfinity
  | finite negative units hunits =>
    rw [type.saturate_eq_clamp (truncate?_finite negative units hunits),
      Operand.tdiv_eq_truncate_of_pos _ unitsPerOne_pos]
    exact .finite rfl

end IntegerType

/-! ## To a double and back -/

namespace FixedInt

/-- The number of a type that a double is cut down to. -/
def ofBinary64 (type : IntegerType) (x : Binary64) : FixedInt :=
  ⟨type, type.saturate x, type.saturate_inRange x⟩

@[simp] theorem type_ofBinary64 (type : IntegerType) (x : Binary64) :
    (ofBinary64 type x).type = type := rfl

@[simp] theorem value_ofBinary64 (type : IntegerType) (x : Binary64) :
    (ofBinary64 type x).value = type.saturate x := rfl

theorem eq_of_value_eq {n m : FixedInt} (htype : n.type = m.type) (h : n.value = m.value) :
    n = m := by
  rw [← n.ofInt_value, ← m.ofInt_value, htype, h]

variable (n : FixedInt)

theorem isNearest_toBinary64 : IsNearest n.value 1 n.toBinary64 := by
  rw [toBinary64_eq_ofInt]
  exact isNearest_ofRatio Nat.one_pos _

theorem exists_rank?_toBinary64 : ∃ rank, n.toBinary64.rank? = some rank := by
  obtain ⟨rank, hrank, -⟩ := n.isNearest_toBinary64
  exact ⟨rank, hrank⟩

variable {n} in
/-- A number of at most 53 digits comes back from its double. -/
theorem saturate_toBinary64_of_le (h : n.value.natAbs ≤ 2 ^ 53) :
    n.type.saturate n.toBinary64 = n.value := by
  have hwhole : n.toBinary64.truncate? = some n.value := by
    rw [toBinary64_eq_ofInt, Binary64.ofInt,
      truncate?_ofRatio Nat.one_pos (representable_mul_unitsPerOne h) (Nat.mul_one _).symm]
    simp
  rw [n.type.saturate_eq_clamp hwhole, IntegerType.clamp_eq_self n.inRange]

/-- Any number comes back within `2 ^ 10`. -/
theorem natAbs_saturate_sub_le : (n.type.saturate n.toBinary64 - n.value).natAbs ≤ 2 ^ 10 := by
  obtain ⟨rank, hrank⟩ := n.exists_rank?_toBinary64
  have hnear := n.isNearest_toBinary64.natAbs_sub_le hrank n.natAbs_le
  have hpos : (0 : Int) < unitsPerOne := Int.natCast_pos.mpr unitsPerOne_pos
  have hlower : (n.value - 2 ^ 10) * unitsPerOne ≤ rank := by
    rw [Int.sub_mul]
    omega
  have hupper : rank ≤ (n.value + 2 ^ 10) * unitsPerOne := by
    rw [Int.add_mul]
    omega
  -- cutting off the fraction keeps both bounds, since they are whole
  replace hlower := Int.tdiv_le_tdiv hpos hlower
  replace hupper := Int.tdiv_le_tdiv hpos hupper
  rw [Int.mul_tdiv_cancel _ (Int.ne_of_gt hpos)] at hlower hupper
  rw [n.type.saturate_eq_of_rank? hrank]
  refine Nat.le_trans (IntegerType.natAbs_clamp_sub_le n.inRange _) ?_
  omega

/-- Numbers come back in their order. -/
theorem saturate_toBinary64_mono (type : IntegerType) {n m : FixedInt} (h : n.value ≤ m.value) :
    type.saturate n.toBinary64 ≤ type.saturate m.toBinary64 := by
  by_cases heq : n.value = m.value
  · simp [heq]
  · obtain ⟨rank, hrank⟩ := n.exists_rank?_toBinary64
    obtain ⟨rank', hrank'⟩ := m.exists_rank?_toBinary64
    refine type.saturate_mono hrank hrank' ?_
    exact n.isNearest_toBinary64.mono Nat.one_pos m.isNearest_toBinary64 (by omega) hrank hrank'

end FixedInt

namespace IntegerType

/-- The largest number of 64 bits is rounded up to a power of two. -/
theorem value?_maximum {type : IntegerType} (h : type.width = 64) :
    (Binary64.ofInt type.maximum).value? = some ((type.maximum : ℚ) + 1) := by
  have hround : Binary64.ofInt type.maximum = .ofInt (type.maximum + 1) := by
    cases type <;> first | exact absurd h (by decide) | decide +kernel
  have hcount : Representable ((type.maximum + 1).natAbs * unitsPerOne) := by
    cases type <;> decide +kernel
  have hexact := isExactly_ofRatio Nat.one_pos hcount (Nat.mul_one _).symm
  rw [hround, Binary64.ofInt, hexact.value? Nat.one_pos]
  simp

/-- The largest number of a type comes back from its double, even where that is past it. -/
theorem saturate_maximum (type : IntegerType) :
    type.saturate (.ofInt type.maximum) = type.maximum := by
  cases type <;> decide +kernel

end IntegerType

/-! ## Values -/

namespace Value

theorem castTo_float (x : Binary64) (unit : Option Measure) (type : IntegerType) :
    (Value.float x unit).castTo (.integer type) = ⟨.integer (.ofBinary64 type x), unit⟩ := by
  have hnumber : FixedInt.ofInt type (type.saturate x) = .ofBinary64 type x :=
    FixedInt.eq_of_value_eq rfl (IntegerType.wrap_eq_self (type.saturate_inRange x))
  rw [← hnumber]
  rfl

theorem castTo_f64 (n : FixedInt) (unit : Option Measure) :
    (Value.mk (.integer n) unit).castTo .f64 = .float n.toBinary64 unit := rfl

theorem eq_of_castTo_float {x : Binary64} {unit : Option Measure} {type : IntegerType}
    {n : FixedInt} (h : (Value.float x unit).castTo (.integer type) = ⟨.integer n, unit⟩) :
    n = .ofBinary64 type x := by
  rw [castTo_float] at h
  cases h
  rfl

/-- **Casts between doubles and integers.**  A double is cut down to the range of the type and never
wrapped, so larger doubles give larger numbers.  An integer is cast to the nearest double; the way
back gives the integer itself if it is at most `2 ^ 53` in magnitude or the largest of its type, a
number at most `2 ^ 10` away from it otherwise, and larger numbers for larger integers.  The largest
numbers of 64 bits are one less than their doubles.  Units are kept. -/
theorem casts_saturate (unit : Option Measure) :
    (∀ (type : IntegerType) (x : Binary64), ∃ n : FixedInt,
      (Value.float x unit).castTo (.integer type) = ⟨.integer n, unit⟩ ∧ n.type = type ∧
        type.SaturatesTo x n.value) ∧
    (∀ (type : IntegerType) (x y : Binary64) (n m : FixedInt), x.le y = true →
      (Value.float x unit).castTo (.integer type) = ⟨.integer n, unit⟩ →
      (Value.float y unit).castTo (.integer type) = ⟨.integer m, unit⟩ → n.value ≤ m.value) ∧
    (∀ n : FixedInt, ∃ (x : Binary64) (m : FixedInt),
      (Value.mk (.integer n) unit).castTo .f64 = .float x unit ∧ IsNearest n.value 1 x ∧
        (Value.float x unit).castTo (.integer n.type) = ⟨.integer m, unit⟩ ∧
        (|n.value| ≤ 2 ^ 53 → m = n) ∧ (n.value = n.type.maximum → m = n) ∧
        |m.value - n.value| ≤ 2 ^ 10) ∧
    (∀ n n' m m' : FixedInt, n.type = n'.type → n.value ≤ n'.value →
      ((Value.mk (.integer n) unit).castTo .f64).castTo (.integer n.type) =
        ⟨.integer m, unit⟩ →
      ((Value.mk (.integer n') unit).castTo .f64).castTo (.integer n'.type) =
        ⟨.integer m', unit⟩ → m.value ≤ m'.value) ∧
    ∀ type : IntegerType, type.width = 64 → ∃ x : Binary64,
      (Value.integer type type.maximum unit).castTo .f64 = .float x unit ∧
        x.value? = some ((type.maximum : ℚ) + 1) := by
  refine ⟨fun type x => ?_, ?_, fun n => ?_, ?_, fun type hwidth => ?_⟩
  · exact ⟨_, castTo_float x unit type, rfl, type.saturatesTo_saturate x⟩
  · intro type x y n m hle hn hm
    rw [eq_of_castTo_float hn, eq_of_castTo_float hm, FixedInt.value_ofBinary64,
      FixedInt.value_ofBinary64]
    unfold Binary64.le at hle
    split at hle
    · rename_i rank rank' hrank hrank'
      exact type.saturate_mono hrank hrank' (of_decide_eq_true hle)
    · exact absurd hle Bool.false_ne_true
  · refine ⟨n.toBinary64, .ofBinary64 n.type n.toBinary64, castTo_f64 n unit,
      n.isNearest_toBinary64, castTo_float _ unit n.type, fun hdigits => ?_, fun hmaximum => ?_, ?_⟩
    · rw [Int.abs_eq_natAbs] at hdigits
      refine FixedInt.eq_of_value_eq (FixedInt.type_ofBinary64 _ _) ?_
      rw [FixedInt.value_ofBinary64, FixedInt.saturate_toBinary64_of_le (by omega)]
    · refine FixedInt.eq_of_value_eq (FixedInt.type_ofBinary64 _ _) ?_
      rw [FixedInt.value_ofBinary64, n.toBinary64_eq_ofInt, hmaximum, n.type.saturate_maximum]
    · have hnear := n.natAbs_saturate_sub_le
      rw [FixedInt.value_ofBinary64, Int.abs_eq_natAbs]
      exact_mod_cast hnear
  · intro n n' m m' htype hle hm hm'
    rw [castTo_f64] at hm hm'
    rw [eq_of_castTo_float hm, eq_of_castTo_float hm', FixedInt.value_ofBinary64,
      FixedInt.value_ofBinary64, htype]
    exact FixedInt.saturate_toBinary64_mono n'.type hle
  · have hholds : type.Holds type.maximum := by
      cases type <;> decide
    refine ⟨_, castTo_f64 _ unit, ?_⟩
    rw [FixedInt.toBinary64_eq_ofInt, FixedInt.value_ofInt, IntegerType.wrap_eq_self hholds]
    exact IntegerType.value?_maximum hwidth

/-- Minus infinity and 300 are the ends of `u8`.  The `u64` 18446744073709551615 becomes the double
`2 ^ 64` and comes back, like `2 ^ 53`, but `2 ^ 53 + 1` and `2 ^ 53 + 3` come back as the even
numbers `2 ^ 53` and `2 ^ 53 + 4`. -/
theorem casts_saturate_ends :
    let unit : Option Measure := some (.size .byte)
    let back (n : FixedInt) : Value :=
      ((Value.mk (.integer n) unit).castTo .f64).castTo (.integer n.type)
    let number (n : Int) : FixedInt := .ofInt .u64 n
    ((Binary64.infinity true).le (.ofInt 300) = true ∧
      (Value.float (.infinity true) unit).castTo (.integer .u8) =
        ⟨.integer (.ofInt .u8 0), unit⟩ ∧
      (Value.float (.ofInt 300) unit).castTo (.integer .u8) = ⟨.integer (.ofInt .u8 255), unit⟩ ∧
      (FixedInt.ofInt .u8 0).value ≤ (FixedInt.ofInt .u8 255).value) ∧
    (|(number (2 ^ 53)).value| ≤ 2 ^ 53 ∧
      back (number (2 ^ 53)) = ⟨.integer (number (2 ^ 53)), unit⟩) ∧
    ((number (2 ^ 64 - 1)).value = IntegerType.u64.maximum ∧
      back (number (2 ^ 64 - 1)) = ⟨.integer (number (2 ^ 64 - 1)), unit⟩) ∧
    ((number (2 ^ 53 + 1)).value ≤ (number (2 ^ 53 + 3)).value ∧
      back (number (2 ^ 53 + 1)) = ⟨.integer (number (2 ^ 53)), unit⟩ ∧
      back (number (2 ^ 53 + 3)) = ⟨.integer (number (2 ^ 53 + 4)), unit⟩ ∧
      (number (2 ^ 53)).value ≤ (number (2 ^ 53 + 4)).value) ∧
    IntegerType.u64.width = 64 ∧ ∃ x : Binary64,
      (Value.integer .u64 IntegerType.u64.maximum unit).castTo .f64 = .float x unit ∧
        x.value? = some ((IntegerType.u64.maximum : ℚ) + 1) := by
  intro unit back number
  obtain ⟨-, hmono, hback, hbackMono, htop⟩ := casts_saturate unit
  have hends : (Binary64.infinity true).le (.ofInt 300) = true ∧
      (Value.float (.infinity true) unit).castTo (.integer .u8) =
        ⟨.integer (.ofInt .u8 0), unit⟩ ∧
      (Value.float (.ofInt 300) unit).castTo (.integer .u8) =
        ⟨.integer (.ofInt .u8 255), unit⟩ := by decide +kernel
  have hodd : back (number (2 ^ 53 + 1)) = ⟨.integer (number (2 ^ 53)), unit⟩ ∧
      back (number (2 ^ 53 + 3)) = ⟨.integer (number (2 ^ 53 + 4)), unit⟩ := by decide +kernel
  obtain ⟨hbelow, hlow, hhigh⟩ := hends
  have horder := hmono .u8 (.infinity true) (.ofInt 300) (.ofInt .u8 0) (.ofInt .u8 255) hbelow
    hlow hhigh
  refine ⟨⟨hbelow, hlow, hhigh, horder⟩, ⟨by decide, ?_⟩, ⟨by decide, ?_⟩,
    ⟨by decide, hodd.1, hodd.2, ?_⟩, rfl, htop .u64 rfl⟩
  · obtain ⟨x, m, hx, -, hm, hsame, -⟩ := hback (number (2 ^ 53))
    rw [hsame (by decide)] at hm
    show ((Value.mk (.integer (number (2 ^ 53))) unit).castTo .f64).castTo _ = _
    rw [hx, hm]
  · obtain ⟨x, m, hx, -, hm, -, hsame, -⟩ := hback (number (2 ^ 64 - 1))
    rw [hsame (by decide)] at hm
    show ((Value.mk (.integer (number (2 ^ 64 - 1))) unit).castTo .f64).castTo _ = _
    rw [hx, hm]
  · exact hbackMono (number (2 ^ 53 + 1)) (number (2 ^ 53 + 3)) _ _ rfl (by decide) hodd.1 hodd.2

end Value

end TypedCalc
