/-!
# Double-precision numbers as exact counts

Every finite double is a whole number of *units*, where one unit is the smallest positive
double, `2 ^ (-1074)`.  A double is stored here as its sign and that count, so that sums,
products and quotients are computed exactly on natural numbers and rounded once.

* A count is `Representable` when it is below `overflowUnits` and leaves its `slack` low
  binary digits zero, which is to say that it has at most 53 significant digits.
* `nearestNat` rounds a quotient of natural numbers to a whole number, ties to even.
* `nearestUnits` rounds such a quotient to a count with at most 53 significant digits, and
  `slack_dvd_nearestUnits` says that it does.
* `Binary64.ofUnits` is the one place where a quotient becomes a double; past the largest
  finite double it gives an infinity.

There is one NaN and there are two zeros.
-/

-- A power of a whole number is the core library's, also where the powers of monoids are in scope.
attribute [instance (2000), default_instance (20000)] instPowNat

namespace TypedCalc

/-! ## Rounding a quotient -/

/-- The whole number nearest to `num / den`, a tie going to the even one. -/
def nearestNat (num den : Nat) : Nat :=
  let quotient := num / den
  let remainder := num % den
  if 2 * remainder < den ∨ (2 * remainder = den ∧ quotient % 2 = 0) then quotient
  else quotient + 1

theorem nearestNat_le (num den : Nat) : nearestNat num den ≤ num / den + 1 := by
  unfold nearestNat
  dsimp only
  split <;> omega

theorem le_nearestNat (num den : Nat) : num / den ≤ nearestNat num den := by
  unfold nearestNat
  dsimp only
  split <;> omega

/-- A whole number is its own rounding. -/
theorem nearestNat_mul_right (k den : Nat) (h : 0 < den) : nearestNat (k * den) den = k := by
  unfold nearestNat
  simp [Nat.mul_div_cancel _ h, h]

namespace Binary64

/-! ## Counts that a double can hold -/

/-- The number of units in one. -/
def unitsPerOne : Nat := 2 ^ 1074

theorem unitsPerOne_pos : 0 < unitsPerOne := by decide +kernel

/-- The first count past the largest finite double. -/
def overflowUnits : Nat := 2 ^ 2098

/-- How many low binary digits a count of this size has to leave zero. -/
def slack (units : Nat) : Nat := units.log2 - 52

/-- The counts that are magnitudes of finite doubles. -/
def Representable (units : Nat) : Prop :=
  units < overflowUnits ∧ 2 ^ slack units ∣ units

instance (units : Nat) : Decidable (Representable units) :=
  inferInstanceAs (Decidable (_ ∧ _))

/-- The count with at most 53 significant binary digits that is nearest to `num / den`. -/
def nearestUnits (num den : Nat) : Nat :=
  let low := slack (num / den)
  nearestNat num (den * 2 ^ low) * 2 ^ low

theorem lt_two_pow_slack (units : Nat) : units < 2 ^ (slack units + 53) :=
  Nat.lt_of_lt_of_le Nat.lt_log2_self
    (Nat.pow_le_pow_right (by decide) (by unfold slack; omega))

/-- A count below `2 ^ (k + 53)` has at most `k` slack digits. -/
theorem slack_le_of_lt {units k : Nat} (h : units < 2 ^ (k + 53)) : slack units ≤ k := by
  unfold slack
  by_cases hz : units = 0
  · simp [hz]
  · have := (Nat.log2_lt hz).2 h
    omega

/-- Before the scaling back, the rounded count has at most 53 digits, or is `2 ^ 53`. -/
theorem nearestNat_slack_le (num den : Nat) :
    nearestNat num (den * 2 ^ slack (num / den)) ≤ 2 ^ 53 := by
  have hq : num / den / 2 ^ slack (num / den) < 2 ^ 53 := by
    apply Nat.div_lt_of_lt_mul
    rw [← Nat.pow_add]
    exact lt_two_pow_slack _
  have := nearestNat_le num (den * 2 ^ slack (num / den))
  rw [← Nat.div_div_eq_div_mul] at this
  omega

/-- A quotient below a power of two with at least 53 digits is not rounded past it. -/
theorem nearestUnits_le_two_pow {num den k : Nat} (h : num / den < 2 ^ (k + 53)) :
    nearestUnits num den ≤ 2 ^ (k + 53) := by
  have hlow : 2 ^ slack (num / den) ≤ 2 ^ k :=
    Nat.pow_le_pow_right (by decide) (slack_le_of_lt h)
  calc nearestUnits num den
      ≤ 2 ^ 53 * 2 ^ k := Nat.mul_le_mul (nearestNat_slack_le num den) hlow
    _ = 2 ^ (k + 53) := by rw [Nat.mul_comm, ← Nat.pow_add]

/-- Rounding gives a count with at most 53 significant digits. -/
theorem slack_dvd_nearestUnits (num den : Nat) :
    2 ^ slack (nearestUnits num den) ∣ nearestUnits num den := by
  unfold nearestUnits
  dsimp only
  have hle := nearestNat_slack_le num den
  generalize slack (num / den) = low at *
  generalize nearestNat num (den * 2 ^ low) = m at *
  rcases Nat.lt_or_ge m (2 ^ 53) with hlt | hge
  · have hs : slack (m * 2 ^ low) ≤ low := by
      apply slack_le_of_lt
      rw [Nat.add_comm, Nat.pow_add]
      exact Nat.mul_lt_mul_of_pos_right hlt (Nat.two_pow_pos low)
    exact Nat.dvd_trans (Nat.pow_dvd_pow 2 hs) (Nat.dvd_mul_left _ _)
  · have hm : m = 2 ^ 53 := by omega
    subst hm
    rw [← Nat.pow_add]
    apply Nat.pow_dvd_pow
    unfold slack
    rw [Nat.log2_two_pow]
    omega

end Binary64

/-! ## The type -/

/-- A double: not a number, an infinity, or a sign with a count of units. -/
inductive Binary64
  /-- The one not-a-number. -/
  | nan
  /-- An infinity with its sign. -/
  | infinity (negative : Bool)
  /-- A finite double, `units` times `2 ^ (-1074)`, negated when `negative` is set. -/
  | finite (negative : Bool) (units : Nat) (representable : Binary64.Representable units)
  deriving DecidableEq

namespace Binary64

/-- The double nearest to `num / den` units, with the given sign. -/
def ofUnits (negative : Bool) (num den : Nat) : Binary64 :=
  let units := nearestUnits num den
  if h : units < overflowUnits then
    .finite negative units ⟨h, slack_dvd_nearestUnits num den⟩
  else
    .infinity negative

/-- The double nearest to `num / den`, with the given sign. -/
def ofRatio (negative : Bool) (num den : Nat) : Binary64 :=
  ofUnits negative (num * unitsPerOne) den

/-- The double nearest to a whole number. -/
def ofInt (n : Int) : Binary64 :=
  ofRatio (decide (n < 0)) n.natAbs 1

theorem representable_zero : Representable 0 := by decide +kernel

/-- A zero with its sign. -/
def zero (negative : Bool) : Binary64 := .finite negative 0 representable_zero

/-- The largest finite double. -/
def largest : Binary64 := .finite false ((2 ^ 53 - 1) * 2 ^ 2045) (by decide +kernel)

/-! ## Questions about a double -/

/-- Whether the sign is set; not-a-number has none. -/
def isNegative : Binary64 → Bool
  | .nan => false
  | .infinity negative => negative
  | .finite negative _ _ => negative

/-- Whether this is not a number. -/
def isNaN : Binary64 → Bool
  | .nan => true
  | _ => false

/-- Whether this is an infinity. -/
def isInfinite : Binary64 → Bool
  | .infinity _ => true
  | _ => false

/-- Whether this is a finite number. -/
def isFinite : Binary64 → Bool
  | .finite .. => true
  | _ => false

/-- Whether this is one of the two zeros. -/
def isZero : Binary64 → Bool
  | .finite _ units _ => units == 0
  | _ => false

/-- The signed count of units of a finite double, with the infinities just past the ends.
Not-a-number has no place on this line. -/
def rank? : Binary64 → Option Int
  | .nan => none
  | .infinity true => some (-(overflowUnits : Int))
  | .infinity false => some overflowUnits
  | .finite true units _ => some (-(units : Int))
  | .finite false units _ => some units

/-- Numerical equality: the zeros are equal and not-a-number equals nothing. -/
def eq (a b : Binary64) : Bool :=
  match a.rank?, b.rank? with
  | some x, some y => x == y
  | _, _ => false

/-- Numerical order; nothing is below or above not-a-number. -/
def lt (a b : Binary64) : Bool :=
  match a.rank?, b.rank? with
  | some x, some y => decide (x < y)
  | _, _ => false

/-- Numerical order with equality; not-a-number is not even at most itself. -/
def le (a b : Binary64) : Bool :=
  match a.rank?, b.rank? with
  | some x, some y => decide (x ≤ y)
  | _, _ => false

/-! ## Doubles from whole numbers -/

/-- Numbers up to `2 ^ 128` are a power of two of units, far below the largest double. -/
theorem two_pow_mul_unitsPerOne :
    ∃ k, 2 ^ 128 * unitsPerOne = 2 ^ (k + 53) ∧ 2 ^ (k + 53) < overflowUnits :=
  ⟨1149, by decide +kernel, by decide +kernel⟩

theorem isFinite_ofUnits {num den : Nat} (negative : Bool)
    (h : num / den < 2 ^ 128 * unitsPerOne) : (ofUnits negative num den).isFinite = true := by
  obtain ⟨k, hk, hrange⟩ := two_pow_mul_unitsPerOne
  rw [hk] at h
  simp [ofUnits, Nat.lt_of_le_of_lt (nearestUnits_le_two_pow h) hrange, isFinite]

/-- A quotient of whole numbers is finite when its dividend is below `2 ^ 128`. -/
theorem isFinite_ofRatio {num den : Nat} (negative : Bool) (h : num < 2 ^ 128) :
    (ofRatio negative num den).isFinite = true :=
  isFinite_ofUnits negative (Nat.lt_of_le_of_lt (Nat.div_le_self _ _)
    (Nat.mul_lt_mul_of_pos_right h unitsPerOne_pos))

/-- The double nearest to a quotient of whole numbers, unless that lies past the largest double. -/
def ofRatio? (negative : Bool) (num den : Nat) : Option Binary64 :=
  let x := ofRatio negative num den
  if x.isFinite then some x else none

/-- The double nearest to a whole number, unless that lies past the largest double. -/
def ofInt? (n : Int) : Option Binary64 := ofRatio? (decide (n < 0)) n.natAbs 1

theorem isSome_ofRatio? {num den : Nat} (negative : Bool) (h : num < 2 ^ 128) :
    (ofRatio? negative num den).isSome = true := by
  simp [ofRatio?, isFinite_ofRatio negative h]

theorem isSome_ofInt? {n : Int} (h : n.natAbs < 2 ^ 128) : (ofInt? n).isSome = true :=
  isSome_ofRatio? _ h

@[simp] theorem get_ofRatio? {negative : Bool} {num den : Nat}
    (h : (ofRatio? negative num den).isSome = true) :
    (ofRatio? negative num den).get h = ofRatio negative num den := by
  simp [ofRatio?]

@[simp] theorem get_ofInt? {n : Int} (h : (ofInt? n).isSome = true) :
    (ofInt? n).get h = ofInt n := get_ofRatio? h

/-! ## Signs -/

/-- The same magnitude with the given sign. -/
def withSign (negative : Bool) : Binary64 → Binary64
  | .nan => .nan
  | .infinity _ => .infinity negative
  | .finite _ units h => .finite negative units h

/-- The opposite number. -/
def neg (x : Binary64) : Binary64 := x.withSign (!x.isNegative)

/-- The magnitude. -/
def abs (x : Binary64) : Binary64 := x.withSign false

end Binary64

end TypedCalc
