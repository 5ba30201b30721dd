import TypedCalc.Proofs.Binary64.Decimal
import TypedCalc.Proofs.Binary64.Nearest
import TypedCalc.Value.Cast

/-!
# Values of decimal quotients

A number that is written down is a quotient `num / 10 ^ places`, and its value is an integer where
it can be one and the nearest double otherwise.

* `Value.Denotes`: the value of such a quotient with a unit.
* `Value.Denotes.unique`: there is only one.
* `Value.Denotes.attach`: putting a unit on the value of a quotient gives that of the quotient with
  the unit.
-/

namespace TypedCalc

/-- A decimal fraction is read as the nearest double. -/
theorem Decimal.isNearest_toBinary64 (num places : Nat) :
    Binary64.IsNearest num (10 ^ places) (toBinary64 false ⟨num, -(places : Int)⟩) := by
  have hsign : decide ((num : Int) < 0) = false :=
    decide_eq_false (Int.not_lt.mpr (Int.natCast_nonneg _))
  have hten : 0 < 10 ^ places := Nat.pow_pos (by decide)
  have hnearest := Binary64.isNearest_ofRatio hten (num : Int)
  rw [hsign, Int.natAbs_natCast] at hnearest
  rw [toBinary64_eq, quotient_of_nonpos (by dsimp only; omega)]
  dsimp only
  rwa [Int.neg_neg, Int.toNat_natCast]

namespace Value

/-- Whether a value is a quotient `num / 10 ^ places` with a unit: an integer of the type of
literals, or the double nearest to the quotient if there are places or the unit measures
temperature. -/
structure Denotes (v : Value) (num places : Nat) (unit : Option Measure) : Prop where
  /-- The unit is that of the quotient. -/
  unit_eq : v.unit = unit
  /-- A whole number that is no temperature is an integer. -/
  integer : places = 0 → (∀ u ∈ unit, u.isTemperature = false) →
    ∃ n : FixedInt, v.number = .integer n ∧ n.type = .u64 ∧ n.value = num
  /-- Any other number is the nearest double. -/
  float : (places ≠ 0 ∨ ∃ u ∈ unit, u.isTemperature = true) →
    ∃ x, v.number = .float x ∧ x.isNegative = false ∧ Binary64.IsNearest num (10 ^ places) x

variable {v w : Value} {number : Number} {num places : Nat} {unit : Option Measure}

/-- **Only one value is a quotient with a unit.** -/
theorem Denotes.unique (hv : v.Denotes num places unit) (hw : w.Denotes num places unit) :
    v = w := by
  have hnumber : v.number = w.number := by
    by_cases hwhole : places = 0 ∧ ∀ u ∈ unit, u.isTemperature = false
    · obtain ⟨n, hn, htype, hvalue⟩ := hv.integer hwhole.1 hwhole.2
      obtain ⟨m, hm, htype', hvalue'⟩ := hw.integer hwhole.1 hwhole.2
      rw [hn, hm, ← n.ofInt_value, ← m.ofInt_value, htype, htype', hvalue, hvalue']
    · have hfloat : places ≠ 0 ∨ ∃ u ∈ unit, u.isTemperature = true := by
        simpa only [not_and_or, not_forall, Bool.not_eq_false, exists_prop] using hwhole
      obtain ⟨x, hx, hxsign, hxnearest⟩ := hv.float hfloat
      obtain ⟨y, hy, hysign, hynearest⟩ := hw.float hfloat
      rw [hx, hy, hxnearest.eq (Nat.pow_pos (by decide)) hynearest hxsign hysign]
  obtain ⟨number, unit⟩ := v
  obtain ⟨number', unit'⟩ := w
  rw [mk.injEq]
  exact ⟨hnumber, hv.unit_eq.trans hw.unit_eq.symm⟩

/-- Digits without a point denote an integer. -/
theorem denotes_integer (h : (num : Int) ≤ FixedInt.literalType.maximum) :
    (Value.mk (.integer (.ofInt FixedInt.literalType num)) none).Denotes num 0 none := by
  refine ⟨rfl, fun _ _ => ⟨_, rfl, rfl, IntegerType.wrap_eq_self ⟨?_, h⟩⟩, ?_⟩
  · exact Int.natCast_nonneg num
  · rintro (h | ⟨u, hu, -⟩)
    · exact absurd rfl h
    · cases hu

/-- Digits with a point denote a double. -/
theorem denotes_fraction (hplaces : places ≠ 0) :
    (Value.mk (.float (Decimal.toBinary64 false ⟨num, -(places : Int)⟩)) none).Denotes num places
      none :=
  ⟨rfl, fun h => absurd h hplaces, fun _ =>
    ⟨_, rfl, Decimal.isNegative_toBinary64 _ _, Decimal.isNearest_toBinary64 _ _⟩⟩

/-- **A unit on a value** leaves the quotient as it is, and makes it a double if the unit measures
temperature. -/
theorem Denotes.attach (h : (Value.mk number none).Denotes num places none) (unit : Measure) :
    ((Value.mk number none).attach unit).Denotes num places (some unit) := by
  have hdouble : ∃ x, number.castTo .f64 = .float x ∧ x.isNegative = false ∧
      Binary64.IsNearest num (10 ^ places) x := by
    by_cases hplaces : places = 0
    · obtain ⟨n, hnumber, -, hvalue⟩ := h.integer hplaces nofun
      obtain rfl : number = .integer n := hnumber
      refine ⟨n.toBinary64, rfl, ?_, ?_⟩
      · rw [n.toBinary64_eq_ofInt, hvalue, Binary64.ofInt, Binary64.ofRatio,
          Binary64.isNegative_ofUnits]
        exact decide_eq_false (Int.not_lt.mpr (Int.natCast_nonneg _))
      · rw [n.toBinary64_eq_ofInt, hvalue, hplaces]
        exact Binary64.isNearest_ofRatio Nat.one_pos _
    · obtain ⟨x, hnumber, hx⟩ := h.float (.inl hplaces)
      obtain rfl : number = .float x := hnumber
      exact ⟨x, rfl, hx⟩
  unfold Value.attach
  cases htemperature : unit.isTemperature with
  | false =>
    refine ⟨rfl, fun hplaces _ => h.integer hplaces nofun, ?_⟩
    rintro (hplaces | ⟨_, ⟨⟩, htrue⟩)
    · exact h.float (.inl hplaces)
    · exact absurd (htemperature.symm.trans htrue) Bool.false_ne_true
  | true =>
    refine ⟨rfl, fun _ hsize => ?_, fun _ => hdouble⟩
    exact absurd ((hsize unit rfl).symm.trans htemperature) Bool.false_ne_true

end Value

end TypedCalc
