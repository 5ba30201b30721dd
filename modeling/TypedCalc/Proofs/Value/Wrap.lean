import TypedCalc.Value.Basic

/-!
# Wrapping

Wrapping into a type looks at a number modulo the number of bit patterns only, so a number can be
had back from its bit pattern.

* `IntegerType.Holds.between`: between zero and a number of a type there are only such numbers.
* `IntegerType.wrap_emod`: the pattern of a number is wrapped like the number.
* `IntegerType.emod_wrap`: what is wrapped has the pattern of the number.
* `IntegerType.wrap_eq_wrap_iff`: only numbers with one pattern are wrapped alike.
* `FixedInt.ofInt_bits`: wrapping the pattern of a number of the type gives the number.
* `FixedInt.value_ofInt_literalType`: every pattern is a number of the type of literals.
-/

namespace TypedCalc

theorem IntegerType.modulus_pos (type : IntegerType) : 0 < type.modulus :=
  Nat.pow_pos (by decide)

theorem IntegerType.modulus_le (type : IntegerType) : type.modulus ≤ 2 ^ 64 := by
  cases type <;> decide

/-- The ends of a range: a signed type has one number more below zero than above it. -/
theorem IntegerType.minimum_eq (type : IntegerType) :
    0 < type.maximum ∧ type.minimum = if type.isSigned then -type.maximum - 1 else 0 := by
  cases type <;> decide

/-- Between zero and a number of a type there are only numbers of the type. -/
theorem IntegerType.Holds.between {type : IntegerType} {n m : Int} (h : type.Holds n)
    (hm : 0 ≤ m ∧ m ≤ n ∨ n ≤ m ∧ m ≤ 0) : type.Holds m := by
  obtain ⟨hmax, hmin⟩ := type.minimum_eq
  unfold Holds at h ⊢
  split at hmin <;> omega

theorem IntegerType.wrap_emod (type : IntegerType) (n : Int) :
    type.wrap (n % type.modulus) = type.wrap n := by
  unfold wrap
  split
  · exact Int.emod_bmod n type.modulus
  · exact Int.emod_emod n type.modulus

/-- Wrapping keeps a number modulo the number of bit patterns. -/
theorem IntegerType.emod_wrap (type : IntegerType) (n : Int) :
    type.wrap n % type.modulus = n % type.modulus := by
  unfold wrap
  split
  · exact Int.bmod_emod
  · exact Int.emod_emod n type.modulus

/-- **Numbers are wrapped alike exactly if they are equal modulo the number of bit patterns.** -/
theorem IntegerType.wrap_eq_wrap_iff {type : IntegerType} {n m : Int} :
    type.wrap n = type.wrap m ↔ n % type.modulus = m % type.modulus := by
  constructor
  · intro h
    rw [← emod_wrap, h, emod_wrap]
  · intro h
    rw [← wrap_emod, h, wrap_emod]

/-- The number of bit patterns of a narrower type divides that of a wider one. -/
theorem IntegerType.modulus_dvd {type target : IntegerType} (h : target.width ≤ type.width) :
    (target.modulus : Int) ∣ type.modulus := by
  exact_mod_cast Nat.pow_dvd_pow 2 h

/-- Wrapping into a type first loses nothing that a narrower type could keep. -/
theorem IntegerType.wrap_wrap {type target : IntegerType} (h : target.width ≤ type.width)
    (n : Int) : target.wrap (type.wrap n) = target.wrap n := by
  have hdvd := modulus_dvd h
  rw [wrap_eq_wrap_iff, ← Int.emod_emod_of_dvd _ hdvd, emod_wrap, Int.emod_emod_of_dvd _ hdvd]

namespace FixedInt

theorem ofInt_congr {type : IntegerType} {n m : Int} (h : type.wrap n = type.wrap m) :
    ofInt type n = ofInt type m := by
  simp only [ofInt, h]

theorem ofInt_emod (type : IntegerType) (n : Int) : ofInt type (n % type.modulus) = ofInt type n :=
  ofInt_congr (type.wrap_emod n)

/-- Two numbers of one type are the same number if they are equal modulo the number of bit
patterns. -/
theorem eq_of_emod_eq {n m : FixedInt} (htype : n.type = m.type)
    (h : n.value % n.type.modulus = m.value % n.type.modulus) : n = m := by
  rw [← n.ofInt_value, ← m.ofInt_value, ← htype]
  exact ofInt_congr (IntegerType.wrap_eq_wrap_iff.mpr h)

theorem natCast_bits (n : FixedInt) : (n.bits : Int) = n.value % n.type.modulus := by
  have hpos := n.type.modulus_pos
  exact Int.toNat_of_nonneg (Int.emod_nonneg _ (by omega))

/-- **A number is had back from its bit pattern.** -/
theorem ofInt_bits (n : FixedInt) : ofInt n.type n.bits = n := by
  rw [natCast_bits, ofInt_emod, ofInt_value]

theorem bits_lt (n : FixedInt) : n.bits < n.type.modulus := by
  have hpos : (0 : Int) < n.type.modulus := by exact_mod_cast n.type.modulus_pos
  have hlt := Int.emod_lt_of_pos n.value hpos
  rw [← natCast_bits] at hlt
  exact_mod_cast hlt

/-- A bit pattern of any type is a number of the type of literals. -/
theorem bits_le_maximum (n : FixedInt) : (n.bits : Int) ≤ literalType.maximum := by
  have hlt := n.bits_lt
  have hle := n.type.modulus_le
  show (n.bits : Int) ≤ 2 ^ 64 - 1
  omega

/-- So is the magnitude of a number of any type. -/
theorem natAbs_le_maximum (n : FixedInt) : (n.value.natAbs : Int) ≤ literalType.maximum := by
  obtain ⟨hlower, hupper⟩ := n.inRange
  show (n.value.natAbs : Int) ≤ 2 ^ 64 - 1
  cases htype : n.type <;> rw [htype] at hlower hupper <;>
    simp only [IntegerType.minimum, IntegerType.maximum] at hlower hupper <;> omega

/-- A natural number within the range of literals is not wrapped. -/
theorem value_ofInt_literalType {number : Nat} (h : (number : Int) ≤ literalType.maximum) :
    (ofInt literalType number).value = number := by
  rw [value_ofInt]
  exact IntegerType.wrap_eq_self ⟨Int.natCast_nonneg number, h⟩

/-- The opposite of the magnitude of a negative number, read as a signed number, is the number. -/
theorem value_ofInt_neg_natAbs {n : FixedInt} (h : n.value < 0) :
    (ofInt literalType.toSigned (-(n.value.natAbs : Int))).value = n.value := by
  have hvalue : -(n.value.natAbs : Int) = n.value := by omega
  rw [hvalue, value_ofInt]
  refine IntegerType.wrap_eq_self ⟨?_, ?_⟩
  · show -2 ^ 63 ≤ n.value
    have hlower := n.inRange.1
    cases htype : n.type <;> rw [htype] at hlower <;> simp only [IntegerType.minimum] at hlower <;>
      omega
  · show n.value ≤ 2 ^ 63 - 1
    omega

end FixedInt

end TypedCalc
