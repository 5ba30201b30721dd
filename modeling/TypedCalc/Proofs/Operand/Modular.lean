import TypedCalc.Operand.Apply
import TypedCalc.Proofs.Value.Wrap

/-!
# Integer operators modulo the number of bit patterns

Integers are kept as whole numbers in the range of their type, and operators work on those numbers
and wrap the result.  What comes out is the arithmetic of bit patterns, and since the low bits of a
result depend on the low bits of the operands only, it does not matter whether operands or results
are cut down to a narrower type.

* `IntegerType.ofInt_wrap`: wrapping a number keeps its low bits.
* `Value.castTo_integer`: so a result can be wrapped into a narrower type at once.
* `Operand.applyInfix_of_castTo`: the right operand of an integer is cast to its type first.
* `Operand.exists_applyInfix_modular`: the low bits of a sum, a difference, a product, a conjunction
  or a disjunction.
* `Operand.integers_modular`: results as bit patterns, and casts to narrower types.
-/

namespace TypedCalc

/-! ## Low bits -/

theorem IntegerType.width_toSigned (type : IntegerType) : type.toSigned.width = type.width := by
  cases type <;> rfl

section

variable {w : Nat} {type : IntegerType} {n m : Int}

theorem IntegerType.ofInt_emod (h : w ≤ type.width) (n : Int) :
    BitVec.ofInt w (n % type.modulus) = BitVec.ofInt w n := by
  have hdvd : ((2 ^ w : Nat) : Int) ∣ (type.modulus : Int) := by
    exact_mod_cast Nat.pow_dvd_pow 2 h
  apply BitVec.eq_of_toNat_eq
  rw [BitVec.toNat_ofInt, BitVec.toNat_ofInt, Int.emod_emod_of_dvd n hdvd]

/-- **Wrapping keeps the low bits.** -/
theorem IntegerType.ofInt_wrap (h : w ≤ type.width) (n : Int) :
    BitVec.ofInt w (type.wrap n) = BitVec.ofInt w n := by
  rw [← ofInt_emod h (type.wrap n), emod_wrap, ofInt_emod h]

namespace FixedInt

/-- The low bits of an integer in two's complement. -/
def lowBits (w : Nat) (n : FixedInt) : BitVec w := BitVec.ofInt w n.value

theorem lowBits_ofInt (h : w ≤ type.width) (n : Int) :
    (ofInt type n).lowBits w = BitVec.ofInt w n :=
  IntegerType.ofInt_wrap h n

theorem bits_ofInt (type : IntegerType) (n : Int) :
    (ofInt type n).bits = (BitVec.ofInt type.width n).toNat := by
  rw [← IntegerType.ofInt_wrap (Nat.le_refl type.width) n, BitVec.toNat_ofInt]
  rfl

theorem ofNat_bits {n : FixedInt} (h : w ≤ n.type.width) :
    BitVec.ofNat w n.bits = n.lowBits w := by
  rw [← BitVec.ofInt_natCast, natCast_bits, IntegerType.ofInt_emod h, lowBits]

/-- The low bits of what goes bit by bit are put together from those of the patterns. -/
theorem ofInt_onBits {f : Nat → Nat → Nat} {g : BitVec w → BitVec w → BitVec w}
    (h : ∀ x y, BitVec.ofNat w (f x y) = g (BitVec.ofNat w x) (BitVec.ofNat w y)) {a b : FixedInt}
    (ha : w ≤ a.type.width) (hb : w ≤ b.type.width) :
    BitVec.ofInt w (f a.bits b.bits : Nat) = g (a.lowBits w) (b.lowBits w) := by
  rw [BitVec.ofInt_natCast, h, ofNat_bits ha, ofNat_bits hb]

/-- Numbers with the same pattern are the same number of a type. -/
theorem ofInt_eq_of_patterns (h : BitVec.ofInt type.width n = BitVec.ofInt type.width m) :
    ofInt type n = ofInt type m := by
  have hpos := type.modulus_pos
  have hpatterns := congrArg BitVec.toNat h
  rw [BitVec.toNat_ofInt, BitVec.toNat_ofInt] at hpatterns
  have hn := Int.emod_nonneg n (b := type.modulus) (by omega)
  have hm := Int.emod_nonneg m (b := type.modulus) (by omega)
  have heq : n % (type.modulus : Int) = m % (type.modulus : Int) := by
    unfold IntegerType.modulus at hn hm ⊢
    omega
  rw [← ofInt_emod type n, heq, ofInt_emod]

end FixedInt

/-- **A result can be wrapped into a narrower type at once.** -/
theorem Value.castTo_integer {target : IntegerType} (h : target.width ≤ type.width) (n : Int) :
    (Value.integer type n).castTo (.integer target) = Value.integer target n := by
  have hsame : FixedInt.ofInt target (type.wrap n) = FixedInt.ofInt target n :=
    FixedInt.ofInt_eq_of_patterns (IntegerType.ofInt_wrap h n)
  exact congrArg (fun number => Value.mk (.integer number) none) hsame

theorem Value.integer_congr (h : BitVec.ofInt type.width n = BitVec.ofInt type.width m) :
    Value.integer type n = Value.integer type m :=
  congrArg (fun number => Value.mk (.integer number) none) (FixedInt.ofInt_eq_of_patterns h)

end

/-! ## Operators on integers -/

/-- An operator that works modulo the number of bit patterns. -/
inductive ModularOperator
  | add | subtract | multiply | and | or | xor
  deriving DecidableEq

namespace ModularOperator

/-- The operator among all of them. -/
def operator : ModularOperator → InfixOperator
  | .add => .arithmetic .add
  | .subtract => .arithmetic .subtract
  | .multiply => .arithmetic .multiply
  | .and => .bitwise .and
  | .or => .bitwise .or
  | .xor => .bitwise .xor

/-- What it does with bit patterns. -/
def onPatterns {w : Nat} (op : ModularOperator) (x y : BitVec w) : BitVec w :=
  match op with
  | .add => x + y
  | .subtract => x - y
  | .multiply => x * y
  | .and => x &&& y
  | .or => x ||| y
  | .xor => x ^^^ y

end ModularOperator

namespace Operand

/-- **The right operand of an integer is cast to its type first**, if it is dimensionless. -/
theorem applyInfix_of_castTo (op : InfixOperator) {a b : FixedInt} {right : Value}
    (hcast : right.castTo (.integer a.type) = ⟨.integer b, none⟩) :
    applyInfix op ⟨.integer a, none⟩ right =
      applyCoerced op ⟨.integer a, none⟩ ⟨.integer b, none⟩ := by
  rw [← hcast]
  rfl

section

variable {a b : FixedInt} {right : Value}

theorem type_eq_of_castTo {type : IntegerType}
    (hcast : right.castTo (.integer type) = ⟨.integer b, none⟩) : b.type = type := by
  have htype := Value.type_castTo right (.integer type)
  rw [hcast] at htype
  exact NumberType.integer.inj htype

/-- Arithmetic on integers, with the result wrapped. -/
theorem applyInfix_arithmetic (op : ArithmeticOperator)
    (hcast : right.castTo (.integer a.type) = ⟨.integer b, none⟩) :
    applyInfix (.arithmetic op) ⟨.integer a, none⟩ right =
      (integerArithmetic op a b).map fun n => .integer a.type n := by
  rw [applyInfix_of_castTo _ hcast]
  simp only [applyCoerced, arithmetic]
  cases integerArithmetic op a b <;> rfl

/-- Operations on the bits of integers, with the result wrapped. -/
theorem applyInfix_bitwise (op : BitwiseOperator)
    (hcast : right.castTo (.integer a.type) = ⟨.integer b, none⟩) :
    applyInfix (.bitwise op) ⟨.integer a, none⟩ right =
      (bitwise op a b).map fun n => .integer a.type n := by
  rw [applyInfix_of_castTo _ hcast]
  show (bitwise op a b >>= fun n => .ok (Value.integer a.type n)) = _
  cases bitwise op a b <;> rfl

end

/-- The low bits of a result on operands of one type. -/
theorem exists_applyCoerced_modular (op : ModularOperator) {a b : FixedInt}
    (htype : b.type = a.type) :
    ∃ n : Int, applyCoerced op.operator ⟨.integer a, none⟩ ⟨.integer b, none⟩ =
        .ok (.integer a.type n) ∧
      ∀ w ≤ a.type.width, BitVec.ofInt w n = op.onPatterns (a.lowBits w) (b.lowBits w) := by
  have hb {w : Nat} (hw : w ≤ a.type.width) : w ≤ b.type.width := htype ▸ hw
  cases op with
  | add => exact ⟨_, rfl, fun w _ => BitVec.ofInt_add _ _⟩
  | multiply => exact ⟨_, rfl, fun w _ => BitVec.ofInt_mul _ _⟩
  | subtract =>
    refine ⟨_, rfl, fun w _ => ?_⟩
    rw [Int.sub_eq_add_neg, BitVec.ofInt_add, BitVec.ofInt_neg, ← BitVec.sub_eq_add_neg]
    rfl
  | and =>
    refine ⟨_, rfl, fun w hw => ?_⟩
    exact FixedInt.ofInt_onBits (fun _ _ => BitVec.ofNat_and) hw (hb hw)
  | or =>
    refine ⟨_, rfl, fun w hw => ?_⟩
    exact FixedInt.ofInt_onBits (fun _ _ => BitVec.ofNat_or) hw (hb hw)
  | xor =>
    refine ⟨_, rfl, fun w hw => ?_⟩
    exact FixedInt.ofInt_onBits (fun _ _ => BitVec.ofNat_xor) hw (hb hw)

/-- **The low bits of a result** are those of the operands, put together. -/
theorem exists_applyInfix_modular (op : ModularOperator) (a b : FixedInt) :
    ∃ n : Int, applyInfix op.operator ⟨.integer a, none⟩ ⟨.integer b, none⟩ =
        .ok (.integer a.type n) ∧
      ∀ w ≤ a.type.width, BitVec.ofInt w n = op.onPatterns (a.lowBits w) (b.lowBits w) := by
  obtain ⟨n, happly, hbits⟩ := exists_applyCoerced_modular op (FixedInt.type_ofInt a.type b.value)
  refine ⟨n, (applyInfix_of_castTo op.operator rfl).trans happly, fun w hw => ?_⟩
  rw [hbits w hw, FixedInt.lowBits_ofInt hw]
  rfl

/-- The low bits of a complement. -/
theorem ofInt_neg_sub_one (w : Nat) (n : Int) : BitVec.ofInt w (-n - 1) = ~~~BitVec.ofInt w n := by
  have hone : BitVec.ofInt w 1 = 1#w := BitVec.ofInt_natCast w 1
  rw [Int.sub_eq_add_neg, BitVec.ofInt_add, BitVec.ofInt_neg, BitVec.ofInt_neg,
    BitVec.neg_eq_not_add (BitVec.ofInt w n), BitVec.add_assoc, hone, BitVec.add_right_neg,
    BitVec.add_zero]

/-- The low bits of an opposite. -/
theorem ofInt_neg_eq (w : Nat) (n : Int) : BitVec.ofInt w (-n) = ~~~BitVec.ofInt w n + 1#w := by
  rw [BitVec.ofInt_neg, BitVec.neg_eq_not_add]

section

variable {target : IntegerType} {a : FixedInt}

/-- **The left operand can be cut down before.** -/
theorem applyInfix_castTo (h : target.width ≤ a.type.width) (op : ModularOperator) (b : FixedInt) :
    (applyInfix op.operator ⟨.integer a, none⟩ ⟨.integer b, none⟩).map
        (·.castTo (.integer target)) =
      applyInfix op.operator ⟨.integer (.ofInt target a.value), none⟩ ⟨.integer b, none⟩ := by
  obtain ⟨n, hwide, hbits⟩ := exists_applyInfix_modular op a b
  obtain ⟨m, hnarrow, hbits'⟩ := exists_applyInfix_modular op (.ofInt target a.value) b
  have hsame : BitVec.ofInt target.width n = BitVec.ofInt target.width m := by
    rw [hbits _ h, hbits' target.width (Nat.le_refl _), FixedInt.lowBits_ofInt (Nat.le_refl _)]
    rfl
  rw [hwide, hnarrow]
  show Except.ok ((Value.integer a.type n).castTo (.integer target)) = _
  rw [Value.castTo_integer h, Value.integer_congr hsame]
  rfl

theorem applyPrefix_complement_castTo (h : target.width ≤ a.type.width) :
    (applyPrefix .complement ⟨.integer a, none⟩).map (·.castTo (.integer target)) =
      applyPrefix .complement ⟨.integer (.ofInt target a.value), none⟩ := by
  show Except.ok ((Value.integer a.type (-a.value - 1)).castTo (.integer target)) =
    .ok (Value.integer target (-target.wrap a.value - 1))
  rw [Value.castTo_integer h]
  refine congrArg Except.ok (Value.integer_congr ?_)
  rw [ofInt_neg_sub_one, ofInt_neg_sub_one, IntegerType.ofInt_wrap (Nat.le_refl _)]

/-- The opposite of a number can be of another type, so it is cut down again. -/
theorem applyPrefix_negate_castTo (h : target.width ≤ a.type.width) :
    (applyPrefix .negate ⟨.integer a, none⟩).map (·.castTo (.integer target)) =
      (applyPrefix .negate ⟨.integer (.ofInt target a.value), none⟩).map
        (·.castTo (.integer target)) := by
  show Except.ok ((Value.integer a.type.toSigned (-a.value)).castTo (.integer target)) =
    .ok ((Value.integer target.toSigned (-target.wrap a.value)).castTo (.integer target))
  rw [Value.castTo_integer (by rwa [IntegerType.width_toSigned]),
    Value.castTo_integer (Nat.le_of_eq target.width_toSigned.symm)]
  refine congrArg Except.ok (Value.integer_congr ?_)
  rw [ofInt_neg_eq, ofInt_neg_eq, IntegerType.ofInt_wrap (Nat.le_refl _)]

end

/-- **Operators on integers are arithmetic of bit patterns**, those of a type with `w` bits modulo
`2 ^ w`, and it does not matter whether an operand or the result is cut down to a narrower type. -/
theorem integers_modular (a b : FixedInt) :
    (∀ op : ModularOperator, ∃ c : FixedInt,
      applyInfix op.operator ⟨.integer a, none⟩ ⟨.integer b, none⟩ = .ok ⟨.integer c, none⟩ ∧
        c.type = a.type ∧
        c.bits = (op.onPatterns (BitVec.ofNat a.type.width a.bits)
          (BitVec.ofInt a.type.width b.value)).toNat) ∧
    (∃ c : FixedInt, applyPrefix .complement ⟨.integer a, none⟩ = .ok ⟨.integer c, none⟩ ∧
      c.type = a.type ∧ c.bits = (~~~BitVec.ofNat a.type.width a.bits).toNat) ∧
    (∃ c : FixedInt, applyPrefix .negate ⟨.integer a, none⟩ = .ok ⟨.integer c, none⟩ ∧
      c.type = a.type.toSigned ∧ c.bits = (~~~BitVec.ofNat a.type.width a.bits + 1).toNat) ∧
    ∀ target : IntegerType, target.width ≤ a.type.width →
      (∀ op : ModularOperator,
        (applyInfix op.operator ⟨.integer a, none⟩ ⟨.integer b, none⟩).map
            (·.castTo (.integer target)) =
          applyInfix op.operator ((⟨.integer a, none⟩ : Value).castTo (.integer target))
            ⟨.integer b, none⟩) ∧
      (applyPrefix .complement ⟨.integer a, none⟩).map (·.castTo (.integer target)) =
        applyPrefix .complement ((⟨.integer a, none⟩ : Value).castTo (.integer target)) ∧
      (applyPrefix .negate ⟨.integer a, none⟩).map (·.castTo (.integer target)) =
        (applyPrefix .negate ((⟨.integer a, none⟩ : Value).castTo (.integer target))).map
          (·.castTo (.integer target)) := by
  have hwhole : BitVec.ofNat a.type.width a.bits = a.lowBits a.type.width :=
    FixedInt.ofNat_bits (Nat.le_refl _)
  rw [hwhole]
  refine ⟨fun op => ?_, ⟨_, rfl, rfl, ?_⟩, ⟨_, rfl, rfl, ?_⟩, fun target h =>
    ⟨fun op => applyInfix_castTo h op b, applyPrefix_complement_castTo h,
      applyPrefix_negate_castTo h⟩⟩
  · obtain ⟨n, happly, hbits⟩ := exists_applyInfix_modular op a b
    refine ⟨.ofInt a.type n, happly, rfl, ?_⟩
    rw [FixedInt.bits_ofInt, hbits _ (Nat.le_refl _)]
    rfl
  · rw [FixedInt.bits_ofInt, ofInt_neg_sub_one]
    rfl
  · rw [FixedInt.bits_ofInt, IntegerType.width_toSigned, ofInt_neg_eq]
    rfl

/-- The `i16` -300 less the `u64` 7 has the pattern of -307, and what a `u8` keeps of it is what it
keeps of -300, which is 212, less 7. -/
theorem integers_modular_difference :
    (∃ c : FixedInt, applyInfix (.arithmetic .subtract) ⟨.integer (.ofInt .i16 (-300)), none⟩
        ⟨.integer (.ofInt .u64 7), none⟩ = .ok ⟨.integer c, none⟩ ∧ c.type = .i16 ∧
      c.bits = 65229) ∧
    IntegerType.u8.width ≤ IntegerType.i16.width ∧
    (applyInfix (.arithmetic .subtract) ⟨.integer (.ofInt .i16 (-300)), none⟩
        ⟨.integer (.ofInt .u64 7), none⟩).map (·.castTo (.integer .u8)) =
      applyInfix (.arithmetic .subtract) ⟨.integer (.ofInt .u8 212), none⟩
        ⟨.integer (.ofInt .u64 7), none⟩ := by
  have hwidth : IntegerType.u8.width ≤ IntegerType.i16.width := by decide
  obtain ⟨hpatterns, -, -, hnarrow⟩ := integers_modular (.ofInt .i16 (-300)) (.ofInt .u64 7)
  obtain ⟨c, happly, htype, hbits⟩ := hpatterns .subtract
  obtain ⟨hcut, -, -⟩ := hnarrow .u8 hwidth
  refine ⟨⟨c, happly, htype, hbits.trans (by decide)⟩, hwidth, (hcut .subtract).trans ?_⟩
  rfl

end Operand

end TypedCalc
