import Mathlib.Data.List.TakeWhile
import TypedCalc.Proofs.Binary64.Decimal

/-!
# The texts of doubles

The text of a finite double has digits before a point and digits after it, or one digit, perhaps a
point and more digits, and an exponent.  In both forms the digits and the exponent stand for the
decimal number that the double is read from.

* `Binary64.exists_positional`, `Binary64.exists_scientific`: the parts of the two forms.
* `Binary64.decimalText_cases`, `Binary64.finiteText_cases`: the text of a decimal number and that
  of a double have one of the two forms.
-/

namespace TypedCalc

/-! ## Runs of characters -/

/-- A run of characters with a property ends where a character without it follows. -/
theorem takeWhile_append_of_head {p : Char → Bool} {run rest : List Char}
    (hrun : ∀ c ∈ run, p c = true) (hrest : ∀ c ∈ rest.head?, p c = false) :
    (run ++ rest).takeWhile p = run := by
  rw [List.takeWhile_append_of_pos hrun]
  cases rest with
  | nil => exact List.append_nil run
  | cons c rest => rw [List.takeWhile_cons_of_neg (by simp [hrest c rfl]), List.append_nil]

theorem ne_of_isDigit {c d : Char} (hc : c.isDigit = true) (hd : d.isDigit = false) : c ≠ d := by
  rintro rfl
  exact absurd (hc.symm.trans hd) (by decide)

/-- Whether a text consists of digits, with a zero in front only if it stands alone. -/
structure IsWholeNumeral (digits : List Char) : Prop where
  isDigit : ∀ c ∈ digits, c.isDigit = true
  ne_nil : digits ≠ []
  zero : digits.head? = some '0' → digits = ['0']

theorem isWholeNumeral_zero : IsWholeNumeral ['0'] :=
  ⟨List.forall_mem_singleton.mpr rfl, nofun, fun _ => rfl⟩

theorem isWholeNumeral_of_head? {digits : List Char} (hdigits : ∀ c ∈ digits, c.isDigit = true)
    (hne : digits ≠ []) (hhead : digits.head? ≠ some '0') : IsWholeNumeral digits :=
  ⟨hdigits, hne, fun h => absurd h hhead⟩

theorem isWholeNumeral_write (number : Nat) : IsWholeNumeral (Numeral.write 10 number) := by
  rcases Nat.eq_zero_or_pos number with rfl | hpos
  · exact isWholeNumeral_zero
  · exact isWholeNumeral_of_head? (fun _ => Numeral.isDigit_of_mem_write)
      (Numeral.write_ne_nil 10 number) (Numeral.head?_write_ne hpos)

theorem isDigit_of_mem_replicate_zero {count : Nat} {c : Char}
    (h : c ∈ List.replicate count '0') : c.isDigit = true := by
  rw [List.eq_of_mem_replicate h]
  rfl

namespace Binary64

/-- Zeros are all that is cut off. -/
theorem exists_withoutTrailingZeros (digits : List Char) :
    ∃ zeros, withoutTrailingZeros digits ++ List.replicate zeros '0' = digits := by
  have hsplit : digits.reverse.takeWhile (· == '0') ++ digits.reverse.dropWhile (· == '0') =
      digits.reverse := List.takeWhile_append_dropWhile
  have hzeros : digits.reverse.takeWhile (· == '0') =
      List.replicate (digits.reverse.takeWhile (· == '0')).length '0' := by
    refine List.eq_replicate_of_mem fun c hc => ?_
    have hzero := List.mem_takeWhile_imp hc
    exact beq_iff_eq.mp hzero
  refine ⟨(digits.reverse.takeWhile (· == '0')).length, ?_⟩
  have hreverse := congrArg List.reverse hsplit
  rw [List.reverse_append, List.reverse_reverse, hzeros, List.reverse_replicate] at hreverse
  exact hreverse

/-! ## The two forms -/

section

variable {digits : List Char}

/-- Digits with the point in front of them, among them or behind them. -/
theorem exists_positional (point : Int) (hdigits : ∀ c ∈ digits, c.isDigit = true)
    (hne : digits ≠ []) (hhead : digits.head? ≠ some '0') :
    ∃ whole fraction, positional digits point = whole ++ '.' :: fraction ∧
      IsWholeNumeral whole ∧ (∀ c ∈ fraction, c.isDigit = true) ∧ fraction ≠ [] ∧
      ∀ negative, Decimal.toBinary64 negative
          ⟨Numeral.read 10 (whole ++ fraction), -(fraction.length : Int)⟩ =
        Decimal.toBinary64 negative ⟨Numeral.read 10 digits, point - digits.length⟩ := by
  unfold positional
  by_cases hfront : point ≤ 0
  · -- all digits stand behind the point, after some zeros
    refine ⟨['0'], List.replicate (-point).toNat '0' ++ digits, ?_, isWholeNumeral_zero, ?_, ?_, ?_⟩
    · rw [if_pos hfront]
      rfl
    · exact List.forall_mem_append.mpr ⟨fun _ => isDigit_of_mem_replicate_zero, hdigits⟩
    · exact List.append_ne_nil_of_right_ne_nil _ hne
    · intro negative
      have hzeros : ['0'] ++ (List.replicate (-point).toNat '0' ++ digits) =
          List.replicate ((-point).toNat + 1) '0' ++ digits := rfl
      rw [hzeros, Numeral.read_replicate_zero_append, List.length_append, List.length_replicate]
      congr 2
      omega
  · rcases Int.lt_or_le point digits.length with hinside | hback
    · refine ⟨digits.take point.toNat, digits.drop point.toNat, ?_, ?_, ?_, ?_, ?_⟩
      · rw [if_neg (by omega), if_pos hinside]
      · refine isWholeNumeral_of_head? (fun c hc => hdigits c (List.mem_of_mem_take hc)) ?_ ?_
        · rw [ne_eq, List.take_eq_nil_iff, not_or]
          exact ⟨by omega, hne⟩
        · rwa [List.head?_take, if_neg (by omega)]
      · exact fun c hc => hdigits c (List.mem_of_mem_drop hc)
      · rw [ne_eq, List.drop_eq_nil_iff]
        omega
      · intro negative
        rw [List.take_append_drop, List.length_drop]
        congr 2
        omega
    · refine ⟨digits ++ List.replicate (point.toNat - digits.length) '0', ['0'], ?_, ?_, ?_, ?_, ?_⟩
      · rw [if_neg (by omega), if_neg (by omega)]
      · refine isWholeNumeral_of_head?
          (List.forall_mem_append.mpr ⟨hdigits, fun _ => isDigit_of_mem_replicate_zero⟩) ?_ ?_
        · exact List.append_ne_nil_of_left_ne_nil hne _
        · rwa [List.head?_append_of_ne_nil _ hne]
      · exact isWholeNumeral_zero.isDigit
      · exact List.cons_ne_nil _ _
      · intro negative
        have hzeros : digits ++ List.replicate (point.toNat - digits.length) '0' ++ ['0'] =
            digits ++ List.replicate (point.toNat - digits.length + 1) '0' := by
          rw [List.replicate_succ', List.append_assoc]
        rw [hzeros, Numeral.read_append_replicate_zero, Decimal.toBinary64_mul_pow]
        congr 2
        rw [List.length_singleton]
        omega

/-- One digit, a point if more digits follow, and an exponent. -/
theorem exists_scientific (hne : digits ≠ []) (exponent : Int) :
    ∃ first fraction, digits = first :: fraction ∧
      scientific digits exponent =
        first :: (if fraction = [] then [] else '.' :: fraction) ++
          'e' :: (if exponent < 0 then '-' else '+') ::
            Numeral.writePadded 10 2 exponent.natAbs := by
  match digits with
  | [first] => exact ⟨first, [], rfl, rfl⟩
  | first :: second :: rest =>
    refine ⟨first, second :: rest, rfl, ?_⟩
    rw [if_neg (List.cons_ne_nil _ _)]
    simp only [scientific, List.cons_append, List.append_assoc, List.nil_append]
  | [] => exact absurd rfl hne

end

/-! ## The text of a decimal number -/

/-- **The text of a decimal number** shows digits and a place of the point that stand for the same
double.  It has an exponent if the point is far away from the digits. -/
theorem decimalText_cases {d : Decimal} (hd : 0 < d.digits) :
    ∃ digits point, (∀ c ∈ digits, c.isDigit = true) ∧ digits ≠ [] ∧
      digits.head? ≠ some '0' ∧
      (∀ negative, Decimal.toBinary64 negative ⟨Numeral.read 10 digits, point - digits.length⟩ =
        d.toBinary64 negative) ∧
      (decimalText d = positional digits point ∨
        decimalText d = scientific digits (point - 1)) := by
  obtain ⟨zeros, hzeros⟩ := exists_withoutTrailingZeros (Numeral.write 10 d.digits)
  have hwhole := isWholeNumeral_write d.digits
  have hhead := Numeral.head?_write_ne hd
  have hread := Numeral.read_write d.digits
  have hlength := congrArg List.length hzeros
  rw [← hzeros, Numeral.read_append_replicate_zero] at hread
  rw [List.length_append, List.length_replicate] at hlength
  have hne : withoutTrailingZeros (Numeral.write 10 d.digits) ≠ [] := by
    intro hnil
    rw [hnil, Numeral.read_nil, Nat.zero_mul] at hread
    omega
  refine ⟨withoutTrailingZeros (Numeral.write 10 d.digits),
    (Numeral.write 10 d.digits).length + d.exponent, ?_, hne, ?_, ?_, ?_⟩
  · exact fun c hc => hwhole.isDigit c (hzeros ▸ List.mem_append_left _ hc)
  · rwa [← List.head?_append_of_ne_nil _ hne, hzeros]
  · intro negative
    have hexponent : (((Numeral.write 10 d.digits).length : Int) + d.exponent -
        ((withoutTrailingZeros (Numeral.write 10 d.digits)).length : Int)) =
          d.exponent + zeros := by omega
    rw [hexponent, ← Decimal.toBinary64_mul_pow, hread]
  · unfold decimalText
    dsimp only
    split
    · exact .inl rfl
    · exact .inr rfl

/-- The sign stands before the text of the magnitude. -/
theorem finiteText_eq_signed (negative : Bool) (units : Nat) :
    finiteText negative units = signed negative (finiteText false units) := by
  cases negative <;> rfl

/-- **The text of a finite double** has a point between digits, or an exponent after one digit and
perhaps a point and more digits.  Both stand for the double. -/
theorem finiteText_cases {units : Nat} (h : Representable units) :
    (∃ whole fraction, finiteText false units = whole ++ '.' :: fraction ∧ IsWholeNumeral whole ∧
      (∀ c ∈ fraction, c.isDigit = true) ∧ fraction ≠ [] ∧
      ∀ negative, Decimal.toBinary64 negative
          ⟨Numeral.read 10 (whole ++ fraction), -(fraction.length : Int)⟩ =
        .finite negative units h) ∨
    ∃ first fraction exponent, finiteText false units =
        first :: (if fraction = [] then [] else '.' :: fraction) ++
          'e' :: (if exponent < 0 then '-' else '+') ::
            Numeral.writePadded 10 2 exponent.natAbs ∧
      IsWholeNumeral [first] ∧ (∀ c ∈ fraction, c.isDigit = true) ∧
      ∀ negative, Decimal.toBinary64 negative
          ⟨Numeral.read 10 (first :: fraction), exponent - (fraction.length : Int)⟩ =
        .finite negative units h := by
  by_cases hunits : units = 0
  · subst hunits
    exact .inl ⟨['0'], ['0'], rfl, isWholeNumeral_zero, isWholeNumeral_zero.isDigit,
      List.cons_ne_nil _ _, fun negative => if_pos rfl⟩
  obtain ⟨digits, point, hdigits, hne, hhead, hvalue, hform⟩ :=
    decimalText_cases (digits_shortest_pos h hunits)
  have htext : finiteText false units = decimalText (shortest units) := by
    rw [finiteText, if_neg hunits, signed, if_neg Bool.false_ne_true]
  simp only [toBinary64_shortest h] at hvalue
  rw [htext]
  rcases hform with hform | hform
  · obtain ⟨whole, fraction, hparts, hwhole, hfraction, hnonempty, hsame⟩ :=
      exists_positional point hdigits hne hhead
    exact .inl ⟨whole, fraction, hform.trans hparts, hwhole, hfraction, hnonempty,
      fun negative => (hsame negative).trans (hvalue negative)⟩
  · obtain ⟨first, fraction, rfl, hparts⟩ := exists_scientific hne (point - 1)
    have hwhole : IsWholeNumeral [first] := isWholeNumeral_of_head?
      (List.forall_mem_singleton.mpr (hdigits first (List.mem_cons_self ..)))
      (List.cons_ne_nil _ _) hhead
    refine .inr ⟨first, fraction, point - 1, hform.trans hparts, hwhole,
      fun c hc => hdigits c (List.mem_cons_of_mem _ hc), fun negative => ?_⟩
    have hexponent : point - 1 - (fraction.length : Int) =
        point - ((first :: fraction).length : Int) := by
      rw [List.length_cons]
      omega
    rw [hexponent, hvalue]

end Binary64

end TypedCalc
