import Mathlib.Data.List.Basic
import Mathlib.Data.List.Induction
import Mathlib.Data.Nat.Digits.Defs
import TypedCalc.Binary64.Basic
import TypedCalc.Text.Numeral

/-!
# Numerals read back

The digits of a number denote the number, and digits in a row denote a sum of powers of the base.

* `Numeral.read_append`: what two runs of digits denote together.
* `Numeral.denotation`: what digits denote, told by their places.
* `Numeral.read_write_of_le`: the digits of a number are read as that number.
* `Numeral.head?_write_ne`: they do not start with a zero, unless the number is zero.
-/

namespace TypedCalc.Numeral

theorem read_append (base : Nat) (digits more : List Char) :
    read base (digits ++ more) = read base digits * base ^ more.length + read base more := by
  have hfold (start : Nat) (cs : List Char) :
      cs.foldl (fun number c => base * number + digitValue c) start =
        start * base ^ cs.length + read base cs := by
    induction cs generalizing start with
    | nil => simp [read]
    | cons c rest ih =>
      have hrest : read base (c :: rest) = digitValue c * base ^ rest.length + read base rest := by
        rw [read, List.foldl_cons, ih, Nat.mul_zero, Nat.zero_add]
      rw [List.foldl_cons, ih, hrest, List.length_cons, Nat.pow_succ]
      grind
  rw [read, List.foldl_append, hfold]
  rfl

@[simp] theorem read_nil (base : Nat) : read base [] = 0 := rfl

@[simp] theorem read_replicate_zero (base count : Nat) :
    read base (List.replicate count '0') = 0 := by
  induction count with
  | zero => rfl
  | succ count ih =>
    have hzero : read base ['0'] = 0 := rfl
    rw [List.replicate_succ, ← List.singleton_append, read_append, ih, hzero, Nat.zero_mul]

/-- Zeros in front of a numeral do not count. -/
theorem read_replicate_zero_append (base count : Nat) (digits : List Char) :
    read base (List.replicate count '0' ++ digits) = read base digits := by
  rw [read_append, read_replicate_zero, Nat.zero_mul, Nat.zero_add]

/-- Zeros after a numeral multiply it. -/
theorem read_append_replicate_zero (base count : Nat) (digits : List Char) :
    read base (digits ++ List.replicate count '0') = read base digits * base ^ count := by
  rw [read_append, read_replicate_zero, List.length_replicate, Nat.add_zero]

/-! ## What digits denote -/

/-- The number that digits in a base denote: the last one counts itself, and each one in front of
another counts the base times as much. -/
def denotation (base : Nat) (digits : List Char) : Nat :=
  Nat.ofDigits base (digits.reverse.map digitValue)

theorem read_eq_denotation (base : Nat) (digits : List Char) :
    read base digits = denotation base digits := by
  induction digits using List.reverseRecOn with
  | nil => rfl
  | append_singleton digits c ih =>
    have hread : read base (digits ++ [c]) = base * read base digits + digitValue c := by
      rw [read, List.foldl_append]
      rfl
    rw [hread, ih, denotation, denotation, List.reverse_append, List.reverse_singleton,
      List.singleton_append, List.map_cons, Nat.ofDigits_cons, Nat.add_comm]

/-! ## Writing and reading -/

section

variable {base : Nat}

theorem digitValue_digitChar {d : Nat} (h : d < 16) : digitValue d.digitChar = d := by
  have hall : ∀ d < 16, digitValue d.digitChar = d := by decide
  exact hall d h

theorem isDigitOf_digitChar {d : Nat} (hd : d < base) (hbase : base ≤ 16) :
    isDigitOf base d.digitChar = true := by
  have hall : ∀ d < 16, (d.digitChar.isDigit || ('a' ≤ d.digitChar && d.digitChar ≤ 'z') ||
      ('A' ≤ d.digitChar && d.digitChar ≤ 'Z')) = true := by decide
  rw [isDigitOf, digitValue_digitChar (Nat.lt_of_lt_of_le hd hbase), hall d (by omega),
    decide_eq_true hd]
  rfl

/-- **The digits of a number denote it**, in every base up to sixteen. -/
theorem read_write_of_le (hone : 1 < base) (hbase : base ≤ 16) (number : Nat) :
    read base (write base number) = number := by
  have hsingle (c : Char) : read base [c] = digitValue c := by
    simp [read]
  induction number using Nat.strongRecOn with
  | ind number ih =>
    rcases Nat.lt_or_ge number base with hlt | hge
    · rw [write, Nat.toDigits_of_lt_base hlt, hsingle, digitValue_digitChar (by omega)]
    · have hquotient : read base (write base (number / base)) = number / base :=
        ih _ (Nat.div_lt_self (by omega) hone)
      have hdigit : number % base < base := Nat.mod_lt _ (by omega)
      rw [write] at hquotient
      rw [write, Nat.toDigits_of_base_le hone hge, read_append, hquotient, hsingle,
        digitValue_digitChar (by omega), List.length_singleton, Nat.pow_one]
      exact Nat.div_add_mod' number base

/-- All digits of a number are digits of the base. -/
theorem isDigitOf_of_mem_write (hone : 1 < base) (hbase : base ≤ 16) {number : Nat} {c : Char}
    (h : c ∈ write base number) : isDigitOf base c = true := by
  induction number using Nat.strongRecOn with
  | ind number ih =>
    rw [write] at h
    rcases Nat.lt_or_ge number base with hlt | hge
    · rw [Nat.toDigits_of_lt_base hlt] at h
      rw [List.mem_singleton.mp h]
      exact isDigitOf_digitChar hlt hbase
    · rw [Nat.toDigits_of_base_le hone hge] at h
      rcases List.mem_append.mp h with h | h
      · exact ih _ (Nat.div_lt_self (by omega) hone) h
      · rw [List.mem_singleton.mp h]
        exact isDigitOf_digitChar (Nat.mod_lt _ (by omega)) hbase

/-- Digits of a base denote less than the power of the base that has one more. -/
theorem read_lt_pow {digits : List Char} (h : ∀ c ∈ digits, isDigitOf base c = true) :
    read base digits < base ^ digits.length := by
  induction digits with
  | nil => exact Nat.zero_lt_one
  | cons c digits ih =>
    have hc : digitValue c + 1 ≤ base :=
      of_decide_eq_true (Bool.and_eq_true_iff.mp (h c List.mem_cons_self)).2
    have hrest := ih fun d hd => h d (List.mem_cons_of_mem _ hd)
    have hfirst : read base [c] = digitValue c := by simp [read]
    rw [← List.singleton_append, read_append, hfirst, List.length_append, List.length_singleton,
      Nat.pow_add, Nat.pow_one]
    have hscale := Nat.mul_le_mul_right (base ^ digits.length) hc
    rw [Nat.succ_mul] at hscale
    omega

theorem write_ne_nil (base number : Nat) : write base number ≠ [] := Nat.toDigits_ne_nil

end

/-! ## Decimal numerals -/

theorem isDigit_of_mem_write {number : Nat} {c : Char} (h : c ∈ write 10 number) :
    c.isDigit = true := Nat.isDigit_of_mem_toDigits (by decide) (by decide) h

theorem read_write (number : Nat) : read 10 (write 10 number) = number :=
  read_write_of_le (by decide) (by decide) number

theorem isDigitOf_of_isDigit {c : Char} (h : c.isDigit = true) : isDigitOf 10 c = true := by
  have hrange : '0'.toNat ≤ c.toNat ∧ c.toNat ≤ '9'.toNat := by
    simpa [Char.isDigit, Char.le_def, UInt32.le_iff_toNat_le] using h
  have hzero : '0'.toNat = 48 := rfl
  have hnine : '9'.toNat = 57 := rfl
  have hvalue : digitValue c < 10 := by
    rw [digitValue, if_pos h]
    omega
  rw [isDigitOf, h, decide_eq_true hvalue]
  rfl

/-- A number is written with no more digits than any numeral of it has. -/
theorem length_write_read_le {digits : List Char} (hne : digits ≠ [])
    (h : ∀ c ∈ digits, c.isDigit = true) : (write 10 (read 10 digits)).length ≤ digits.length :=
  (Nat.length_toDigits_le_iff (by decide) (List.length_pos_iff.mpr hne)).mpr
    (read_lt_pow fun c hc => isDigitOf_of_isDigit (h c hc))

/-- A positive number is written without a zero in front. -/
theorem head?_write_ne {number : Nat} (h : 0 < number) : (write 10 number).head? ≠ some '0' := by
  induction number using Nat.strongRecOn with
  | ind number ih =>
    rcases Nat.lt_or_ge number 10 with hlt | hge
    · rw [write, Nat.toDigits_of_lt_base hlt, List.head?_cons, ne_eq, Option.some_inj,
        Nat.digitChar_eq_zero]
      exact Nat.ne_of_gt h
    · have hquotient : (write 10 (number / 10)).head? ≠ some '0' :=
        ih (number / 10) (by omega) (by omega)
      rw [write, Nat.toDigits_of_base_le (by decide) hge,
        List.head?_append_of_ne_nil _ Nat.toDigits_ne_nil]
      exact hquotient

end TypedCalc.Numeral
