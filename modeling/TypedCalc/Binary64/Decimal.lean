import TypedCalc.Binary64.Basic
import TypedCalc.Text.Numeral

/-!
# Decimal texts of doubles

Three texts connect doubles with decimal notation.

* `Decimal.toBinary64` reads: the double nearest to a decimal number.
* `Binary64.shortest` writes the fewest significant digits that read back, and of those the
  nearest to the double, a tie going to the even last digit.
* `Binary64.fixed` writes a given number of places, rounded from the exact value.

`Binary64.text` lays the shortest digits out: positionally when the first digit stands between
four places after the point and sixteen before it, and with an exponent otherwise.
-/

namespace TypedCalc

/-- The number `digits * 10 ^ exponent`. -/
structure Decimal where
  /-- The significant digits, read as one whole number. -/
  digits : Nat
  /-- The power of ten that they are multiplied by. -/
  exponent : Int
  deriving DecidableEq, Repr

namespace Decimal

/-- The quotient `num / den` divided by a power of ten, as a quotient of natural numbers. -/
def scale (num den : Nat) (power : Int) : Nat × Nat :=
  if 0 ≤ power then (num, den * 10 ^ power.toNat) else (num * 10 ^ (-power).toNat, den)

/-- The double nearest to a decimal number.  Numbers from `10 ^ 310` on are infinite and
numbers below `10 ^ (-330)` are zero, whatever their digits, so neither power is computed. -/
def toBinary64 (negative : Bool) (d : Decimal) : Binary64 :=
  if d.digits = 0 then Binary64.zero negative
  else if 310 < d.exponent then .infinity negative
  else if d.exponent + (d.digits.log2 + 1) < -330 then Binary64.zero negative
  else
    let quotient := scale d.digits 1 (-d.exponent)
    Binary64.ofRatio negative quotient.1 quotient.2

end Decimal

namespace Binary64

/-! ## The fewest digits that read back -/

/-- The position of the first significant digit of `num / den`: the power of ten that is the
largest not above it. -/
def leadingPower (num den : Nat) : Int :=
  if den ≤ num then (Numeral.write 10 (num / den)).length - 1
  else -((Numeral.write 10 ((den - 1) / num)).length : Int)

/-- The two decimal numbers next to a count of units among the multiples of a power of ten, the
nearer one first and of two equally near ones the even one first. -/
def neighbours (units : Nat) (power : Int) : List Decimal :=
  let quotient := Decimal.scale units unitsPerOne power
  let below := quotient.1 / quotient.2
  let nearest := nearestNat quotient.1 quotient.2
  [⟨nearest, power⟩, ⟨if nearest = below then below + 1 else below, power⟩]

/-- The decimal number that equals a count of units exactly. -/
def exactDecimal (units : Nat) : Decimal := ⟨units * 5 ^ 1074, -1074⟩

/-- Whether a decimal number reads back as a positive double with this count of units. -/
def readsBack (units : Nat) (d : Decimal) : Bool :=
  match d.toBinary64 false with
  | .finite _ found _ => found == units
  | _ => false

/-- The decimal number with the fewest digits that reads back as a count of units. -/
def shortest (units : Nat) : Decimal :=
  let leading := leadingPower units unitsPerOne
  match (List.range 17).findSome? fun (place : Nat) =>
      (neighbours units (leading - place)).find? (readsBack units) with
  | some d => d
  | none => exactDecimal units

/-! ## Layout -/

/-- A run of digits without the zeros at its end. -/
def withoutTrailingZeros (digits : List Char) : List Char :=
  (digits.reverse.dropWhile (· == '0')).reverse

/-- Digits with the decimal point after the first `point` of them. -/
def positional (digits : List Char) (point : Int) : List Char :=
  if point ≤ 0 then
    ['0', '.'] ++ List.replicate (-point).toNat '0' ++ digits
  else if point < digits.length then
    digits.take point.toNat ++ '.' :: digits.drop point.toNat
  else
    digits ++ List.replicate (point.toNat - digits.length) '0' ++ ['.', '0']

/-- Digits with the point after the first one and a signed exponent of at least two digits. -/
def scientific (digits : List Char) (exponent : Int) : List Char :=
  let mantissa := match digits with
    | first :: second :: rest => first :: '.' :: second :: rest
    | short => short
  mantissa ++ ['e', if exponent < 0 then '-' else '+'] ++
    Numeral.writePadded 10 2 exponent.natAbs

/-- The text of a positive decimal number: positional when the point falls from four places
before the first digit to sixteen places after it. -/
def decimalText (d : Decimal) : List Char :=
  let all := Numeral.write 10 d.digits
  let point := all.length + d.exponent
  let digits := withoutTrailingZeros all
  if -4 < point ∧ point ≤ 16 then positional digits point
  else scientific digits (point - 1)

/-- A text with a minus sign in front when asked for. -/
def signed (negative : Bool) (text : List Char) : List Char :=
  if negative then '-' :: text else text

/-- The text of a finite double from its shortest digits. -/
def finiteText (negative : Bool) (units : Nat) : List Char :=
  signed negative (if units = 0 then ['0', '.', '0'] else decimalText (shortest units))

/-- The shortest text that reads back, with names for the numbers that have no digits. -/
def text : Binary64 → String
  | .nan => "nan"
  | .infinity negative => if negative then "-inf" else "inf"
  | .finite negative units _ => String.ofList (finiteText negative units)

/-! ## A fixed number of places -/

/-- The text with a given number of decimal places, rounded from the exact value with ties to
the even last digit.  The sign is kept even when all digits are zero. -/
def fixed (places : Nat) (negative : Bool) (units : Nat) : List Char :=
  let rounded := nearestNat (units * 10 ^ places) unitsPerOne
  let whole := Numeral.write 10 (rounded / 10 ^ places)
  signed negative
    (if places = 0 then whole
     else whole ++ '.' :: Numeral.writePadded 10 places (rounded % 10 ^ places))

end Binary64

end TypedCalc
