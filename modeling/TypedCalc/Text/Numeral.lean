/-!
# Numerals

Reading a run of digits in a base.  Digits above nine are the letters from `a` on, in either
case.  Writing is `Nat.toDigits`.
-/

namespace TypedCalc.Numeral

/-- The value of a digit; a character that is no digit counts as zero. -/
def digitValue (c : Char) : Nat :=
  if c.isDigit then c.toNat - '0'.toNat
  else if 'a' ≤ c ∧ c ≤ 'z' then c.toNat - 'a'.toNat + 10
  else if 'A' ≤ c ∧ c ≤ 'Z' then c.toNat - 'A'.toNat + 10
  else 0

/-- Whether a character is a digit of a base. -/
def isDigitOf (base : Nat) (c : Char) : Bool :=
  (c.isDigit || ('a' ≤ c && c ≤ 'z') || ('A' ≤ c && c ≤ 'Z')) && digitValue c < base

/-- The number that a run of digits denotes. -/
def read (base : Nat) (digits : List Char) : Nat :=
  digits.foldl (fun number c => base * number + digitValue c) 0

/-- The digits of a number in a base. -/
def write (base number : Nat) : List Char := Nat.toDigits base number

/-- The digits of a number in a base, with zeros in front up to a given width. -/
def writePadded (base width number : Nat) : List Char :=
  let digits := write base number
  List.replicate (width - digits.length) '0' ++ digits

/-- The decimal text of a whole number, with a minus sign when it is negative. -/
def ofInt (n : Int) : List Char :=
  if n < 0 then '-' :: write 10 n.natAbs else write 10 n.natAbs

end TypedCalc.Numeral
