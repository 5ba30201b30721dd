import TypedCalc.Binary64.Basic

/-!
# Arithmetic on doubles

Each operation computes its exact result on counts of units and rounds it once to the nearest
double, ties to even.  The exceptional cases follow IEEE 754: an infinity less itself, a zero
times an infinity and a zero over a zero are not numbers, and a nonzero number over zero is
an infinity.
-/

namespace TypedCalc.Binary64

/-- The signed count of units of a finite double. -/
def signedUnits (negative : Bool) (units : Nat) : Int :=
  if negative then -(units : Int) else units

/-- The sum, rounded once.  Opposite numbers add up to the positive zero. -/
def add : Binary64 → Binary64 → Binary64
  | .nan, _ => .nan
  | _, .nan => .nan
  | .infinity a, .infinity b => if a = b then .infinity a else .nan
  | .infinity a, .finite .. => .infinity a
  | .finite .., .infinity b => .infinity b
  | .finite a m _, .finite b n _ =>
    let total := signedUnits a m + signedUnits b n
    if total = 0 then zero (a && b) else ofUnits (decide (total < 0)) total.natAbs 1

/-- The difference, rounded once. -/
def sub (x y : Binary64) : Binary64 := add x y.neg

/-- The product, rounded once. -/
def mul : Binary64 → Binary64 → Binary64
  | .nan, _ => .nan
  | _, .nan => .nan
  | .infinity a, .infinity b => .infinity (a ^^ b)
  | .infinity a, .finite b n _ => if n = 0 then .nan else .infinity (a ^^ b)
  | .finite a m _, .infinity b => if m = 0 then .nan else .infinity (a ^^ b)
  | .finite a m _, .finite b n _ => ofUnits (a ^^ b) (m * n) unitsPerOne

/-- The quotient, rounded once. -/
def div : Binary64 → Binary64 → Binary64
  | .nan, _ => .nan
  | _, .nan => .nan
  | .infinity _, .infinity _ => .nan
  | .infinity a, .finite b _ _ => .infinity (a ^^ b)
  | .finite a _ _, .infinity b => zero (a ^^ b)
  | .finite a m _, .finite b n _ =>
    if n = 0 then
      if m = 0 then .nan else .infinity (a ^^ b)
    else ofUnits (a ^^ b) (m * unitsPerOne) n

/-- The remainder of the quotient truncated toward zero, which is always exact and has the
sign of the dividend. -/
def rem : Binary64 → Binary64 → Binary64
  | .nan, _ => .nan
  | _, .nan => .nan
  | .infinity _, _ => .nan
  | .finite a m h, .infinity _ => .finite a m h
  | .finite a m _, .finite _ n _ => if n = 0 then .nan else ofUnits a (m % n) 1

/-- The quotient by a number that is not zero. -/
def quotient (x y : Binary64) (_ : y.isZero = false) : Binary64 := x.div y

/-- The remainder of a number that is not infinite by one that is not zero. -/
def remainder (x y : Binary64) (_ : x.isInfinite = false) (_ : y.isZero = false) : Binary64 :=
  x.rem y

/-- The square root, rounded once; a negative number other than zero has none.

Twice the root in units is cut down to a whole number, and half a step is added when the cut
lost something: no rounding boundary lies strictly between two neighbouring whole numbers of
half units, so the result rounds the same way as the exact root. -/
def sqrt : Binary64 → Binary64
  | .nan => .nan
  | .infinity negative => if negative then .nan else .infinity false
  | .finite negative units h =>
    if units = 0 then .finite negative units h
    else if negative then .nan
    else
      let square := 4 * (units * unitsPerOne)
      let root := square.sqrt
      let lost := if root * root = square then 0 else 1
      ofUnits false (2 * root + lost) 4

/-! ## Whole numbers -/

/-- The magnitude of a finite double cut down to a whole number. -/
def wholePart (units : Nat) : Nat := units / unitsPerOne

/-- Whether a finite double has no fractional part. -/
def isWhole : Binary64 → Bool
  | .finite _ units _ => units % unitsPerOne == 0
  | _ => false

/-- The whole number obtained by dropping the fraction of a finite double. -/
def truncate? : Binary64 → Option Int
  | .finite negative units _ =>
    some (if negative then -(wholePart units : Int) else wholePart units)
  | _ => none

/-- The largest whole number not above a finite double. -/
def floor? : Binary64 → Option Int
  | .finite negative units _ => some (signedUnits negative units / (unitsPerOne : Int))
  | _ => none

/-- The smallest whole number not below a finite double. -/
def ceil? : Binary64 → Option Int
  | .finite negative units _ => some (-(-signedUnits negative units / (unitsPerOne : Int)))
  | _ => none

/-- Whether a double is an odd whole number. -/
def isOddWhole : Binary64 → Bool
  | .finite _ units _ => units % unitsPerOne == 0 && wholePart units % 2 == 1
  | _ => false

/-- One half. -/
def half : Binary64 := ofRatio false 1 2

end TypedCalc.Binary64
