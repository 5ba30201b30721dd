import TypedCalc.Binary64.Arithmetic
import TypedCalc.Binary64.Bits

/-!
# Elementary functions on doubles

Sines, logarithms and powers come from a `MathLibrary`, whose functions can refuse their
arguments.  Around them this file fixes the results at the edges: what a logarithm gives at zero
and below, what an inverse function gives outside its domain, and which infinity a power that
overflows gives.  A refusal that is not expected at its place gets through.

`MathLibrary.platform` is the library of the platform.  It is reached through the bit patterns of
doubles.
-/

namespace TypedCalc

/-- What was too large for a double. -/
inductive Overflow
  /-- The result of a function. -/
  | result
  /-- An infinity, which is no whole number. -/
  | infinity
  /-- A whole number. -/
  | whole
  deriving DecidableEq, Repr

/-- Why a function on doubles gives no result. -/
inductive MathFault
  /-- The function is not defined there. -/
  | domain
  /-- Something is too large. -/
  | overflow (cause : Overflow)
  deriving DecidableEq, Repr

/-- The wording of a fault. -/
def MathFault.message : MathFault → String
  | .domain => "math domain error"
  | .overflow .result => "math range error"
  | .overflow .infinity => "cannot convert float infinity to integer"
  | .overflow .whole => "int too large to convert to float"

/-- A library of elementary functions. -/
structure MathLibrary where
  /-- The sine of an angle in radians. -/
  sin : Binary64 → Except MathFault Binary64
  /-- The cosine of an angle in radians. -/
  cos : Binary64 → Except MathFault Binary64
  /-- The tangent of an angle in radians. -/
  tan : Binary64 → Except MathFault Binary64
  /-- The angle with a given sine. -/
  asin : Binary64 → Except MathFault Binary64
  /-- The angle with a given cosine. -/
  acos : Binary64 → Except MathFault Binary64
  /-- The angle with a given tangent. -/
  atan : Binary64 → Except MathFault Binary64
  /-- The square root. -/
  sqrt : Binary64 → Except MathFault Binary64
  /-- The exponential. -/
  exp : Binary64 → Except MathFault Binary64
  /-- The natural logarithm. -/
  log : Binary64 → Except MathFault Binary64
  /-- The logarithm to base two. -/
  log2 : Binary64 → Except MathFault Binary64
  /-- The logarithm to base ten. -/
  log10 : Binary64 → Except MathFault Binary64
  /-- The power. -/
  pow : Binary64 → Binary64 → Except MathFault Binary64

namespace Binary64

/-! ## Results at the edges -/

/-- A trigonometric function: not-a-number outside its domain. -/
def trigonometric (function : Binary64 → Except MathFault Binary64) (x : Binary64) :
    Except MathFault Binary64 :=
  if x.isNaN then .ok x
  else
    match function x with
    | .error .domain => .ok .nan
    | result => result

/-- The square root: not-a-number below zero. -/
def squareRoot (function : Binary64 → Except MathFault Binary64) (x : Binary64) :
    Except MathFault Binary64 :=
  if x.lt (zero false) then .ok .nan else function x

/-- The exponential; past the largest double it is infinite. -/
def exponential (function : Binary64 → Except MathFault Binary64) (x : Binary64) :
    Except MathFault Binary64 :=
  match function x with
  | .error (.overflow _) => .ok (.infinity false)
  | result => result

/-- A logarithm: minus infinity at zero and not-a-number below it. -/
def logarithm (function : Binary64 → Except MathFault Binary64) (x : Binary64) :
    Except MathFault Binary64 :=
  if x.isZero then .ok (.infinity true)
  else if x.lt (zero false) then .ok .nan
  else function x

/-- The power of two doubles.

A power that is too large is minus infinity for a negative base with an odd exponent and plus
infinity otherwise.  Where the power is not defined, a zero of either sign to a negative power is
plus infinity and anything else is not a number. -/
def pow (function : Binary64 → Binary64 → Except MathFault Binary64)
    (base exponent : Binary64) : Binary64 :=
  match function base exponent with
  | .ok power => power
  | .error (.overflow _) => .infinity (base.lt (zero false) && exponent.isOddWhole)
  | .error .domain =>
    if base.isZero && exponent.lt (zero false) then .infinity false else .nan

/-! ## Whole numbers -/

/-- A whole number as a double, refused when it is too large. -/
def ofWhole (n : Int) : Except MathFault Binary64 :=
  (ofInt? n).elim (.error (.overflow .whole)) .ok

/-- The largest whole number not above the argument; infinities and not-a-number stay. -/
def floor (x : Binary64) : Except MathFault Binary64 :=
  match x.floor? with
  | some n => ofWhole n
  | none => .ok x

/-- The smallest whole number not below the argument; infinities and not-a-number stay. -/
def ceil (x : Binary64) : Except MathFault Binary64 :=
  match x.ceil? with
  | some n => ofWhole n
  | none => .ok x

/-- Rounding by cutting down the magnitude plus one half, where that sum is itself rounded to a
double; the sign is kept, also that of a zero.  Infinities and not-a-number stay. -/
def round (x : Binary64) : Except MathFault Binary64 :=
  if x.isFinite then
    match (x.abs.add half).floor? with
    | some n => (ofWhole n).map fun whole => whole.withSign x.isNegative
    | none => .error (.overflow .infinity)
  else .ok x

/-! ## Angles and constants -/

/-- The number pi, rounded to a double. -/
def pi : Binary64 := ofBits 0x400921fb54442d18

/-- Euler's number, rounded to a double. -/
def e : Binary64 := ofBits 0x4005bf0a8b145769

/-- The number 180 as a double. -/
def halfTurn : Binary64 := ofInt 180

/-- An angle in radians, measured in degrees. -/
def degrees (x : Binary64) : Binary64 := x.mul (halfTurn.div pi)

/-- An angle in degrees, measured in radians. -/
def radians (x : Binary64) : Binary64 := x.mul (pi.div halfTurn)

/-! ## The platform -/

/-- The platform's number with the same bit pattern. -/
def toFloat (x : Binary64) : Float := Float.ofBits x.toBits

/-- The double with the platform number's bit pattern. -/
def ofFloat (x : Float) : Binary64 := ofBits x.toBits

/-- A platform function on doubles. -/
def viaPlatform (function : Float → Float) (x : Binary64) : Binary64 :=
  ofFloat (function x.toFloat)

/-- A platform function that is refused outside its domain: where only not-a-number comes out of
a number. -/
def viaPlatform? (function : Float → Float) (x : Binary64) : Except MathFault Binary64 :=
  let result := viaPlatform function x
  if result.isNaN && !x.isNaN then .error .domain else .ok result

/-- A platform logarithm, which is refused at zero and below. -/
def platformLogarithm (function : Float → Float) (x : Binary64) : Except MathFault Binary64 :=
  if x.isZero || x.lt (zero false) then .error .domain else .ok (viaPlatform function x)

/-- The platform's exponential, refused where a finite argument gives an infinity. -/
def platformExponential (x : Binary64) : Except MathFault Binary64 :=
  let result := viaPlatform Float.exp x
  if result.isInfinite && x.isFinite then .error (.overflow .result) else .ok result

/-- The platform's power.  For finite arguments it is refused where it is too large, where a zero
would be divided by, and where a negative base has a fractional exponent. -/
def platformPower (base exponent : Binary64) : Except MathFault Binary64 :=
  let power := ofFloat (Float.pow base.toFloat exponent.toFloat)
  if base.isFinite && exponent.isFinite then
    if base.isZero && exponent.lt (zero false) then .error .domain
    else if power.isInfinite then .error (.overflow .result)
    else if base.lt (zero false) && !exponent.isWhole then .error .domain
    else .ok power
  else .ok power

end Binary64

/-- The platform's library.  The square root is computed here. -/
def MathLibrary.platform : MathLibrary where
  sin := Binary64.viaPlatform? Float.sin
  cos := Binary64.viaPlatform? Float.cos
  tan := Binary64.viaPlatform? Float.tan
  asin := Binary64.viaPlatform? Float.asin
  acos := Binary64.viaPlatform? Float.acos
  atan x := .ok (Binary64.viaPlatform Float.atan x)
  sqrt x := if x.lt (Binary64.zero false) then .error .domain else .ok x.sqrt
  exp := Binary64.platformExponential
  log := Binary64.platformLogarithm Float.log
  log2 := Binary64.platformLogarithm Float.log2
  log10 := Binary64.platformLogarithm Float.log10
  pow := Binary64.platformPower

end TypedCalc
