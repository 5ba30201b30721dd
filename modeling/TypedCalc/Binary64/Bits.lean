import TypedCalc.Binary64.Basic

/-!
# The 64-bit interchange format

A double is written as one sign digit, eleven exponent digits and fifty-two fraction digits.
With exponent field `e` and fraction `f` the count of units is `f` when `e` is zero and
`(2 ^ 52 + f) * 2 ^ (e - 1)` otherwise, and the exponent field `2047` is kept for the
infinities and for not-a-number.  In the other direction a count `n` with `k` slack digits has
the fields `k * 2 ^ 52 + n / 2 ^ k`, whether it is subnormal or not.
-/

namespace TypedCalc.Binary64

/-- The double that a bit pattern stands for; every not-a-number pattern is the same. -/
def ofBits (bits : UInt64) : Binary64 :=
  let negative := bits.toNat / 2 ^ 63 == 1
  let exponent := bits.toNat / 2 ^ 52 % 2 ^ 11
  let fraction := bits.toNat % 2 ^ 52
  if exponent = 2047 then
    if fraction = 0 then .infinity negative else .nan
  else if exponent = 0 then ofUnits negative fraction 1
  else ofUnits negative ((2 ^ 52 + fraction) * 2 ^ (exponent - 1)) 1

/-- The value of the sign digit. -/
def signBit (negative : Bool) : Nat := if negative then 2 ^ 63 else 0

/-- The bit pattern of a double; not-a-number has its quiet pattern. -/
def toBits : Binary64 → UInt64
  | .nan => 0x7ff8000000000000
  | .infinity negative => UInt64.ofNat (signBit negative + 2047 * 2 ^ 52)
  | .finite negative units _ =>
    UInt64.ofNat (signBit negative + slack units * 2 ^ 52 + units / 2 ^ slack units)

end TypedCalc.Binary64
