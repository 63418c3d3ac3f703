import Keysong.Decimal.Binary

/-!
# The nearest double

Rounds a fraction of natural numbers to the nearest double, a half to the even neighbour.  The
result is computed from the exact fraction in one step, so that no digit is lost on the way.

## Main Definitions

* `nearestDouble` — the mantissa and the exponent of the nearest double
* `wholePart` — the nearest double without what is behind its point
* `ofFraction`, `ofInt` — the nearest double as a machine number
-/

namespace Keysong.Decimal

/-- The binary exponent of the leading digit of `num / den`, for positive numbers. -/
def leadingBit (num den : Nat) : Int :=
  let guess := (num.log2 : Int) - den.log2
  if num * pow2 (-guess).toNat < den * pow2 guess.toNat then guess - 1 else guess

/-- The mantissa and the exponent of the double nearest to `num / den`.

A mantissa has at most 53 digits (or is `2 ^ 53`, where the rounding carries), and no exponent is
below -1074. -/
def nearestDouble (num den : Nat) : Nat × Int :=
  if num = 0 then (0, -1074)
  else
    let exponent := max (leadingBit num den - 52) (-1074)
    (roundDiv (num * pow2 (-exponent).toNat) (den * pow2 exponent.toNat), exponent)

/-- Whether `mantissa * 2 ^ exponent` is beyond the largest double. -/
def exceeds (mantissa : Nat) (exponent : Int) : Bool :=
  decide (pow2 1024 ≤ mantissa * pow2 exponent.toNat)

/-- The double nearest to `num / den` without what is behind its point; nothing if it is beyond
the largest double. -/
def wholePart (num den : Nat) : Option Nat :=
  let (mantissa, exponent) := nearestDouble num den
  if exceeds mantissa exponent then none
  else some (mantissa * pow2 exponent.toNat / pow2 (-exponent).toNat)

/-- The double nearest to `num / den` as a machine number, infinite beyond the largest double.

The fields of a double lie side by side, so a mantissa with its leading digit set counts as one
more in the exponent. -/
def ofFraction (negative : Bool) (num den : Nat) : Float :=
  let (mantissa, exponent) := nearestDouble num den
  let size :=
    if exceeds mantissa exponent then 0x7FF * pow2 52
    else (exponent + 1074).toNat * pow2 52 + mantissa
  Float.ofBits (UInt64.ofNat (size + if negative then pow2 63 else 0))

/-- The double nearest to an integer; nothing if it is beyond the largest double. -/
def ofInt (n : Int) : Option Float :=
  let (mantissa, exponent) := nearestDouble n.natAbs 1
  if exceeds mantissa exponent then none else some (ofFraction (decide (n < 0)) n.natAbs 1)

end Keysong.Decimal
