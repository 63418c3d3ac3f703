import Keysong.Decimal.Text
import Keysong.Decimal.Nearest

/-!
# Quantities of time

Positions and lengths in seconds are computed in a number type that is left open.  A performance
runs on machine numbers; the same definitions over fractions say what it would be without
rounding, and tie it to what is written in a file.

## Main Definitions

* `Quantity` — what is asked of a number type
* the instances for `Float` and `Rat`
-/

namespace Keysong

/-- Numbers that positions and lengths of time can be computed in. -/
class Quantity (τ : Type) extends Add τ, Sub τ, Mul τ, Div τ, LT τ, LE τ, BEq τ where
  decidableLT (a b : τ) : Decidable (a < b)
  decidableLE (a b : τ) : Decidable (a ≤ b)
  /-- A count. -/
  ofNat : Nat → τ
  /-- A machine number, which has to be finite. -/
  ofFloat : Float → τ
  /-- The nearest integer, a half to the even neighbour; nothing for what is not finite. -/
  nearest : τ → Option Int
  /-- The form with a set number of places. -/
  fixed : Nat → τ → String

namespace Quantity

variable {τ : Type} [Quantity τ]

instance (a b : τ) : Decidable (a < b) := decidableLT a b

instance (a b : τ) : Decidable (a ≤ b) := decidableLE a b

/-- The later of two positions. -/
def later (a b : τ) : τ := if a < b then b else a

/-- The position zero. -/
def zero : τ := ofNat 0

end Quantity

instance : Quantity Float where
  decidableLT a b := inferInstanceAs (Decidable (a < b))
  decidableLE a b := inferInstanceAs (Decidable (a ≤ b))
  ofNat n := Decimal.ofFraction false n 1
  ofFloat x := x
  nearest x := (Decimal.Double.ofFloat x).nearest
  fixed := Decimal.fixed

/-- The nearest integer to a fraction, a half to the even neighbour. -/
def nearestInt (x : Rat) : Int :=
  Decimal.Double.signed (decide (x.num < 0)) (Decimal.roundDiv x.num.natAbs x.den)

instance : Quantity Rat where
  decidableLT a b := inferInstanceAs (Decidable (a < b))
  decidableLE a b := inferInstanceAs (Decidable (a ≤ b))
  ofNat n := (n : Rat)
  ofFloat x := (Decimal.Double.ofFloat x).toRat
  nearest x := some (nearestInt x)
  fixed := Decimal.fixedRat

end Keysong
