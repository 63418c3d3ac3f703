import Keysong.Decimal.Binary

/-!
# Decimal digits of a binary fraction

Which decimal digits stand for a double.  `shortest` gives the fewest digits that read back as
the same double: the reals that round to it form an interval, and the first decimal grid with a
point inside that interval, next to the value, is taken.  `rounded` gives a fixed number of
significant digits of the exact value.

## Main Definitions

* `Numeral` — `digits * 10 ^ exponent`
* `scale` — the least power of ten above a value
* `readsBack` — whether a numeral rounds to a given double
* `shortest`, `rounded` — the two choices of digits

## Design Notes

The search compares exact integers only.  Seventeen digits always suffice; if no grid is hit, the
exact value is returned, so the result always stands for the double it was computed from.
-/

namespace Keysong.Decimal

/-- The number `digits * 10 ^ exponent`. -/
structure Numeral where
  digits : Nat
  exponent : Int
  deriving Repr, DecidableEq

/-- Compare `a * 10 ^ i` with `n * 2 ^ j`. -/
def compareScaled (a : Nat) (i : Int) (n : Nat) (j : Int) : Ordering :=
  compare (a * pow10 i.toNat * pow2 (-j).toNat) (n * pow2 j.toNat * pow10 (-i).toNat)

/-- Whether the double below `m * 2 ^ q` is half as far away as the one above. -/
def narrowBelow (m : Nat) (q : Int) : Bool := m == pow2 52 && decide (-1074 < q)

/-- Whether a numeral lies among the reals that round to `m * 2 ^ q`. -/
def readsBack (m : Nat) (q : Int) (d : Numeral) : Bool :=
  let low := if narrowBelow m q then 4 * m - 1 else 4 * m - 2
  let ends := m % 2 == 0
  let below := compareScaled d.digits d.exponent low (q - 2)
  let above := compareScaled d.digits d.exponent (4 * m + 2) (q - 2)
  (below == .gt || (ends && below == .eq)) && (above == .lt || (ends && above == .eq))

/-- The least `k` with `m * 2 ^ q < 10 ^ k`, for a positive mantissa. -/
def scale (m : Nat) (q : Int) : Int :=
  let guess := (((m.log2 : Int) + q) * 30103).fdiv 100000 - 1
  let tries := [guess, guess + 1, guess + 2, guess + 3]
  (tries.find? fun k => compareScaled 1 k m q == .gt).getD (guess + 4)

/-- The value `m * 2 ^ q` in units of `10 ^ e`, as a numerator and a denominator. -/
def inUnits (m : Nat) (q e : Int) : Nat × Nat :=
  (m * pow2 q.toNat * pow10 (-e).toNat, pow2 (-q).toNat * pow10 e.toNat)

/-- The point of the grid of step `10 ^ e` that reads back as `m * 2 ^ q`, the nearer of two. -/
def onGrid (m : Nat) (q e : Int) : Option Numeral :=
  let (num, den) := inUnits m q e
  let lower := num / den
  match readsBack m q ⟨lower, e⟩, readsBack m q ⟨lower + 1, e⟩ with
  | true, true => some ⟨roundDiv num den, e⟩
  | true, false => some ⟨lower, e⟩
  | false, true => some ⟨lower + 1, e⟩
  | false, false => none

/-- The exact value as a numeral. -/
def exactly (m : Nat) (q : Int) : Numeral :=
  ⟨m * pow2 q.toNat * Nat.pow 5 (-q).toNat, if q < 0 then q else 0⟩

/-- Moves trailing zeros of the digits into the exponent, at most `fuel` of them. -/
def stripZeros : Nat → Numeral → Numeral
  | 0, d => d
  | fuel + 1, d =>
    if d.digits ≠ 0 ∧ d.digits % 10 = 0 then stripZeros fuel ⟨d.digits / 10, d.exponent + 1⟩
    else d

/-- The fewest digits that read back as `m * 2 ^ q`, for a positive mantissa. -/
def shortest (m : Nat) (q : Int) : Numeral :=
  let k := scale m q
  let grids := (List.range 17).map fun (n : Nat) => k - 1 - (n : Int)
  let found := (grids.findSome? (onGrid m q)).getD (exactly m q)
  stripZeros (found.digits.log2 + 1) found

/-- The exact value rounded to `count` significant digits, a half to the even neighbour. -/
def rounded (count : Nat) (m : Nat) (q : Int) : Numeral :=
  let e := scale m q - (count : Int)
  let (num, den) := inUnits m q e
  let found : Numeral := ⟨roundDiv num den, e⟩
  stripZeros (found.digits.log2 + 1) found

end Keysong.Decimal
