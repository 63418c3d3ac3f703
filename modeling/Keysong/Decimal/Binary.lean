/-!
# Exact values of binary fractions

A double stands for a sign and a number `mantissa * 2 ^ exponent`.  Everything that is printed or
rounded is computed from that exact number, in natural-number arithmetic.

## Main Definitions

* `roundDiv` — a quotient rounded to the nearest integer
* `Size`, `Double` — what the bits of a double stand for
* `Double.truncate`, `Double.nearest` — its integer part and its nearest integer
* `Double.toRat` — its value as a fraction
-/

namespace Keysong.Decimal

/-- A power of two. -/
abbrev pow2 (n : Nat) : Nat := Nat.pow 2 n

/-- A power of ten. -/
abbrev pow10 (n : Nat) : Nat := Nat.pow 10 n

/-- The quotient rounded to the nearest integer; a half goes to the even neighbour. -/
def roundDiv (num den : Nat) : Nat :=
  let quotient := num / den
  match compare (2 * (num % den)) den with
  | .lt => quotient
  | .gt => quotient + 1
  | .eq => if quotient % 2 == 0 then quotient else quotient + 1

/-- The rounded quotient lies within half a unit of the exact one. -/
theorem roundDiv_near (num den : Nat) (h : 0 < den) :
    2 * (roundDiv num den * den) ≤ 2 * num + den ∧
      2 * num ≤ 2 * (roundDiv num den * den) + den := by
  have whole : den * (num / den) + num % den = num := Nat.div_add_mod num den
  have small : num % den < den := Nat.mod_lt _ h
  simp only [roundDiv]
  generalize num / den = q at *
  generalize num % den = r at *
  have step : (q + 1) * den = den * q + den := by rw [Nat.add_mul, Nat.mul_comm]; simp
  have swap : q * den = den * q := Nat.mul_comm ..
  generalize den * q = p at *
  split
  · rename_i hc; rw [Nat.compare_eq_lt] at hc; omega
  · rename_i hc; rw [Nat.compare_eq_gt] at hc; omega
  · rename_i hc; rw [Nat.compare_eq_eq] at hc; split <;> omega

/-- A quotient that is an integer is not changed. -/
theorem roundDiv_mul (n den : Nat) (h : 0 < den) : roundDiv (n * den) den = n := by
  have far : compare 0 den = .lt := by rw [Nat.compare_eq_lt]; exact h
  simp [roundDiv, far, Nat.mul_div_cancel _ h]

/-- The size of a double, its sign left aside. -/
inductive Size where
  /-- No number at all. -/
  | undefined
  | infinite
  /-- The number `mantissa * 2 ^ exponent`. -/
  | finite (mantissa : Nat) (exponent : Int)
  deriving Repr, DecidableEq

/-- A sign and a size. -/
structure Double where
  negative : Bool
  size : Size
  deriving Repr, DecidableEq

namespace Double

/-- What the bits of a double stand for. -/
def ofBits (bits : UInt64) : Double :=
  let exponent := ((bits >>> 52) &&& 0x7FF).toNat
  let fraction := (bits &&& 0xFFFFFFFFFFFFF).toNat
  { negative := bits >>> 63 == 1
    size :=
      if exponent == 0x7FF then (if fraction == 0 then .infinite else .undefined)
      else if exponent == 0 then .finite fraction (-1074)
      else .finite (pow2 52 + fraction) ((exponent : Int) - 1075) }

/-- What a machine number stands for. -/
def ofFloat (x : Float) : Double := ofBits x.toBits

/-- The numerator of `mantissa * 2 ^ exponent`. -/
def numerator (mantissa : Nat) (exponent : Int) : Nat := mantissa * pow2 exponent.toNat

/-- The denominator of `mantissa * 2 ^ exponent`. -/
def denominator (exponent : Int) : Nat := pow2 (-exponent).toNat

theorem denominator_pos (exponent : Int) : 0 < denominator exponent :=
  Nat.two_pow_pos _

/-- A size with a sign. -/
def signed (negative : Bool) (n : Nat) : Int := if negative then -(n : Int) else n

/-- The integer part of a finite number: what is behind the point is dropped. -/
def truncate (x : Double) : Option Int :=
  match x.size with
  | .finite m q => some (signed x.negative (numerator m q / denominator q))
  | _ => none

/-- The integer nearest to a finite number; a half goes to the even neighbour. -/
def nearest (x : Double) : Option Int :=
  match x.size with
  | .finite m q => some (signed x.negative (roundDiv (numerator m q) (denominator q)))
  | _ => none

/-- The value of a finite number as a fraction; what is not finite counts as nothing. -/
def toRat (x : Double) : Rat :=
  match x.size with
  | .finite m q => mkRat (signed x.negative (numerator m q)) (denominator q)
  | _ => 0

end Double

end Keysong.Decimal
