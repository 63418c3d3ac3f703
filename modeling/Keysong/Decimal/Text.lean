import Keysong.Decimal.Digits

/-!
# Written numbers

How numbers stand in messages and listings: in their shortest form, with a fixed number of
places, or with six significant digits.  The three share one layout.

## Main Definitions

* `Layout` — where positional writing ends, and whether an integral value keeps a `.0`
* `plain` — the shortest form: `0.1`, `120.0`, `1e+16`, `1e-05`
* `general` — six significant digits: `120`, `33.3333`, `1e+300`
* `fixed` — a set number of places: `2.67`
-/

namespace Keysong.Decimal

/-- The decisions of a layout.  Numbers below `10 ^ (-4)` are always written with an exponent. -/
structure Layout where
  /-- The least exponent of a leading digit that is written with an exponent. -/
  scientificFrom : Int
  /-- Whether an integral value is written with `.0`. -/
  pointZero : Bool

/-- The digits of a natural number. -/
def naturalDigits (n : Nat) : List Char := Nat.toDigits 10 n

/-- A row of zeros. -/
def zeros (n : Nat) : List Char := List.replicate n '0'

/-- An exponent: a sign and at least two digits. -/
def exponentText (e : Int) : List Char :=
  let digits := naturalDigits e.natAbs
  'e' :: (if e < 0 then '-' else '+') :: (zeros (2 - digits.length) ++ digits)

/-- Writes a numeral without trailing zeros. -/
def Layout.write (layout : Layout) (d : Numeral) : List Char :=
  let digits := naturalDigits d.digits
  let lead := (digits.length : Int) - 1 + d.exponent
  if -4 ≤ lead ∧ lead < layout.scientificFrom then
    if 0 ≤ d.exponent then
      digits ++ zeros d.exponent.toNat ++ (if layout.pointZero then ['.', '0'] else [])
    else if 0 ≤ lead then
      digits.take (lead.toNat + 1) ++ '.' :: digits.drop (lead.toNat + 1)
    else
      '0' :: '.' :: (zeros ((-lead).toNat - 1) ++ digits)
  else
    digits.take 1 ++ (if digits.length ≤ 1 then [] else '.' :: digits.drop 1) ++ exponentText lead

/-- Writes the sign, and what is not a finite number; the rest is left to `body`. -/
def withSign (x : Double) (body : Nat → Int → List Char) : String :=
  let sign := if x.negative then ['-'] else []
  match x.size with
  | .undefined => "nan"
  | .infinite => String.ofList (sign ++ ['i', 'n', 'f'])
  | .finite m q => String.ofList (sign ++ body m q)

/-- Writes the digits that `choose` gives; zero has none to choose. -/
def Layout.writeValue (layout : Layout) (choose : Nat → Int → Numeral) (m : Nat) (q : Int) :
    List Char :=
  layout.write (if m = 0 then ⟨0, 0⟩ else choose m q)

/-- A number in its shortest form, positional below `10 ^ 16`. -/
def plain (x : Float) : String :=
  withSign (.ofFloat x) (Layout.writeValue ⟨16, true⟩ shortest)

/-- A number with six significant digits, positional below `10 ^ 6`. -/
def general (x : Float) : String :=
  withSign (.ofFloat x) (Layout.writeValue ⟨6, false⟩ (rounded 6))

/-- The digits of `num / den` with a set number of places, a half to the even neighbour. -/
def fixedDigits (places num den : Nat) : List Char :=
  let digits := naturalDigits (roundDiv (num * pow10 places) den)
  let padded := zeros (places + 1 - digits.length) ++ digits
  let whole := padded.length - places
  padded.take whole ++ (if places = 0 then [] else '.' :: padded.drop whole)

/-- A number with a set number of places, rounded from its exact value. -/
def fixed (places : Nat) (x : Float) : String :=
  withSign (.ofFloat x) fun m q =>
    fixedDigits places (Double.numerator m q) (Double.denominator q)

/-- A fraction with a set number of places. -/
def fixedRat (places : Nat) (x : Rat) : String :=
  String.ofList ((if x.num < 0 then ['-'] else []) ++ fixedDigits places x.num.natAbs x.den)

/-- An integer with its sign, also when it is not negative. -/
def withPlus (n : Int) : String := if n < 0 then toString n else "+" ++ toString n

end Keysong.Decimal
