import Keysong.Decimal.Limit
import Keysong.Decimal.Nearest
import Keysong.Text.Blank
import Keysong.Text.DecimalDigit

/-!
# Reading numbers

Numbers as people type them: white space around, a sign, decimal digits of any script, and single
underscores between digits.

## Main Definitions

* `WholeFault`, `readWhole` — an integer
* `readDecimal` — a number with a point or an exponent, an infinity, or no number at all
-/

namespace Keysong.Decimal

open Keysong.Text

/-- White space that may stand around a number: the blanks without the information separators. -/
def isSpace (c : Char) : Bool :=
  isBlank c && !(decide (0x1C ≤ c.toNat) && decide (c.toNat ≤ 0x1F))

/-- A text without the white space around it. -/
def strip (text : List Char) : List Char :=
  ((text.dropWhile isSpace).reverse.dropWhile isSpace).reverse

/-- Splits a leading sign off; the flag tells whether it was a minus. -/
def splitSign : List Char → Bool × List Char
  | '-' :: rest => (true, rest)
  | '+' :: rest => (false, rest)
  | text => (false, text)

/-- A decimal digit of any script. -/
def isDigit (c : Char) : Bool := (digit? c).isSome

/-- Whether every underscore stands between two digits. -/
def wellSeparated : Bool → List Char → Bool
  | _, [] => true
  | afterDigit, '_' :: rest =>
    afterDigit && (match rest with | [] => false | c :: _ => isDigit c) && wellSeparated false rest
  | _, c :: rest => wellSeparated (isDigit c) rest

/-- Why a text is not read as an integer. -/
inductive WholeFault where
  | malformed
  /-- More digits than are ever converted. -/
  | tooLong (digits : Nat)
  deriving Repr, DecidableEq

/-- The integer that a row of digits stands for, unless there are too many of them. -/
def readDigits (negative : Bool) (digits : List Nat) : Except WholeFault Int :=
  if digitLimit < digits.length then .error (.tooLong digits.length)
  else .ok (Double.signed negative (digitsValue digits))

/-- Reads an integer.  The digits are counted before anything behind them is looked at. -/
def readWhole (text : List Char) : Except WholeFault Int :=
  let (negative, body) := splitSign (strip text)
  let isBody (c : Char) : Bool := isDigit c || c == '_'
  let numeric := body.takeWhile isBody
  if !wellSeparated false numeric then .error .malformed
  else
    let digits := numeric.filterMap digit?
    match readDigits negative digits with
    | .error fault => .error fault
    | .ok n => if digits.isEmpty || body.length != numeric.length then .error .malformed else .ok n

/-- Small letters for the capital ones of the words below. -/
def lowered (text : List Char) : List Char := text.map Char.toLower

/-- The words for numbers that no digits can write. -/
def readWord (negative : Bool) (text : List Char) : Option Float :=
  let word := String.ofList (lowered text)
  if word == "inf" || word == "infinity" then
    some (if negative then -(1.0 / 0.0) else 1.0 / 0.0)
  else if word == "nan" then some (0.0 / 0.0)
  else none

/-- The double nearest to `digits * 10 ^ exponent`.

A number whose leading digit is far outside the range of doubles is decided by its place alone. -/
def ofNumeral (negative : Bool) (digits : Nat) (exponent : Int) : Float :=
  let lead : Int := (Nat.toDigits 10 digits).length + exponent
  if digits = 0 ∨ lead < -400 then (if negative then -0.0 else 0.0)
  else if 400 < lead then (if negative then -(1.0 / 0.0) else 1.0 / 0.0)
  else ofFraction negative (digits * pow10 exponent.toNat) (pow10 (-exponent).toNat)

/-- The exponent part of a number: nothing at all, or a mark, a sign and digits. -/
def readExponent : List Char → Option Int
  | [] => some 0
  | mark :: rest =>
    if mark = 'e' ∨ mark = 'E' then
      let (negative, body) := splitSign rest
      if body.isEmpty || !body.all isDigit then none
      else some (Double.signed negative (digitsValue (body.filterMap digit?)))
    else none

/-- Reads a number that may have a point, an exponent, or no finite value. -/
def readDecimal (text : List Char) : Option Float :=
  let (negative, body) := splitSign (strip text)
  if !wellSeparated false body then none
  else
    let plainBody := body.filter (· != '_')
    let whole := plainBody.takeWhile isDigit
    let behindWhole := plainBody.dropWhile isDigit
    let (places, behindPlaces) :=
      match behindWhole with
      | '.' :: rest => (rest.takeWhile isDigit, rest.dropWhile isDigit)
      | rest => ([], rest)
    if whole.isEmpty && places.isEmpty then readWord negative body
    else
      (readExponent behindPlaces).map fun exponent =>
        ofNumeral negative (digitsValue ((whole ++ places).filterMap digit?))
          (exponent - places.length)

end Keysong.Decimal
