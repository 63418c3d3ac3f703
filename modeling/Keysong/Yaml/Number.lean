import Keysong.Text.LetterCase
import Keysong.Yaml.Tag

/-!
# Numbers of a settings file

The numbers that scalars stand for.  Underscores do not count in them, and parts between colons
count sixty of each other.  A scalar with a tag can be any text, so a number need not be there.

## Main Definitions

* `wholeOf` — the integer of a scalar
* `doubleOf` — the double of a scalar
-/

namespace Keysong.Yaml

open Keysong.Decimal Keysong.Text

/-- The characters of a text; halves of surrogate pairs are in no number. -/
def visible (text : List CodePoint) : List Char := text.map CodePoint.shownAs

/-- A text without underscores. -/
def withoutUnderscores (text : List CodePoint) : List CodePoint :=
  text.filter fun p => p != .char '_'

/-- Splits a leading sign off; the flag tells whether it was a minus. -/
def splitSignPoint : List CodePoint → Bool × List CodePoint
  | .char '-' :: rest => (true, rest)
  | .char '+' :: rest => (false, rest)
  | text => (false, text)

/-! ### Integers -/

/-- The digit in a base up to sixteen that a character stands for, in any script. -/
def digitIn? (base : Nat) (c : Char) : Option Nat :=
  ((digit? c).orElse fun _ => hexDigit? c).filter fun d => decide (d < base)

/-- The letter between a zero and the digits in a base. -/
def baseMark (base : Nat) : Char := if base = 2 then 'b' else if base = 8 then 'o' else 'x'

/-- The digits of an integer, without the mark of its base. -/
def behindMark (base : Nat) (text : List Char) : List Char :=
  match text with
  | '0' :: mark :: rest => if mark.toLower = baseMark base then rest else text
  | _ => text

/-- Reads an integer in a base other than ten. -/
def readInBase (base : Nat) (text : List CodePoint) : Except Fault Int :=
  let (negative, body) := splitSign (strip (visible text))
  let digits := behindMark base body
  match digits, digits.mapM (digitIn? base) with
  | _ :: _, some values =>
    .ok (Double.signed negative (values.foldl (fun n d => base * n + d) 0))
  | _, _ => .error (.malformedInteger base (Value.ofPoints text))

/-- Reads a decimal integer. -/
def readInteger (text : List CodePoint) : Except Fault Int :=
  match readWhole (visible text) with
  | .ok n => .ok n
  | .error .malformed => .error (.malformedInteger 10 (Value.ofPoints text))
  | .error (.tooLong digits) => .error (.tooManyDigits digits)

/-- Reads the size of an integer, its sign left aside. -/
def readSize (text : List CodePoint) : Except Fault Int :=
  match text with
  | [] => .error .emptyNumber
  | [.char '0'] => .ok 0
  | .char '0' :: .char 'b' :: digits => readInBase 2 digits
  | .char '0' :: .char 'x' :: digits => readInBase 16 digits
  | .char '0' :: _ => readInBase 8 text
  | _ =>
    if text.contains (.char ':') then do
      let parts ← (splitAt (.char ':') text).mapM readInteger
      return parts.foldl (fun n part => 60 * n + part) 0
    else readInteger text

/-- The integer that a scalar stands for. -/
def wholeOf (text : List CodePoint) : Except Fault Int := do
  let (negative, body) := splitSignPoint (withoutUnderscores text)
  let size ← readSize body
  return if negative then -size else size

/-! ### Doubles -/

/-- Reads a number with a point, an exponent, or no finite value. -/
def readDouble (text : List CodePoint) : Except Fault Float :=
  match readDecimal (visible text) with
  | some x => .ok x
  | none => .error (.malformedNumber (Value.ofPoints text))

/-- The sum of numbers that count sixty of each other, the smallest unit first.  The sixties are
multiplied exactly, and may get too large for a double even where nothing is counted in them. -/
def sumSixtieths (parts : List Float) : Except Fault Float := do
  let (sum, _) ← parts.foldlM (fun ((sum, unit) : Float × Nat) part =>
    match ofInt unit with
    | some factor => Except.ok (sum + part * factor, unit * 60)
    | none => Except.error Fault.numberTooLarge) (0.0, 1)
  return sum

/-- A text in small letters, code point by code point. -/
def smallPoints (text : List CodePoint) : List CodePoint :=
  text.flatMap fun p =>
    match p with
    | .char c => codePoints (small c)
    | .half _ => [p]

/-- Reads the size of a double, its sign left aside. -/
def readMagnitude (text : List CodePoint) : Except Fault Float :=
  if text.contains (.char ':') then do
    let parts ← (splitAt (.char ':') text).mapM readDouble
    sumSixtieths parts.reverse
  else if visible text == ['.', 'i', 'n', 'f'] then .ok (1.0 / 0.0)
  else readDouble text

/-- The double that a scalar stands for. -/
def doubleOf (text : List CodePoint) : Except Fault Float := do
  let text := smallPoints (withoutUnderscores text)
  let (negative, body) := splitSignPoint text
  if text.isEmpty then throw .emptyNumber
  else if visible body == ['.', 'n', 'a', 'n'] then return 0.0 / 0.0
  else
    let size ← readMagnitude body
    return if negative then -size else size

end Keysong.Yaml
