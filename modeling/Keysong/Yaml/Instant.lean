import Keysong.Yaml.Tag

/-!
# Dates of a settings file

The dates and moments that scalars stand for.  The form of a scalar gives the numbers, and the
calendar tells whether there is such a day.

## Main Definitions

* `MomentForm.value` — the value of the numbers
* `instantOf` — the date or the moment of a scalar
-/

namespace Keysong.Yaml

open Keysong.Text

/-- The microseconds of a fraction of a second; further places do not count. -/
def microsecondsOf (fraction : List Char) : Nat :=
  let places := (fraction ++ Decimal.zeros 6).take 6
  digitsValue (places.filterMap digit?)

/-- The seconds of an offset from universal time. -/
def OffsetForm.seconds (o : OffsetForm) : Int :=
  Decimal.Double.signed o.isWest (3600 * o.hours + 60 * o.minutes)

/-- The offset of a moment, if it has one. -/
def ClockForm.offset? (c : ClockForm) : Except Misfit (Option Offset) :=
  match c.offset with
  | none => .ok none
  | some none => .ok (some .zero)
  | some (some form) => (Offset.ofSeconds form.seconds).map some

/-- The date or the moment with the numbers of a form.  The offset is looked at first. -/
def MomentForm.value (form : MomentForm) : Except Misfit Value :=
  match form.clock with
  | none => (Date.ofNumbers form.year form.month form.day).map .date
  | some c => do
    let offset ← c.offset?
    let date ← Date.ofNumbers form.year form.month form.day
    let clock ← Clock.ofNumbers c.hour c.minute c.second (microsecondsOf c.fraction)
    return .moment { date, clock, offset }

/-- The date or the moment that a scalar stands for. -/
def instantOf (text : List CodePoint) : Except Fault Value :=
  match (asCharacters? text).bind fun word => momentForm? (withoutBreak word) with
  | none => .error (.notMoment (Value.ofPoints text))
  | some form => form.value.mapError .misfit

end Keysong.Yaml
