import Keysong.Decimal.Text

/-!
# Dates and times of day

A settings file may hold a date, or a date with a time of day and an offset from universal time.
Neither is of use to a melody, but both have a form in messages, and two of them can be the same
key of a mapping.

## Main Definitions

* `Date`, `Date.ofNumbers` — a day of the calendar
* `Clock`, `Clock.ofNumbers` — a time of day
* `Offset`, `Offset.ofSeconds` — a distance from universal time of less than a day
* `Moment` — a day, a time of day and perhaps an offset
* `Moment.same` — whether two moments are the same key
* `Misfit` — why numbers are none of these
-/

namespace Keysong

/-- Why numbers are no date, no time of day or no offset. -/
inductive Misfit where
  | year (number : Nat)
  | month
  | day
  | hour
  | minute
  | second
  /-- An offset of a day or more, in seconds. -/
  | offset (seconds : Int)
  deriving Repr, DecidableEq

/-- A number in at least `width` digits. -/
def filled (width n : Nat) : String :=
  let digits := Decimal.naturalDigits n
  String.ofList (Decimal.zeros (width - digits.length) ++ digits)

/-- Whether a year has a leap day. -/
def isLeapYear (year : Nat) : Bool := year % 4 == 0 && (year % 100 != 0 || year % 400 == 0)

/-- The number of days of a month. -/
def daysOfMonth (year month : Nat) : Nat :=
  if month == 2 then (if isLeapYear year then 29 else 28)
  else if [4, 6, 9, 11].contains month then 30
  else 31

/-- A day of the calendar, from the year 1 to the year 9999. -/
structure Date where
  year : Nat
  month : Nat
  day : Nat
  year_range : 1 ≤ year ∧ year ≤ 9999
  month_range : 1 ≤ month ∧ month ≤ 12
  day_range : 1 ≤ day ∧ day ≤ daysOfMonth year month
  deriving Repr, DecidableEq

namespace Date

/-- The date with three numbers.  The year is looked at first, then the month, then the day. -/
def ofNumbers (year month day : Nat) : Except Misfit Date :=
  if year_range : 1 ≤ year ∧ year ≤ 9999 then
    if month_range : 1 ≤ month ∧ month ≤ 12 then
      if day_range : 1 ≤ day ∧ day ≤ daysOfMonth year month then
        .ok { year, month, day, year_range, month_range, day_range }
      else .error .day
    else .error .month
  else .error (.year year)

/-- How many days the years before a year have. -/
def daysBeforeYear (year : Nat) : Nat :=
  let y := year - 1
  y * 365 + y / 4 - y / 100 + y / 400

/-- How many days the months before a month of a year have. -/
def daysBeforeMonth (year : Nat) : Nat → Nat
  | 0 => 0
  | 1 => 0
  | month + 1 => daysBeforeMonth year month + daysOfMonth year month

/-- The number of a day, the first one of all having the number 1. -/
def ordinal (d : Date) : Nat := daysBeforeYear d.year + daysBeforeMonth d.year d.month + d.day

/-- Year, month and day, joined by dashes. -/
def display (d : Date) : String :=
  filled 4 d.year ++ "-" ++ filled 2 d.month ++ "-" ++ filled 2 d.day

/-- The numbers of a date. -/
def numbers (d : Date) : List String := [toString d.year, toString d.month, toString d.day]

/-- The form in messages. -/
def written (d : Date) : String := "datetime.date(" ++ String.intercalate ", " d.numbers ++ ")"

end Date

/-- A time of day. -/
structure Clock where
  hour : Nat
  minute : Nat
  second : Nat
  micros : Nat
  hour_range : hour ≤ 23
  minute_range : minute ≤ 59
  second_range : second ≤ 59
  deriving Repr, DecidableEq

namespace Clock

/-- The time of day with four numbers. -/
def ofNumbers (hour minute second micros : Nat) : Except Misfit Clock :=
  if hour_range : hour ≤ 23 then
    if minute_range : minute ≤ 59 then
      if second_range : second ≤ 59 then
        .ok { hour, minute, second, micros, hour_range, minute_range, second_range }
      else .error .second
    else .error .minute
  else .error .hour

/-- The seconds since midnight. -/
def seconds (c : Clock) : Nat := (c.hour * 60 + c.minute) * 60 + c.second

/-- Hours, minutes and seconds, with the microseconds if there are any. -/
def display (c : Clock) : String :=
  filled 2 c.hour ++ ":" ++ filled 2 c.minute ++ ":" ++ filled 2 c.second
    ++ (if c.micros = 0 then "" else "." ++ filled 6 c.micros)

/-- The numbers of a time of day; seconds and microseconds are left out from the end on if they are
zero. -/
def numbers (c : Clock) : List String :=
  [toString c.hour, toString c.minute]
    ++ (if c.second = 0 ∧ c.micros = 0 then [] else [toString c.second])
    ++ (if c.micros = 0 then [] else [toString c.micros])

end Clock

/-- The form of a span of whole seconds in messages: days and the seconds left over. -/
def writtenSpan (seconds : Int) : String :=
  let days := Int.fdiv seconds 86400
  let rest := Int.fmod seconds 86400
  let parts := (if days = 0 then [] else ["days=" ++ toString days])
    ++ (if rest = 0 then [] else ["seconds=" ++ toString rest])
  "datetime.timedelta(" ++ (if parts.isEmpty then "0" else String.intercalate ", " parts) ++ ")"

/-- A distance from universal time. -/
structure Offset where
  seconds : Int
  within : -86400 < seconds ∧ seconds < 86400
  deriving Repr, DecidableEq

namespace Offset

/-- The offset of a number of seconds, which has to be less than a day. -/
def ofSeconds (seconds : Int) : Except Misfit Offset :=
  if within : -86400 < seconds ∧ seconds < 86400 then .ok { seconds, within }
  else .error (.offset seconds)

/-- Universal time itself. -/
def zero : Offset := ⟨0, by decide⟩

/-- A sign, hours and minutes. -/
def display (o : Offset) : String :=
  let minutes := o.seconds.natAbs / 60
  (if o.seconds < 0 then "-" else "+") ++ filled 2 (minutes / 60) ++ ":" ++
    filled 2 (minutes % 60)

/-- The form in messages. -/
def written (o : Offset) : String :=
  if o.seconds = 0 then "datetime.timezone.utc"
  else "datetime.timezone(" ++ writtenSpan o.seconds ++ ")"

end Offset

/-- A day with a time of day, and with an offset from universal time if one is given. -/
structure Moment where
  date : Date
  clock : Clock
  offset : Option Offset
  deriving Repr, DecidableEq

namespace Moment

/-- The microseconds since the first day of all, by the clock of a moment. -/
def micros (m : Moment) : Int :=
  (((m.date.ordinal * 86400 + m.clock.seconds : Nat) : Int) * 1000000) + (m.clock.micros : Int)

/-- Whether two moments are the same.  With offsets, the same point in time is meant; a moment
with an offset is never the same as one without. -/
def same (a b : Moment) : Bool :=
  match a.offset, b.offset with
  | some p, some q => a.micros - p.seconds * 1000000 == b.micros - q.seconds * 1000000
  | none, none => a.micros == b.micros
  | _, _ => false

/-- A date, a time of day and an offset. -/
def display (m : Moment) : String :=
  m.date.display ++ " " ++ m.clock.display ++ (m.offset.map Offset.display).getD ""

/-- The form in messages. -/
def written (m : Moment) : String :=
  let offset := m.offset.toList.map fun o => "tzinfo=" ++ o.written
  "datetime.datetime("
    ++ String.intercalate ", " (m.date.numbers ++ m.clock.numbers ++ offset) ++ ")"

end Moment

namespace Misfit

/-- The wording of a misfit. -/
def message : Misfit → String
  | year n => "year " ++ toString n ++ " is out of range"
  | month => "month must be in 1..12"
  | day => "day is out of range for month"
  | hour => "hour must be in 0..23"
  | minute => "minute must be in 0..59"
  | second => "second must be in 0..59"
  | offset seconds =>
    "offset must be a timedelta strictly between -timedelta(hours=24) and timedelta(hours=24), not "
      ++ writtenSpan seconds ++ "."

end Misfit

end Keysong
