import Keysong.Decimal.Reading
import Keysong.Yaml.Label

/-!
# Tags

What a scalar or a collection is meant to be.  A tag can be written in front of it.  A plain word
without one is told by its form: words such as `yes`, `~`, `0x78` and `2001-12-14` are truth values,
null, numbers and dates, and every other word is a text.

## Main Definitions

* `Tag`, `Tag.ofName` — what a node is meant to be
* `isIntegerForm`, `isNumberForm`, `momentForm?` — the forms of numbers and dates
* `Tag.ofWord` — what a plain word is meant to be

## Design Notes

A form says nothing about the value: whether `2001-02-30` is a date shows only where the value is
needed.  Numbers and dates with a tag in front have their values told in the same way, and may have
other forms than these.
-/

namespace Keysong.Yaml

open Keysong.Decimal

/-- What a node is meant to be. -/
inductive Tag where
  | null
  | truth
  | integer
  | number
  | bytes
  | moment
  | text
  | sequence
  /-- A sequence of mappings with one entry each. -/
  | pairs
  | mapping
  | set
  /-- As a key, what stands for the entries of another mapping. -/
  | merge
  /-- As a key, what stands for the scalar that its mapping can be read as. -/
  | equals
  | unknown
  deriving Repr, DecidableEq

namespace Tag

/-- What all names of known tags start with. -/
def standard : String := "tag:yaml.org,2002:"

/-- The known tags. -/
def known : List (String × Tag) :=
  [("null", null), ("bool", truth), ("int", integer), ("float", number), ("binary", bytes),
    ("timestamp", moment), ("str", text), ("seq", sequence), ("omap", pairs), ("pairs", pairs),
    ("map", mapping), ("set", set), ("merge", merge), ("value", equals)]

/-- The tag with a name. -/
def ofName (name : String) : Tag :=
  ((known.find? fun tag => standard ++ tag.1 == name).map (·.2)).getD unknown

end Tag

/-! ### Forms of numbers -/

/-- Whether a character is a digit in a base up to sixteen. -/
def isDigitIn (base : Nat) (c : Char) : Bool :=
  match hexDigit? c with
  | some d => decide (d < base)
  | none => false

/-- Whether a text is a row of digits and underscores; an empty one is not. -/
def isRow (base : Nat) (text : List Char) : Bool :=
  !text.isEmpty && text.all fun c => c == '_' || isDigitIn base c

/-- Whether a text is a row that starts with a digit, and not with an underscore. -/
def isNumberRow (text : List Char) : Bool :=
  isRow 10 text && text.head? != some '_'

/-- The parts of a text between the places where a separator stands. -/
def splitAt [BEq α] (separator : α) : List α → List (List α)
  | [] => [[]]
  | c :: rest =>
    if c == separator then [] :: splitAt separator rest
    else
      match splitAt separator rest with
      | part :: parts => (c :: part) :: parts
      | [] => [[c]]

/-- Whether a text is a number of minutes or seconds: at most 59, in one or two digits. -/
def isSixtieth (text : List Char) : Bool :=
  match text with
  | [a] => isDigitIn 10 a
  | [a, b] => isDigitIn 6 a && isDigitIn 10 b
  | _ => false

/-- Whether a word has the form of an integer: binary, hexadecimal, octal with a leading zero,
decimal, or in sixtieths. -/
def isIntegerForm (word : List Char) : Bool :=
  match (splitSign word).2 with
  | '0' :: 'b' :: digits => isRow 2 digits
  | '0' :: 'x' :: digits => isRow 16 digits
  | ['0'] => true
  | '0' :: digits => isRow 8 digits
  | body =>
    match splitAt ':' body with
    | first :: rest => isNumberRow first && rest.all isSixtieth
    | [] => false

/-- Whether a text is the exponent of a number: a mark, a sign that has to be there, digits. -/
def isExponent : List Char → Bool
  | [] => true
  | mark :: sign :: digits =>
    (mark == 'e' || mark == 'E') && (sign == '+' || sign == '-') && !digits.isEmpty &&
      digits.all (isDigitIn 10)
  | _ => false

/-- Whether a character can stand behind the point of a number. -/
def isPlace (c : Char) : Bool := c == '_' || isDigitIn 10 c

/-- Whether a text is what follows the point of a number. -/
def isFraction (text : List Char) : Bool := isExponent (text.dropWhile isPlace)

/-- Whether a word has the form of a number with a point.  Only a word without a sign may start with
the point, unless it is infinite. -/
def isNumberForm (word : List Char) : Bool :=
  let body := (splitSign word).2
  let isSigned := word.length != body.length
  let whole := body.takeWhile fun c => c != '.'
  match body.dropWhile fun c => c != '.' with
  | [] => false
  | _ :: places =>
    let behind := String.ofList places
    if whole.isEmpty then
      ["inf", "Inf", "INF"].contains behind
        || (!isSigned && (["nan", "NaN", "NAN"].contains behind
          || ((places.head?.map (isDigitIn 10)).getD false && isFraction places)))
    else
      match splitAt ':' whole with
      | [digits] => isNumberRow digits && isFraction places
      | first :: rest => isNumberRow first && rest.all isSixtieth && places.all isPlace
      | [] => false

/-! ### Forms of dates -/

/-- An offset from universal time, as it is written. -/
structure OffsetForm where
  isWest : Bool
  hours : Nat
  minutes : Nat
  deriving Repr, DecidableEq

/-- A time of day, as it is written. -/
structure ClockForm where
  hour : Nat
  minute : Nat
  second : Nat
  /-- The digits of the fraction of the second. -/
  fraction : List Char
  /-- An offset; that of universal time can be given by a letter. -/
  offset : Option (Option OffsetForm)
  deriving Repr, DecidableEq

/-- A date, perhaps with a time of day, as it is written. -/
structure MomentForm where
  year : Nat
  month : Nat
  day : Nat
  clock : Option ClockForm
  deriving Repr, DecidableEq

/-- Reads a number of at least `least` and at most `most` digits. -/
def readNumber? (least most : Nat) (text : List Char) : Option (Nat × List Char) :=
  let digits := (text.take most).takeWhile (isDigitIn 10)
  if digits.length < least then none
  else some (Text.digitsValue (digits.filterMap Text.digit?), text.drop digits.length)

/-- Reads a character that has to be there. -/
def readMark? (mark : Char) (text : List Char) : Option (List Char) :=
  if text.head? == some mark then some (text.drop 1) else none

/-- Drops spaces and tabs. -/
def behindBlanks (text : List Char) : List Char := text.dropWhile fun c => c == ' ' || c == '\t'

/-- Reads the offset at the end of a moment. -/
def offsetForm? (text : List Char) : Option (Option (Option OffsetForm)) :=
  match text with
  | [] => some none
  | _ =>
    match behindBlanks text with
    | ['Z'] => some (some none)
    | sign :: rest => do
      guard (sign == '+' || sign == '-')
      let (hours, rest) ← readNumber? 1 2 rest
      if rest.isEmpty then return some (some ⟨sign == '-', hours, 0⟩)
      else do
        let (minutes, rest) ← readNumber? 2 2 (← readMark? ':' rest)
        guard rest.isEmpty
        return some (some ⟨sign == '-', hours, minutes⟩)
    | [] => none

/-- Reads the time of day at the end of a moment. -/
def clockForm? (text : List Char) : Option ClockForm := do
  let behind ←
    match text with
    | 'T' :: rest | 't' :: rest => some rest
    | _ => if startsBlank text then some (behindBlanks text) else none
  let (hour, behind) ← readNumber? 1 2 behind
  let (minute, behind) ← readNumber? 2 2 (← readMark? ':' behind)
  let (second, behind) ← readNumber? 2 2 (← readMark? ':' behind)
  let (fraction, behind) :=
    match behind with
    | '.' :: rest => (rest.takeWhile (isDigitIn 10), rest.dropWhile (isDigitIn 10))
    | _ => ([], behind)
  return { hour, minute, second, fraction, offset := ← offsetForm? behind }

/-- Reads a date, perhaps with a time of day.  Months and days may have one digit. -/
def momentForm? (word : List Char) : Option MomentForm := do
  let (year, rest) ← readNumber? 4 4 word
  let (month, rest) ← readNumber? 1 2 (← readMark? '-' rest)
  let (day, rest) ← readNumber? 1 2 (← readMark? '-' rest)
  if rest.isEmpty then return ⟨year, month, day, none⟩
  else return ⟨year, month, day, some (← clockForm? rest)⟩

/-- Whether a word has the form of a date or a moment.  Without a time of day, all numbers have their
full width. -/
def isMomentForm (word : List Char) : Bool :=
  match momentForm? word with
  | some form => form.clock.isSome || word.length == 10
  | none => false

/-! ### Words -/

/-- The words for true. -/
def trueWords : List String :=
  ["yes", "Yes", "YES", "true", "True", "TRUE", "on", "On", "ON"]

/-- The words for false. -/
def falseWords : List String :=
  ["no", "No", "NO", "false", "False", "FALSE", "off", "Off", "OFF"]

/-- The words for null. -/
def nullWords : List String := ["~", "null", "Null", "NULL"]

/-- A word without the line break at its end, which does not count for the form of a word. -/
def withoutBreak (word : List Char) : List Char :=
  if word.getLast? == some '\n' then word.dropLast else word

/-- What a word is meant to be. -/
def Tag.ofWord (word : List Char) : Tag :=
  let form := withoutBreak word
  let spelling := String.ofList form
  if word.isEmpty || nullWords.contains spelling then .null
  else if trueWords.contains spelling || falseWords.contains spelling then .truth
  else if spelling == "<<" then .merge
  else if spelling == "=" then .equals
  else if isNumberForm form then .number
  else if isIntegerForm form then .integer
  else if isMomentForm form then .moment
  else .text

end Keysong.Yaml
