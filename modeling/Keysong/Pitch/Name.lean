import Keysong.Decimal.Reading
import Keysong.Pitch.Basic

/-!
# Reading pitch names

A name is a letter in either case, at most two equal accidental signs, and an octave in decimal
digits of any script, with blanks around it.

## Main Definitions

* `Pitch.accidentalOf` — splits the signs off
* `Pitch.ofName` — reads a name
* `Pitch.spelling` — writes one
* `Pitch.IsWritten` — the pitches that have a spelling

## Design Notes

A small `b` is a letter when it comes first and a flat sign after that, so the signs are read by
trying the longest run first.  An octave follows in any case, and an octave never starts with a
sign of an accidental, so at most one reading is possible.
-/

namespace Keysong.Pitch

open Keysong.Text Keysong.Decimal

/-- The letter of a name, in either case. -/
def letterOf? (c : Char) : Option Letter := Letter.ofChar? c.toUpper

/-- Splits the accidental off what follows the letter of a name. -/
def accidentalOf : List Char → Int × List Char
  | '#' :: '#' :: rest => (2, rest)
  | '#' :: rest => (1, rest)
  | 'b' :: 'b' :: rest => (-2, rest)
  | 'b' :: rest => (-1, rest)
  | rest => (0, rest)

/-- Splits a minus off an octave. -/
def octaveSign : List Char → Bool × List Char
  | '-' :: rest => (true, rest)
  | rest => (false, rest)

/-- Reads a pitch name. -/
def ofName (name : String) : Except Fault Pitch :=
  match trim name.toList with
  | [] => .error (.unknownNoteName name)
  | first :: rest =>
    match letterOf? first with
    | none => .error (.unknownNoteName name)
    | some letter =>
      let (accidental, octaveText) := accidentalOf rest
      let (negative, digits) := octaveSign octaveText
      if digits.isEmpty || !digits.all isDigit then .error (.unknownNoteName name)
      else
        match readDigits negative (digits.filterMap digit?) with
        | .ok octave => .ok { letter, accidental, octave }
        | .error (.tooLong count) => .error (.tooManyDigits count)
        | .error .malformed => .error (.unknownNoteName name)

/-- The spelling of a pitch, if its numbers are not too long to be written. -/
def spelling (p : Pitch) : Except Fault String :=
  if Decimal.isWritable p.accidental && Decimal.isWritable p.octave then .ok p.name
  else .error .unwritableInteger

/-- The pitches whose numbers are not too long to be written. -/
def IsWritten (p : Pitch) : Prop :=
  Decimal.isWritable p.accidental = true ∧ Decimal.isWritable p.octave = true

instance : DecidablePred IsWritten := fun _ => inferInstanceAs (Decidable (_ ∧ _))

theorem spelling_of_isWritten {p : Pitch} (written : p.IsWritten) : p.spelling = .ok p.name := by
  unfold spelling
  rw [written.1, written.2]
  rfl

theorem spelling_of_not_isWritten {p : Pitch} (tooLong : ¬ p.IsWritten) :
    p.spelling = .error .unwritableInteger := by
  unfold spelling
  exact if_neg fun both => tooLong (Bool.and_eq_true_iff.mp both)

end Keysong.Pitch
