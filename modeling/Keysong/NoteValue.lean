import Keysong.Notice
import Keysong.Quantity
import Keysong.Text.Quoted

/-!
# Note values

The six lengths that a note or a rest can have, from the whole note to the thirty-second.

## Main Definitions

* `NoteValue` — the lengths
* `NoteValue.units` — a length in thirty-second notes, of which all others follow
* `NoteValue.ofCode` — the length of a denominator, a quarter note if there is none
-/

namespace Keysong

open Keysong.Text

/-- The lengths of notes and rests. -/
inductive NoteValue where
  | whole
  | half
  | quarter
  | eighth
  | sixteenth
  | thirtySecond
  deriving Repr, DecidableEq

namespace NoteValue

/-- The lengths, longest first. -/
def all : List NoteValue := [whole, half, quarter, eighth, sixteenth, thirtySecond]

/-- The length in thirty-second notes. -/
def units : NoteValue → Nat
  | whole => 32
  | half => 16
  | quarter => 8
  | eighth => 4
  | sixteenth => 2
  | thirtySecond => 1

theorem units_pos (v : NoteValue) : 0 < v.units := by cases v <;> decide

/-- The length in ticks, at 480 ticks to the quarter note. -/
def ticks (v : NoteValue) : Nat := 60 * v.units

/-- A number of thirty-second notes in quarter notes. -/
def beatsOfUnits {τ : Type} [Quantity τ] (units : Nat) : τ :=
  Quantity.ofNat units / Quantity.ofNat 8

/-- The length in quarter notes. -/
def beats {τ : Type} [Quantity τ] (v : NoteValue) : τ := beatsOfUnits v.units

/-- The denominator: `4` for a quarter note. -/
def code : NoteValue → String
  | whole => "1"
  | half => "2"
  | quarter => "4"
  | eighth => "8"
  | sixteenth => "16"
  | thirtySecond => "32"

/-- The name in listings. -/
def name : NoteValue → String
  | whole => "whole"
  | half => "half"
  | quarter => "quarter"
  | eighth => "eighth"
  | sixteenth => "sixteenth"
  | thirtySecond => "thirty_second"

/-- The length with a denominator. -/
def ofCode? (s : String) : Option NoteValue := all.find? fun v => v.code == s

/-- The length with a denominator.  An unknown one counts as a quarter note, so that a single bad
code does not end an export. -/
def ofCode (s : String) : NoteValue := (ofCode? s).getD quarter

/-- What is reported when a code is read. -/
def codeNotices (s : String) : List Notice :=
  match ofCode? s with
  | some _ => []
  | none => [⟨.warning, "Unexpected duration code " ++ quoted s ++ ", using a quarter note"⟩]

@[simp] theorem ofCode?_code (v : NoteValue) : ofCode? v.code = some v := by cases v <;> decide

@[simp] theorem ofCode_code (v : NoteValue) : ofCode v.code = v := by simp [ofCode]

end NoteValue

end Keysong
