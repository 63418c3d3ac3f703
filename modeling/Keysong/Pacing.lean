import Keysong.Fault
import Keysong.NoteValue

/-!
# Pacing

How long the notes of a word or of a chord group are: the more of them there are, the shorter is
each.  A pacing is a row of note values, the first for units of length one; beyond its end the last
value holds.

## Main Definitions

* `neverLonger` — no value is longer than the one before it
* `Pacing` — a row of note values that never gets longer
* `Pacing.durationFor` — the value for a unit of a given length
-/

namespace Keysong

/-- Whether no value of a row is longer than the one before it. -/
def neverLonger : List NoteValue → Bool
  | [] => true
  | [_] => true
  | first :: second :: rest =>
    decide (second.units ≤ first.units) && neverLonger (second :: rest)

/-- A row of note values that never gets longer. -/
structure Pacing where
  steps : List NoteValue
  nonempty : steps ≠ []
  never_longer : neverLonger steps = true

namespace Pacing

/-- The pacing of a row of note values. -/
def ofSteps (steps : List NoteValue) : Except Fault Pacing :=
  if nonempty : steps ≠ [] then
    if never_longer : neverLonger steps = true then .ok { steps, nonempty, never_longer }
    else .error .stepsGetLonger
  else .error .noSteps

/-- From whole notes for a single letter down to thirty-second notes for six and more. -/
def standard : Pacing where
  steps := NoteValue.all
  nonempty := by decide
  never_longer := by decide

/-- The length from which on the last value holds. -/
def ceiling (p : Pacing) : Nat := p.steps.length

theorem ceiling_pos (p : Pacing) : 0 < p.ceiling := List.length_pos_iff.2 p.nonempty

/-- The note value for a unit of a given length. -/
def durationFor (p : Pacing) (length : Int) : Except Fault NoteValue :=
  if length < 1 then .error (.unitTooShort length)
  else
    have inside : min length.toNat p.ceiling - 1 < p.steps.length := by
      have := p.ceiling_pos
      simp only [ceiling] at *
      omega
    .ok p.steps[min length.toNat p.ceiling - 1]

/-- The values that a pacing gives, each of them once. -/
def durations (p : Pacing) : List NoteValue := p.steps.eraseDups

end Pacing

end Keysong
