import Keysong.Event

/-!
# Lead-ins

A file has no silent events: silence is the wait before the next note.  The rests of a row of
events therefore become the lead-in of the note or chord behind them, and rests behind the last
one have nothing to lead into.

## Main Definitions

* `TimedNote` — note numbers struck together, with a length and the lengths to wait first
* `leadIns` — the notes and chords of a row of events, each with its lead-in
* `trailingRests` — the rests that are left over
-/

namespace Keysong

/-- Notes struck together.  Lengths are denominators of note values. -/
structure TimedNote where
  numbers : List Int
  code : String
  wait : List String
  velocity : Float
  deriving Repr

/-- The note that an event adds to a file, behind a lead-in; a rest adds none. -/
def Event.timed? (wait : List String) : Event → Option TimedNote
  | .rest _ => none
  | .note p d velocity => some { numbers := [p.number], code := d.code, wait, velocity }
  | .chord ps d velocity =>
    some { numbers := ps.map Pitch.number, code := d.code, wait, velocity }

/-- The notes and chords of a row of events, with `wait` collected before its first. -/
def leadInsFrom : List String → List Event → List TimedNote
  | _, [] => []
  | wait, e :: rest =>
    match e.timed? wait with
    | none => leadInsFrom (wait ++ [e.duration.code]) rest
    | some note => note :: leadInsFrom [] rest

/-- The notes and chords of a row of events, each with its lead-in. -/
def leadIns (events : List Event) : List TimedNote := leadInsFrom [] events

/-- How many rests end a row of events. -/
def trailingRests (events : List Event) : Nat := (events.reverse.takeWhile Event.isRest).length

end Keysong
