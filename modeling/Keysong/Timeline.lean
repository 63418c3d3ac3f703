import Keysong.Event
import Keysong.Tempo

/-!
# Timelines

Where the notes of a row of events lie on the clock.  A cursor starts at zero; every event moves
it by its length, and every pitch of a note or a chord is struck where the cursor stands.

## Main Definitions

* `ScheduledNote` — a pitch with its position and length in seconds
* `timeline` — the notes of a row of events
* `secondsOf` — the length of a row of events, its last rests included
-/

namespace Keysong

variable {τ : Type} [Quantity τ]

/-- A pitch with its position and its length in seconds. -/
structure ScheduledNote (τ : Type) where
  pitch : Pitch
  start : τ
  duration : τ
  velocity : Float
  deriving Repr

namespace Event

/-- What an event strikes: each pitch with the velocity of the event. -/
def strikes : Event → List (Pitch × Float)
  | rest _ => []
  | note p _ velocity => [(p, velocity)]
  | chord ps _ velocity => ps.map fun p => (p, velocity)

/-- The length of an event in seconds, at a length of the quarter note. -/
def seconds (e : Event) (secondsPerBeat : τ) : τ := e.duration.beats * secondsPerBeat

/-- The notes of an event at a position. -/
def notesAt (e : Event) (secondsPerBeat cursor : τ) : List (ScheduledNote τ) :=
  e.strikes.map fun (pitch, velocity) =>
    { pitch, start := cursor, duration := e.seconds secondsPerBeat, velocity }

end Event

/-- The notes of a row of events whose first starts at `cursor`. -/
def timelineFrom (secondsPerBeat : τ) : τ → List Event → List (ScheduledNote τ)
  | _, [] => []
  | cursor, e :: rest =>
    e.notesAt secondsPerBeat cursor
      ++ timelineFrom secondsPerBeat (cursor + e.seconds secondsPerBeat) rest

/-- The notes of a row of events at a tempo. -/
def timeline (tempo : Tempo) (events : List Event) : List (ScheduledNote τ) :=
  timelineFrom tempo.secondsPerBeat Quantity.zero events

/-- The length of a row of events at a tempo, its last rests included. -/
def secondsOf (tempo : Tempo) (events : List Event) : τ := totalBeats events * tempo.secondsPerBeat

end Keysong
