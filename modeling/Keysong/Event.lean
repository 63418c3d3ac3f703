import Keysong.NoteValue
import Keysong.Pitch.Basic

/-!
# Events

What a melody consists of: rests, single notes and chords, in the order in which they are
performed.

## Main Definitions

* `Event` — a rest, a note or a chord
* `Event.ofChord` — a chord, which strikes every note number at most once
* `totalUnits`, `totalBeats` — the length of a row of events
* `Event.describe` — one line of a listing
-/

namespace Keysong

/-- A rest, a note, or a chord.  Velocities lie between zero and one. -/
inductive Event where
  | rest (duration : NoteValue)
  | note (pitch : Pitch) (duration : NoteValue) (velocity : Float)
  | chord (pitches : List Pitch) (duration : NoteValue) (velocity : Float)
  deriving Repr

namespace Event

/-- A chord: at least one pitch, and no two with the same note number. -/
def ofChord (pitches : List Pitch) (duration : NoteValue) (velocity : Float) :
    Except Fault Event :=
  if pitches = [] then .error .emptyChord
  else if (pitches.map Pitch.number).Nodup then .ok (.chord pitches duration velocity)
  else .error (.repeatedStrike (pitches.map Pitch.name))

/-- The length of an event. -/
def duration : Event → NoteValue
  | rest d => d
  | note _ d _ => d
  | chord _ d _ => d

/-- The pitches that are struck together; a rest has none. -/
def pitches : Event → List Pitch
  | rest _ => []
  | note p _ _ => [p]
  | chord ps _ _ => ps

/-- Whether an event is silent. -/
def isRest : Event → Bool
  | rest _ => true
  | _ => false

/-- A text filled up with spaces. -/
def padded (width : Nat) (s : String) : String :=
  s ++ String.ofList (List.replicate (width - s.length) ' ')

/-- The line of a sounding event. -/
def describeStruck (kind : String) (ps : List Pitch) (d : NoteValue) (velocity : Float) : String :=
  kind ++ "  " ++ padded 13 d.name ++ " v=" ++ Decimal.fixed 2 velocity ++ "  " ++
    String.intercalate " " (ps.map Pitch.name)

/-- One line of a listing. -/
def describe : Event → String
  | rest d => "rest   " ++ d.name
  | note p d velocity => describeStruck "note " [p] d velocity
  | chord ps d velocity => describeStruck "chord" ps d velocity

theorem ofChord_eq_ok_iff {ps : List Pitch} {d : NoteValue} {velocity : Float} {e : Event} :
    ofChord ps d velocity = .ok e ↔
      (ps ≠ [] ∧ (ps.map Pitch.number).Nodup) ∧ e = .chord ps d velocity := by
  unfold ofChord
  split
  · simp_all
  · split
    · simp_all [eq_comm]
    · simp_all

end Event

/-- The length of a row of events in thirty-second notes. -/
def totalUnits : List Event → Nat
  | [] => 0
  | e :: rest => e.duration.units + totalUnits rest

/-- The length of a row of events in quarter notes. -/
def totalBeats {τ : Type} [Quantity τ] (events : List Event) : τ :=
  NoteValue.beatsOfUnits (totalUnits events)

end Keysong
