import Keysong.LeadIn
import Keysong.Midi.Message
import Keysong.Tempo

/-!
# Tracks

A track is built note by note: each note or chord starts where the one before it ended, after
waiting for its lead-in.  The messages of a track are sorted by tick, releases before strikes.

## Main Definitions

* `Placed` — a message at a tick
* `Track` — a tempo, a resolution, a channel, a name, and the messages placed so far
* `Track.add` — one more note or chord
* `Track.messages` — the entries of the file, each with the ticks since the one before
-/

namespace Keysong.Midi

/-- A message of a note at a tick. -/
structure Placed where
  tick : Nat
  isStrike : Bool
  serial : Nat
  message : Message
  deriving Repr, DecidableEq

namespace Placed

/-- Whether one message comes no later than another: by tick, releases first, then in order of
arrival. -/
def notAfter (a b : Placed) : Bool :=
  if a.tick = b.tick then
    if a.isStrike = b.isStrike then decide (a.serial ≤ b.serial) else b.isStrike
  else decide (a.tick < b.tick)

end Placed

/-- A track under construction. -/
structure Track where
  tempo : Tempo
  resolution : Nat
  channel : Channel
  /-- The name as it was given; what does not count as switched on is no name. -/
  name : Value
  placed : List Placed
  /-- The tick at which the last note ends. -/
  cursor : Nat
  resolution_pos : 0 < resolution

namespace Track

/-- Ticks per quarter note, unless something else is asked for. -/
def standardResolution : Nat := 480

/-- An empty track.  The resolution is looked at first, then the channel. -/
def start (resolution channel : Int) (name : Value) (bpm : Value) : Except Fault Track :=
  if resolution_pos : 0 < resolution.toNat then do
    let channel ← channelOf channel
    let tempo ← Tempo.ofValue bpm
    return { tempo, resolution := resolution.toNat, channel, name, placed := [], cursor := 0
             resolution_pos }
  else throw .resolutionNotPositive

/-- An empty track at a tempo, with the standard resolution and channel. -/
def atTempo (tempo : Tempo) (name : Value) : Track where
  tempo := tempo
  resolution := standardResolution
  channel := firstChannel
  name := name
  placed := []
  cursor := 0
  resolution_pos := by decide

/-- The length of a denominator in ticks: scaled to the resolution and cut to a whole number. -/
def ticksOf (resolution : Nat) (code : String) : Except Fault Nat :=
  match Decimal.wholePart ((NoteValue.ofCode code).ticks * resolution) standardResolution with
  | some ticks => .ok ticks
  | none => .error .numberTooLarge

/-- The length of a row of denominators in ticks, each scaled on its own. -/
def ticksOfAll (resolution : Nat) : List String → Except Fault Nat
  | [] => .ok 0
  | code :: rest => do
    let first ← ticksOf resolution code
    let others ← ticksOfAll resolution rest
    return first + others

/-- The notes of a row of numbers: at least one, and all of them fit a message. -/
def notesOf (numbers : List Int) : Except Fault (List Data) :=
  if numbers = [] then .error .emptyNote
  else numbers.mapM fun n =>
    match noteOf? n with
    | some note => .ok note
    | none => .error (.noteOutOfRange n)

/-- The messages of notes that are struck together, numbered from `serial` on in steps of two. -/
def placeNotes (channel : Channel) (start stop : Nat) (strength : Data) :
    Nat → List Data → List Placed
  | _, [] => []
  | serial, note :: rest =>
    { tick := start, isStrike := true, serial, message := .noteOn channel note strength }
    :: { tick := stop, isStrike := false, serial := serial + 1
         message := .noteOff channel note noStrength }
    :: placeNotes channel start stop strength (serial + 2) rest

/-- Adds a note or a chord.  A note that is refused leaves the track as it was. -/
def add (t : Track) (note : TimedNote) : Except Fault Track := do
  let notes ← notesOf note.numbers
  let wait ← ticksOfAll t.resolution note.wait
  let length ← ticksOf t.resolution note.code
  let strength ← attack note.velocity
  let start := t.cursor + wait
  let stop := start + length
  return { t with
    placed := t.placed ++ placeNotes t.channel start stop strength t.placed.length notes
    cursor := stop }

/-- The codes of a row that are read: all of them, or those up to the first that is refused. -/
def codesRead (resolution : Nat) : List String → List String
  | [] => []
  | code :: rest =>
    match ticksOf resolution code with
    | .ok _ => code :: codesRead resolution rest
    | .error _ => [code]

/-- What is reported when a note is added. -/
def addNotices (t : Track) (note : TimedNote) : List Notice :=
  match notesOf note.numbers with
  | .error _ => []
  | .ok _ => (codesRead t.resolution (note.wait ++ [note.code])).flatMap NoteValue.codeNotices

/-- Adds a row of notes and chords, up to the first that is refused. -/
def addAll (t : Track) (notes : List TimedNote) : Except Fault Track := notes.foldlM add t

/-- A row of messages with the ticks between them. -/
def deltas : Nat → List Placed → List (Nat × Message)
  | _, [] => []
  | last, p :: rest => (p.tick - last, p.message) :: deltas p.tick rest

/-- The messages of the notes in order. -/
def sorted (t : Track) : List Placed := t.placed.mergeSort Placed.notAfter

/-- The name of the track, if it has one. -/
def nameOf (t : Track) : Except Fault (Option (List Text.CodePoint)) :=
  if t.name.isTruthy then
    match t.name with
    | .text s => .ok (some (Text.codePoints s.toList))
    | .ragged points => .ok (some points)
    | other => .error (.nameNotText other)
  else .ok none

/-- The entries of the file: the name if there is one, the tempo, the notes, and the end. -/
def messages (t : Track) : Except Fault (List (Nat × Message)) := do
  let name ← t.nameOf
  let tempo ← microseconds t.tempo.bpm
  return (name.map fun s => (0, Message.trackName s)).toList
    ++ (0, .setTempo tempo) :: (deltas 0 t.sorted ++ [(0, .endOfTrack)])

end Track

end Keysong.Midi
