import Keysong.Compiler
import Keysong.Instrument.Settled
import Keysong.Midi.Export

/-!
# Melodies

A text that was compiled once, at a tempo.  Playing and exporting read the same events, so what is
heard is what is written.

## Main Definitions

* `Melody` — a text, a tempo, a name and the events of the text
* `Melody.ofText` — compiles a text
* `Melody.timeline`, `Melody.bytes`, `Melody.save` — its notes, and its file
* `Melody.perform` — plays it on an instrument of its own, to its end or until interrupted
* `Player`, `Seat` — plays a melody now here, now there, and stops it where it was played last
-/

namespace Keysong

/-- A text that was compiled, ready to play or to export. -/
structure Melody where
  text : String
  tempo : Tempo
  /-- The name of its track, as it was given. -/
  name : Value
  events : List Event

/-- Where a melody was played last. -/
inductive Seat where
  /-- On an instrument that others may use as well. -/
  | shared (instrument : Nat)
  /-- On an instrument of its own, which was closed at the end. -/
  | own
  deriving Repr, DecidableEq

namespace Melody

/-- The melody of a text.  The tempo is looked at first. -/
def ofText (compiler : Compiler) (text : String) (bpm name : Value) : Except Fault Melody := do
  let tempo ← Tempo.ofValue bpm
  let events ← compiler.compile text.toList
  return { text, tempo, name, events }

/-- What is reported while the melody of a text is made. -/
def textNotices (compiler : Compiler) (m : Melody) : List Notice :=
  compiler.notices m.text.toList m.events.length

/-- The notes of a melody with their positions and lengths. -/
def notes {τ : Type} [Quantity τ] (m : Melody) : List (ScheduledNote τ) :=
  timeline m.tempo m.events

/-- The length of a melody, its last rests included. -/
def seconds {τ : Type} [Quantity τ] (m : Melody) : τ := secondsOf m.tempo m.events

/-- The bytes of a melody as a file. -/
def bytes (m : Melody) : Except Fault Midi.Bytes := Midi.exportBytes m.tempo m.name m.events

/-- What is reported when a melody is turned into bytes. -/
def bytesNotices (m : Melody) : List Notice := Midi.trackNotices m.tempo m.name m.events

/-- Writes a melody to a file. -/
def save (m : Melody) (blocked : Option Fault) : Midi.Saved :=
  match Midi.Track.ofEvents m.tempo m.name m.events with
  | .error fault => ⟨none, some fault⟩
  | .ok track => Midi.save track blocked

/-- What is reported when a melody is written to a file. -/
def saveNotices (m : Melody) (path : List Text.CodePoint) (blocked : Option Fault) :
    List Notice :=
  m.bytesNotices ++
    match Midi.Track.ofEvents m.tempo m.name m.events with
    | .error _ => []
    | .ok track => Midi.saveNotices track path blocked

section Playing

variable {τ : Type} [Quantity τ]

/-- The report that a melody is being played. -/
def playNotice (m : Melody) : Notice :=
  Session.playNotice m.events (.float m.tempo.bpm)

/-- All that a melody does on an instrument of its own: it is played and waited for.  Then, also if
it is not accepted, it is stopped and the instrument is closed. -/
def program (m : Melody) : Program τ :=
  playProgram m.notes m.playNotice ++ .attend :: .anyway :: stopProgram ++ closeProgram

/-- Plays a melody on an instrument of its own, to its end or until interrupted. -/
def perform (m : Melody) (instrument : Instrument τ) (stopAt : Option τ) : Stage τ :=
  ((Stage.idle Quantity.zero instrument).perform [m.program]).finish stopAt

end Playing

end Melody

/-- Someone who plays a melody, and knows where it was played last. -/
structure Player where
  melody : Melody
  seat : Option Seat

namespace Player

variable {τ : Type} [Quantity τ]

/-- Somebody who has not played yet. -/
def start (melody : Melody) : Player := ⟨melody, none⟩

/-- Plays on an instrument that others may use as well; gives what it is asked to do. -/
def playOn (p : Player) (instrument : Nat) : Player × List (Nat × Call τ) :=
  ({ p with seat := some (.shared instrument) },
    (Session.play p.melody.notes).map fun call => (instrument, call))

/-- Stops; gives what is asked of the instrument on which the melody was played last. -/
def stop (p : Player) : List (Nat × Call τ) :=
  match p.seat with
  | some (.shared n) => Session.stop.map fun call => (n, call)
  | _ => []

/-- Plays on an instrument of its own, to the end or until interrupted. -/
def playAlone (p : Player) (instrument : Instrument τ) (stopAt : Option τ) : Player × Stage τ :=
  ({ p with seat := some .own }, p.melody.perform instrument stopAt)

end Player

end Keysong
