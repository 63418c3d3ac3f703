import Keysong.Midi.File

/-!
# Exporting events

The track of a row of events, with every note and chord placed behind its lead-in.

## Main Definitions

* `Track.ofEvents` — the track of a row of events at a tempo
* `exportBytes` — its bytes as a file
* `exportNotices` — what is reported on the way
-/

namespace Keysong.Midi

/-- The track of a row of events at a tempo. -/
def Track.ofEvents (tempo : Tempo) (name : Value) (events : List Event) : Except Fault Track :=
  (Track.atTempo tempo name).addAll (leadIns events)

/-- The bytes of a row of events as a file. -/
def exportBytes (tempo : Tempo) (name : Value) (events : List Event) : Except Fault Bytes := do
  fileBytes (← Track.ofEvents tempo name events)

/-- What is reported once all events are placed. -/
def exportNotices (bpm : Float) (events : List Event) : List Notice :=
  let left := trailingRests events
  (if left = 0 then []
    else [⟨.debug, "Dropping " ++ toString left ++ " trailing rests with no following note"⟩])
  ++ [⟨.info, "Exported " ++ toString (leadIns events).length ++ " notes and chords at " ++
        Decimal.plain bpm ++ " BPM"⟩]

/-- What is reported on the way to a track; nothing if a note is refused. -/
def trackNotices (tempo : Tempo) (name : Value) (events : List Event) : List Notice :=
  match Track.ofEvents tempo name events with
  | .ok _ => exportNotices tempo.bpm events
  | .error _ => []

end Keysong.Midi
