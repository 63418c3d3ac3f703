import Keysong.Timeline

/-!
# Sessions

A session is a row of calls to an instrument.  To play is to reset it, to schedule every note and
to start it; to stop is to reset it.

## Main Definitions

* `Call` — what an instrument is asked to do
* `Session.play`, `Session.stop` — the two sessions
-/

namespace Keysong

variable {τ : Type}

/-- What an instrument is asked to do. -/
inductive Call (τ : Type) where
  | reset
  | schedule (note : ScheduledNote τ)
  | start

namespace Session

/-- Plays the notes of a timeline in place of what was played before. -/
def play (notes : List (ScheduledNote τ)) : List (Call τ) :=
  .reset :: (notes.map .schedule ++ [.start])

/-- Cancels what is played. -/
def stop : List (Call τ) := [.reset]

/-- What is reported once a row of events is being played, with the tempo as it was given. -/
def playNotice (events : List Event) (bpm : Value) : Notice :=
  let notes := events.flatMap Event.strikes
  ⟨.info, "Playing " ++ toString events.length ++ " events (" ++ toString notes.length ++
    " notes) at " ++ bpm.written ++ " BPM"⟩

end Session

end Keysong
