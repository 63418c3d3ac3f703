import Keysong.Instrument.Basic
import Keysong.Session

/-!
# Stages

Several callers may drive one instrument at the same time, each with a row of actions, while its
playback loops wake up and send.  Nobody is interrupted between two actions except where one of
them has to wait: for the lock that keeps sessions apart, or for a loop to end.

## Main Definitions

* `Action` — what a caller does, one step at a time
* `Call.actions`, `playProgram`, `stopProgram`, `closeProgram` — the actions of calls and sessions
* `playEvents` — the session that plays a row of events at a tempo
* `Stage` — a clock, an instrument, the holder of the lock, and what callers still have to do
* `Party`, `Turn`, `Stage.turn?` — who goes next, and what that changes
* `Stage.run` — any row of turns

## Design Notes

`Stage.run` leaves the order of turns open: what holds of every row of turns holds however callers
and loops take turns.  Which order a performance has is decided in `Keysong.Instrument.Settled`.

Cancelling takes more than one turn.  A loop that is cancelled has to run once more before it has
ended, and in the meantime another caller may have launched a new one; so whoever waited looks
again, until there is no loop left.

Somebody who gives up still does what stands behind a mark, in the same turn.  What it gave up for
is known in the end all the same.
-/

namespace Keysong

open Quantity Instrument

variable {τ : Type} [Quantity τ]

/-- What a caller does. -/
inductive Action (τ : Type) where
  /-- Take the lock that keeps sessions apart. -/
  | acquire
  | release
  /-- Cancel the loop that counts, and wait until none is left. -/
  | cancel
  /-- Wait for a loop that was cancelled. -/
  | join (loop : Nat)
  /-- Empty the queue and silence the instrument. -/
  | clear
  | schedule (note : ScheduledNote τ)
  | launch
  | closeOutput
  /-- Wait until everything is played, or cancelled. -/
  | attend
  /-- Wait for a loop to end by itself or by being cancelled. -/
  | linger (loop : Nat)
  | report (notice : Notice)
  /-- Mark what stands behind it: it is done even by somebody who gave up before. -/
  | anyway

/-- What one caller has to do, in order. -/
abbrev Program (τ : Type) : Type := List (Action τ)

/-- The actions of a call. -/
def Call.actions : Call τ → Program τ
  | .reset => [.cancel, .clear]
  | .schedule note => [.schedule note]
  | .start => [.cancel, .launch]

/-- The actions of a session, which nobody else's calls come between. -/
def sessionProgram (calls : List (Call τ)) : Program τ :=
  .acquire :: (calls.flatMap Call.actions ++ [.release])

/-- Plays a timeline, and reports it. -/
def playProgram (notes : List (ScheduledNote τ)) (notice : Notice) : Program τ :=
  sessionProgram (Session.play notes) ++ [.report notice]

/-- Plays a row of events.  The tempo is looked at first, so who is refused does nothing. -/
def playEvents (events : List Event) (bpm : Value) : Except Fault (Program τ) :=
  (Tempo.ofValue bpm).map fun tempo =>
    playProgram (timeline tempo events) (Session.playNotice events bpm)

/-- Stops what is played. -/
def stopProgram : Program τ := sessionProgram Session.stop

/-- Resets the instrument and closes its output. -/
def closeProgram : Program τ := Call.actions .reset ++ [.closeOutput]

/-- A caller: what it still has to do, and why it gave up, if it did. -/
structure Caller (τ : Type) where
  todo : Program τ
  fault : Option Fault

/-- A caller that gave up before has still done so, unless it gave up again since. -/
def Caller.resume (before : Option Fault) (c : Caller τ) : Caller τ :=
  { c with fault := c.fault.or before }

/-- A clock, an instrument, and all who drive it. -/
structure Stage (τ : Type) where
  now : τ
  instrument : Instrument τ
  /-- Who holds the lock. -/
  holder : Option Nat
  callers : List (Caller τ)

/-- Those who take turns: callers and playback loops. -/
inductive Party where
  | caller (n : Nat)
  | loop (n : Nat)
  deriving Repr, DecidableEq

/-- What happens next. -/
inductive Turn (τ : Type) where
  | of (party : Party)
  /-- Time passes, up to a point that lies ahead. -/
  | clock (time : τ)
  deriving Repr, DecidableEq

namespace Stage

/-- Whether a caller has to wait before an action. -/
def blocks (s : Stage τ) : Action τ → Bool
  | .acquire => s.holder.isSome
  | .join n => !s.instrument.loopEnded n
  | .linger n => !s.instrument.loopEnded n
  | _ => false

/-- Marks a loop as cancelled. -/
def cancelLoop (s : Stage τ) (n : Nat) : Stage τ :=
  match s.instrument.loop? n with
  | some l => { s with instrument := s.instrument.setLoop n { l with cancelled := true } }
  | none => s

/-- The lock is free again, if the caller with a number held it. -/
def unlock (s : Stage τ) (caller : Nat) : Stage τ :=
  if s.holder = some caller then { s with holder := none } else s

/-- Runs the actions of a caller up to the first before which it has to wait.  A note that is
refused frees the lock, and the caller passes over everything up to the first mark. -/
def runFrom (n : Nat) : Option Fault → Program τ → Stage τ → Stage τ × Caller τ
  | fault, [], s => (s, ⟨[], fault⟩)
  | some fault, action :: rest, s =>
    match action with
    | .anyway =>
      let (s, c) := runFrom n none rest s
      (s, c.resume (some fault))
    | _ => runFrom n (some fault) rest s
  | none, action :: rest, s =>
    if s.blocks action then (s, ⟨action :: rest, none⟩)
    else
      match action with
      | .acquire => runFrom n none rest { s with holder := some n }
      | .release => runFrom n none rest (s.unlock n)
      | .cancel =>
        match s.instrument.current with
        | none => runFrom n none rest s
        | some l =>
          let s := { s with instrument := { s.instrument with current := none } }
          if s.instrument.loopEnded l then runFrom n none rest s
          else (s.cancelLoop l, ⟨.join l :: .cancel :: rest, none⟩)
      | .join _ => runFrom n none rest s
      | .clear => runFrom n none rest { s with instrument := s.instrument.clear s.now }
      | .schedule note =>
        match (Work.schedule note).on s.instrument with
        | (.ok _, i) => runFrom n none rest { s with instrument := i }
        | (.error fault, i) =>
          runFrom n (some fault) rest (({ s with instrument := i } : Stage τ).unlock n)
      | .launch => runFrom n none rest { s with instrument := s.instrument.launch s.now }
      | .closeOutput => runFrom n none rest { s with instrument := s.instrument.closeOutput }
      | .attend =>
        match s.instrument.current with
        | none => runFrom n none rest s
        | some l =>
          if s.instrument.loopEnded l then runFrom n none rest s
          else (s, ⟨.linger l :: rest, none⟩)
      | .linger _ => runFrom n none rest s
      | .report notice =>
        runFrom n none rest { s with instrument := s.instrument.report [notice] }
      | .anyway => runFrom n none rest s

/-- Runs the actions of a caller that has not given up. -/
def runCaller (n : Nat) (program : Program τ) (s : Stage τ) : Stage τ × Caller τ :=
  runFrom n none program s

/-- Whether a caller can do something. -/
def callerReady (s : Stage τ) (c : Caller τ) : Bool :=
  match c.todo with
  | [] => false
  | action :: _ => !s.blocks action

/-- What a caller or a loop changes when it goes next; nothing if it has to wait. -/
def go? (s : Stage τ) : Party → Option (Stage τ)
  | .caller n =>
    match s.callers[n]? with
    | none => none
    | some c =>
      if s.callerReady c then
        let (s', c') := runCaller n c.todo s
        some { s' with callers := s'.callers.set n (c'.resume c.fault) }
      else none
  | .loop n =>
    match s.instrument.loop? n with
    | none => none
    | some l =>
      if l.isReady s.now then
        let (i, now) := s.instrument.stepLoop s.now n
        some { s with instrument := i, now }
      else none

/-- What a turn changes; nothing if it is not possible. -/
def turn? (s : Stage τ) : Turn τ → Option (Stage τ)
  | .of party => s.go? party
  | .clock time => if s.now < time then some { s with now := time } else none

/-- Runs a row of turns; those that are not possible are passed over. -/
def run (s : Stage τ) : List (Turn τ) → Stage τ
  | [] => s
  | t :: rest => ((s.turn? t).getD s).run rest

/-- A stage on which nobody does anything yet. -/
def idle (now : τ) (instrument : Instrument τ) : Stage τ :=
  { now, instrument, holder := none, callers := [] }

end Stage

end Keysong
