import Keysong.Device
import Keysong.Instrument.Queue
import Keysong.Pitch.Name
import Keysong.Timeline

/-!
# Instruments

An instrument holds a queue of signals and an open output.  Scheduling only fills the queue; a
playback loop, of which there is at most one that counts, takes signals out when their time has
come.  The instrument knows which notes sound, so that it can release them when it is reset.

## Main Definitions

* `Output` — an open output, which may lose what is sent to it
* `Deed` — what the instrument did: signals played, notes silenced, the output closed
* `Phase`, `Loop` — where a playback loop stands
* `Instrument` — the state
* `Instrument.Work` — steps on an instrument that is changed in place
* `Instrument.Work.schedule` — puts a note into the queue
* `Instrument.clear`, `Instrument.launch`, `Instrument.closeOutput` — what resets, starts and ends
  are made of
* `Instrument.stepLoop` — what a playback loop does when it is woken
* `Instrument.onDesk` — an instrument on the output that is chosen

## Design Notes

All that an observer can see is in `deeds` and `notices`, in the order in which it happened.  A
send that fails is a deed all the same, so the effect of a bad output can be compared with that
of a good one.

Scheduling is the only thing an instrument may refuse, and it may do so halfway: a note whose pitch
is too long to be written is in the queue by the time it is to be reported.  So it is a row of steps
that keeps what was done before a fault.
-/

namespace Keysong

open Quantity

variable {τ : Type} [Quantity τ]

namespace Instrument

/-- An open output. -/
structure Output where
  name : String
  /-- Whether the send with a given number gets through. -/
  carries : Nat → Bool
  /-- How many sends were tried. -/
  attempts : Nat

/-- What an instrument did. -/
inductive Deed (τ : Type) where
  /-- A signal was taken out of the queue; the flag tells whether its message got through. -/
  | played (time : τ) (signal : Signal τ) (reached : Bool)
  /-- A message was sent in order to silence the instrument. -/
  | silenced (time : τ) (message : Midi.Message) (reached : Bool)
  | closed (name : String)

/-- Where a playback loop stands. -/
inductive Phase (τ : Type) where
  /-- Launched, but not run yet. -/
  | fresh
  /-- Asleep until a time; then it may watch the clock until the time of its next signal. -/
  | asleep (wake : τ) (watch : Option τ)
  | ended
  deriving Repr, DecidableEq

/-- A playback loop.  One that was cancelled does nothing but end. -/
structure Loop (τ : Type) where
  phase : Phase τ
  cancelled : Bool
  deriving Repr, DecidableEq

namespace Loop

/-- Whether a loop has ended. -/
def isEnded (l : Loop τ) : Bool :=
  match l.phase with
  | .ended => true
  | _ => false

/-- Whether a loop has something to do at a time. -/
def isReady (now : τ) (l : Loop τ) : Bool :=
  match l.phase with
  | .ended => false
  | .fresh => true
  | .asleep wake _ => l.cancelled || decide (wake ≤ now)

/-- When a sleeping loop wakes up. -/
def wake? (l : Loop τ) : Option τ :=
  match l.phase with
  | .asleep wake _ => if l.cancelled then none else some wake
  | _ => none

end Loop

end Instrument

open Instrument

/-- An instrument. -/
structure Instrument (τ : Type) where
  channel : Midi.Channel
  /-- The name of the output: the one that was asked for, or the one that was opened. -/
  outputName : Value
  output : Option Output
  queue : List (Signal τ)
  /-- The serial number of the next signal. -/
  counter : Nat
  /-- All playback loops that were ever launched. -/
  loops : List (Loop τ)
  /-- The loop that counts, if there is one. -/
  current : Option Nat
  startTime : τ
  running : Bool
  /-- The notes that sound, in ascending order. -/
  sounding : List Midi.Data
  /-- How long before a signal a sleep ends, if the rest is spent watching the clock. -/
  watchFrom : Option τ
  deeds : List (Deed τ)
  notices : List Notice

namespace Instrument

/-- Adds to what was reported. -/
def report (i : Instrument τ) (notices : List Notice) : Instrument τ :=
  { i with notices := i.notices ++ notices }

/-- The loop with a number. -/
def loop? (i : Instrument τ) (n : Nat) : Option (Loop τ) := i.loops[n]?

/-- Whether the loop with a number does nothing any more. -/
def loopEnded (i : Instrument τ) (n : Nat) : Bool :=
  match i.loop? n with
  | some l => l.isEnded
  | none => true

/-- Changes the loop with a number. -/
def setLoop (i : Instrument τ) (n : Nat) (l : Loop τ) : Instrument τ :=
  { i with loops := i.loops.set n l }

/-! ### Scheduling -/

/-- Steps on an instrument that is changed in place.  What was done before a fault stays done. -/
abbrev Work (τ : Type) : Type → Type := ExceptT Fault (StateM (Instrument τ))

namespace Work

/-- What comes of some work, and the instrument behind it. -/
def on {α : Type} (work : Work τ α) (i : Instrument τ) : Except Fault α × Instrument τ :=
  (ExceptT.run work).run i

/-- Takes a serial number. -/
def takeSerial : Work τ Nat := do
  let i ← get
  set { i with counter := i.counter + 1 }
  return i.counter

/-- Puts a signal into the queue. -/
def push (s : Signal τ) : Work τ Unit := modify fun i => { i with queue := enqueue s i.queue }

/-- Reports something about a pitch, which has to be written for that. -/
def tell (p : Pitch) (notice : String → Notice) : Work τ Unit := do
  let name ← p.spelling
  modify fun i => i.report [notice name]

/-- The report on a note that is left out. -/
def leftOutNotice (name : String) : Notice :=
  ⟨.warning, "Pitch " ++ name ++ " is outside the MIDI range, not scheduled"⟩

/-- The report on a note that is in the queue. -/
def queuedNotice (n : ScheduledNote τ) (name : String) : Notice :=
  ⟨.debug, "Scheduled " ++ name ++ " at " ++ Quantity.fixed 3 n.start ++ "s for " ++
    Quantity.fixed 3 n.duration ++ "s"⟩

/-- Puts a note into the queue.  A note outside the range of messages is left out. -/
def schedule (n : ScheduledNote τ) : Work τ Unit := do
  if n.start < zero then throw .startNegative
  if n.duration ≤ zero then throw .lengthNotPositive
  match Midi.noteOf? n.pitch.number with
  | none => tell n.pitch leftOutNotice
  | some note =>
    let first ← takeSerial
    let strength ← Midi.attack n.velocity
    push { time := n.start, isStrike := true, serial := first, note, strength }
    let second ← takeSerial
    push { time := n.start + n.duration, isStrike := false, serial := second, note
           strength := Midi.noStrength }
    tell n.pitch (queuedNotice n)

end Work

/-- The instrument behind a note that gets through; otherwise why it does not. -/
def schedule (i : Instrument τ) (n : ScheduledNote τ) : Except Fault (Instrument τ) :=
  let (outcome, i) := (Work.schedule n).on i
  outcome.map fun _ => i

/-! ### Sending -/

/-- Tries to send a message; the flag tells whether it got through.  Without an output nothing
is sent and nothing fails. -/
def send (i : Instrument τ) : Instrument τ × Bool :=
  match i.output with
  | none => (i, false)
  | some output =>
    ({ i with output := some { output with attempts := output.attempts + 1 } },
      output.carries output.attempts)

/-- Adds a note to those that sound, in ascending order. -/
def insertNote (note : Midi.Data) : List Midi.Data → List Midi.Data
  | [] => [note]
  | first :: rest =>
    if note < first then note :: first :: rest
    else if note = first then first :: rest
    else first :: insertNote note rest

/-- The notes that sound after a signal. -/
def soundingAfter (sounding : List Midi.Data) (s : Signal τ) : List Midi.Data :=
  if s.isStrike then insertNote s.note sounding else sounding.filter fun n => n ≠ s.note

/-- Plays a signal that was taken out of the queue. -/
def perform (now : τ) (i : Instrument τ) (s : Signal τ) : Instrument τ :=
  let i := { i with sounding := soundingAfter i.sounding s }
  let hasOutput := i.output.isSome
  let (i, reached) := i.send
  let i := { i with deeds := i.deeds ++ [.played now s reached] }
  if hasOutput && !reached then
    i.report [⟨.error, "MIDI send failed (device may be disconnected)"⟩]
  else i

/-- Sends messages that silence the instrument, up to the first that does not get through. -/
def sendAll (now : τ) (i : Instrument τ) : List Midi.Message → Instrument τ
  | [] => i
  | message :: rest =>
    let (i, reached) := i.send
    let i := { i with deeds := i.deeds ++ [.silenced now message reached] }
    if reached then sendAll now i rest
    else i.report [⟨.error, "MIDI panic failed (device may be disconnected)"⟩]

/-- Releases every note that sounds, then the whole channel. -/
def silence (now : τ) (i : Instrument τ) : Instrument τ :=
  let releases := i.sounding.map fun note => Midi.Message.noteOff i.channel note Midi.noStrength
  let i := { i with sounding := [] }
  if i.output.isSome then
    sendAll now i (releases ++ [.control i.channel Midi.allNotesOff Midi.noStrength])
  else i

/-! ### Resetting, starting and ending -/

/-- Empties the queue, stops the clock and silences the instrument. -/
def clear (now : τ) (i : Instrument τ) : Instrument τ :=
  silence now { i with running := false, queue := [], counter := 0, startTime := zero }

/-- Starts the clock and launches a playback loop. -/
def launch (now : τ) (i : Instrument τ) : Instrument τ :=
  let fresh : Loop τ := { phase := .fresh, cancelled := false }
  let i := { i with
    running := true
    startTime := now
    loops := i.loops ++ [fresh]
    current := some i.loops.length }
  i.report
    [⟨.info, "Playback started (" ++ toString (i.queue.length / 2) ++ " notes scheduled)"⟩]

/-- Closes the output, if there is one. -/
def closeOutput (i : Instrument τ) : Instrument τ :=
  let i : Instrument τ := match i.output with
    | none => i
    | some output => { i with output := none, deeds := i.deeds ++ [.closed output.name] }
  i.report [⟨.info, "Sound engine closed"⟩]

/-! ### Playing -/

/-- Whether the time of a signal has come. -/
def isDue (i : Instrument τ) (now : τ) (s : Signal τ) : Bool :=
  decide (i.startTime + s.time ≤ now)

/-- Plays all signals whose time has come. -/
def playDue (now : τ) (i : Instrument τ) : Instrument τ :=
  (i.queue.takeWhile (i.isDue now)).foldl (perform now)
    { i with queue := i.queue.dropWhile (i.isDue now) }

/-- Where a loop stands that waits for a time, seen from `now`. -/
def sleepFor (watchFrom : Option τ) (now target : τ) : Phase τ :=
  let length := target - now
  match watchFrom with
  | some margin =>
    if margin < length then .asleep (now + (length - margin)) (some target)
    else .asleep (now + length) none
  | none => .asleep (now + length) none

/-- The time at which a loop that is woken acts: it may have to watch the clock for a while. -/
def actTime (now : τ) (l : Loop τ) : τ :=
  match l.phase with
  | .asleep _ (some target) => later now target
  | _ => now

/-- What the loop with a number does when it is woken, and the time at which it has done so. -/
def stepLoop (now : τ) (i : Instrument τ) (n : Nat) : Instrument τ × τ :=
  match i.loop? n with
  | none => (i, now)
  | some l =>
    if l.cancelled then (i.setLoop n { l with phase := .ended }, now)
    else
      let now := actTime now l
      let i := playDue now i
      match i.queue with
      | [] =>
        let i := { i.setLoop n { l with phase := .ended } with running := false }
        (i.report [⟨.info, "Playback complete (no more scheduled notes)"⟩], now)
      | next :: _ =>
        (i.setLoop n { l with phase := sleepFor i.watchFrom now (i.startTime + next.time) }, now)

/-- The time since the clock was started; zero when it is stopped. -/
def elapsed (now : τ) (i : Instrument τ) : τ := if i.running then now - i.startTime else zero

/-- An instrument on a chosen output.  A name that is empty counts as none. -/
def ofSelection (selection : Device.Selection) (requested : Value) (channel : Midi.Channel)
    (watchFrom : Option τ) (carries : Nat → Bool) : Instrument τ :=
  let name := selection.opened.filter fun s => !s.isEmpty
  { channel
    outputName := match name with
      | some s => .text s
      | none => requested
    output := name.map fun name => { name, carries, attempts := 0 }
    queue := []
    counter := 0
    loops := []
    current := none
    startTime := zero
    running := false
    sounding := []
    watchFrom
    deeds := []
    notices := selection.notices ++ match name with
      | some _ => []
      | none => [⟨.error, "No MIDI output opened - playback will run silently"⟩] }

/-- How long before a signal the clock is watched, for the tightest timing. -/
def watchMargin : τ := Quantity.ofFloat 0.001

/-- An instrument on the output that the system and the user choose.  The channel is looked at
first. -/
def onDesk (desk : Device.Desk) (requested : Value) (interactive : Bool) (channel : Int)
    (watches : Bool) (carries : Nat → Bool) :
    Except Fault (Device.Selection × Instrument τ) := do
  let channel ← Midi.channelOf channel
  let selection := Device.select desk requested interactive
  return (selection,
    ofSelection selection requested channel (if watches then some watchMargin else none) carries)

end Instrument

end Keysong
