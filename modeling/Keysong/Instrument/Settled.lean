import Keysong.Instrument.Stage

/-!
# Performances

The order of turns that a performance has.  Whoever can go next stands in a line, and joins it at
the end as soon as there is something to do.  Time stands still until nobody is left in the line,
and then moves on to the moment at which the next loop wakes up.

## Main Definitions

* `Stage.settle` — lets everybody go who can
* `Stage.perform` — lets a row of callers run their programs
* `Stage.advance` — lets time pass
* `Stage.finish` — lets time pass until all callers are done, or until they are interrupted

## Design Notes

At one point in time every caller has a finite row of actions, and a loop either ends or goes to
sleep, so there is a bound on the number of turns.  Likewise a loop that wakes up has to send
something, unless its wake-up time was rounded down; then it wakes up once more.
-/

namespace Keysong.Stage

open Quantity

variable {τ : Type} [Quantity τ]

/-- Whether a caller or a loop can go. -/
def canGo (s : Stage τ) : Party → Bool
  | .caller n => (s.callers[n]?).any s.callerReady
  | .loop n => (s.instrument.loop? n).any (·.isReady s.now)

/-- All loops, then all callers. -/
def parties (s : Stage τ) : List Party :=
  (List.range s.instrument.loops.length).map .loop ++ (List.range s.callers.length).map .caller

/-- Everybody who can go, loops before callers. -/
def able (s : Stage τ) : List Party := s.parties.filter s.canGo

/-- Lets those in a line go, one after the other. -/
def settleFrom : Nat → List Party → Stage τ → Stage τ
  | 0, _, s => s
  | _ + 1, [], s => s
  | fuel + 1, first :: line, s =>
    match s.go? first with
    | none => settleFrom fuel line s
    | some s' => settleFrom fuel (line ++ s'.able.filter fun p => !line.contains p) s'

/-- More than the turns that can be taken at one point in time. -/
def turnBound (s : Stage τ) : Nat :=
  let actions := s.callers.foldl (fun n c => n + c.todo.length) 0
  let parties := s.callers.length + s.instrument.loops.length + actions
  (3 * actions + 2 * parties + 4) * (parties + 2)

/-- Lets everybody go who can, until nobody is left. -/
def settle (s : Stage τ) : Stage τ := settleFrom s.turnBound s.able s

/-- Lets a row of callers run their programs as far as they get without time passing. -/
def perform (programs : List (Program τ)) (s : Stage τ) : Stage τ :=
  settle { s with callers := programs.map fun todo => ⟨todo, none⟩ }

/-- The next time at which a loop wakes up. -/
def nextWake (s : Stage τ) : Option τ :=
  (s.instrument.loops.filterMap Instrument.Loop.wake?).foldl
    (fun best wake =>
      match best with
      | none => some wake
      | some b => some (if wake < b then wake else b))
    none

/-- Moves the clock on and lets everybody go who can. -/
def moveTo (s : Stage τ) (time : τ) : Stage τ := settle { s with now := later s.now time }

/-- More than the number of times that loops wake up before the queue is empty. -/
def wakeBound (s : Stage τ) : Nat := 16 * (s.instrument.queue.length + 2)

/-- Lets time pass up to a limit, from one wake-up to the next. -/
def advanceFrom (limit : τ) : Nat → Stage τ → Stage τ
  | 0, s => s
  | fuel + 1, s =>
    match s.nextWake with
    | none => s
    | some wake => if wake ≤ limit then advanceFrom limit fuel (s.moveTo wake) else s

/-- Lets a number of seconds pass. -/
def advance (seconds : τ) (s : Stage τ) : Stage τ :=
  let limit := s.now + seconds
  let s := advanceFrom limit s.wakeBound s
  { s with now := later s.now limit }

/-- Whether an action is to wait for a loop that may still play. -/
def isLinger : Action τ → Bool
  | .linger _ => true
  | _ => false

/-- Interrupts all callers that wait for the music to end. -/
def interrupt (s : Stage τ) : Stage τ :=
  { s with callers := s.callers.map fun c => { c with todo := c.todo.dropWhile isLinger } }

/-- Whether all callers are done. -/
def isDone (s : Stage τ) : Bool := s.callers.all fun c => c.todo.isEmpty

/-- Lets time pass until all callers are done.  If a wake-up would lie behind `stopAt`, time
passes up to there and the callers are interrupted. -/
def finishFrom : Option τ → Nat → Stage τ → Stage τ
  | _, 0, s => s
  | stopAt, fuel + 1, s =>
    if s.isDone then s
    else
      match s.nextWake, stopAt with
      | none, _ => s
      | some wake, some stop =>
        if stop < wake then finishFrom none fuel (s.interrupt.moveTo stop)
        else finishFrom stopAt fuel (s.moveTo wake)
      | some wake, none => finishFrom none fuel (s.moveTo wake)

/-- Lets time pass until all callers are done, or until they are interrupted. -/
def finish (stopAt : Option τ) (s : Stage τ) : Stage τ := finishFrom stopAt s.wakeBound s


end Keysong.Stage
