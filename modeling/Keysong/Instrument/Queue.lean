import Keysong.Midi.Message

/-!
# Queues of signals

The strikes and releases that are still to come, in the order in which they go out: by time,
releases before strikes at the same time, then in order of arrival.

## Main Definitions

* `Signal` — a strike or a release at a time
* `Signal.before` — the order
* `enqueue` — puts a signal where it belongs
-/

namespace Keysong.Instrument

variable {τ : Type} [Quantity τ]

/-- A strike or a release at a time. -/
structure Signal (τ : Type) where
  time : τ
  isStrike : Bool
  serial : Nat
  note : Midi.Data
  strength : Midi.Data
  deriving Repr, DecidableEq

namespace Signal

/-- Whether a signal goes out before another one. -/
def before (a b : Signal τ) : Bool :=
  decide (a.time < b.time) ||
    (a.time == b.time &&
      if a.isStrike == b.isStrike then decide (a.serial < b.serial) else b.isStrike)

/-- The message of a signal. -/
def message (channel : Midi.Channel) (s : Signal τ) : Midi.Message :=
  if s.isStrike then .noteOn channel s.note s.strength else .noteOff channel s.note s.strength

end Signal

/-- Puts a signal in front of the first one that goes out after it. -/
def enqueue (s : Signal τ) : List (Signal τ) → List (Signal τ)
  | [] => [s]
  | first :: rest => if s.before first then s :: first :: rest else first :: enqueue s rest

/-- Nothing is lost and nothing is added but the signal itself. -/
theorem perm_enqueue (s : Signal τ) (queue : List (Signal τ)) :
    (enqueue s queue).Perm (s :: queue) := by
  induction queue with
  | nil => exact .refl _
  | cons first rest ih =>
    unfold enqueue
    split
    · exact .refl _
    · exact (ih.cons first).trans (.swap s first rest)

end Keysong.Instrument
