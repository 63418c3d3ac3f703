import Keysong.Decimal.Nearest
import Keysong.Fault
import Keysong.Quantity

/-!
# Tempo

A tempo is a finite number of beats per minute above zero; nothing else gets past `Tempo.ofValue`.

## Main Definitions

* `Tempo` — a tempo with the reason why it is one
* `Tempo.ofValue` — the check
* `secondsPerBeat` — the length of a quarter note
-/

namespace Keysong

/-- A finite number of beats per minute above zero. -/
structure Tempo where
  bpm : Float
  valid : bpm.isFinite = true ∧ 0 < bpm

namespace Tempo

/-- Checks a number of beats per minute; `asGiven` is what a refusal shows. -/
def ofFloat (asGiven : Value) (x : Float) : Except Fault Tempo :=
  if h : x.isFinite = true ∧ 0 < x then .ok ⟨x, h⟩ else .error (.tempoOutOfRange asGiven)

/-- The tempo that a value stands for.  Truth values are no numbers here. -/
def ofValue (value : Value) : Except Fault Tempo :=
  match value with
  | .int n =>
    match Decimal.ofInt n with
    | none => .error .numberTooLarge
    | some x => ofFloat value x
  | .float x => ofFloat value x
  | _ => .error (.tempoNotNumber value)

/-- A tempo as a quantity. -/
def quantity {τ : Type} [Quantity τ] (t : Tempo) : τ := Quantity.ofFloat t.bpm

/-- The length of a quarter note in seconds. -/
def secondsPerBeat {τ : Type} [Quantity τ] (t : Tempo) : τ := Quantity.ofNat 60 / t.quantity

end Tempo

end Keysong
