import Keysong.Fault
import Keysong.Quantity

/-!
# MIDI messages

What goes to an instrument or into a file, and the ranges of its parts.

## Main Definitions

* `Message` — notes, controllers and the three entries that only files have
* `attack` — the strength of a note from a velocity between zero and one
* `isNote` — whether a note number fits a message
* `microseconds` — the length of a quarter note as a file gives it
-/

namespace Keysong.Midi

/-- The channels of an instrument. -/
abbrev Channel : Type := Fin 16

/-- What fits behind the first byte of a message. -/
abbrev Data : Type := Fin 128

/-- Messages of a channel, and entries of a file. -/
inductive Message where
  | noteOn (channel : Channel) (note strength : Data)
  | noteOff (channel : Channel) (note strength : Data)
  | control (channel : Channel) (controller value : Data)
  | trackName (text : List Text.CodePoint)
  | setTempo (microseconds : Nat)
  | endOfTrack
  deriving Repr, DecidableEq

/-- The controller that releases all notes of a channel. -/
def allNotesOff : Data := ⟨123, by decide⟩

/-- The strength of a release, and the value that a controller is sent with. -/
def noStrength : Data := ⟨0, by decide⟩

/-- The channel that is used unless another one is asked for. -/
def firstChannel : Channel := ⟨0, by decide⟩

/-- The channel with a number. -/
def channelOf (number : Int) : Except Fault Channel :=
  if inside : 0 ≤ number ∧ number ≤ 15 then .ok ⟨number.toNat, by omega⟩
  else .error (.channelOutOfRange number)

/-- The note with a number, if it fits a message. -/
def noteOf? (number : Int) : Option Data :=
  if inside : 0 ≤ number ∧ number ≤ 127 then some ⟨number.toNat, by omega⟩ else none

/-- Whether a note number fits a message. -/
def isNote (number : Int) : Bool := (noteOf? number).isSome

/-- The nearest strength.  It is at least one, since a note of strength zero would be a
release. -/
def strengthOf (scaled : Int) : Data := ⟨(max 1 (min 127 scaled)).toNat, by omega⟩

/-- The strength of a note, from a velocity between zero and one. -/
def attack (velocity : Float) : Except Fault Data :=
  let scaled := Decimal.Double.ofFloat (velocity * 127.0)
  match scaled.size with
  | .undefined => .error .integerOfUndefined
  | .infinite => .error .integerOfInfinite
  | .finite _ _ => .ok (strengthOf (scaled.nearest.getD 0))

/-- The length of a quarter note in microseconds, as a tempo entry of a file holds it. -/
def microseconds {τ : Type} [Quantity τ] (bpm : τ) : Except Fault Nat :=
  let exact : τ :=
    Quantity.ofNat 60 * Quantity.ofNat 1000000 / bpm * Quantity.ofNat 4 / Quantity.ofNat 4
  match Quantity.nearest exact with
  | none => .error .integerOfInfinite
  | some n =>
    if 0 ≤ n ∧ n ≤ 0xFFFFFF then .ok n.toNat else .error .microsecondsOutOfRange

end Keysong.Midi
