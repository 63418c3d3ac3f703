import Keysong.Midi.Message
import Keysong.Tempo
import Mathlib.Tactic.FieldSimp
import Mathlib.Tactic.Linarith
import Mathlib.Tactic.NormNum
import Mathlib.Tactic.Ring

/-!
# The nearest integer

A file holds the length of a quarter note as a whole number of microseconds.  This module says which
number that is, seen from the exact length.

## Main Definitions

* `Tempo.beatLength` — the exact length of a quarter note in microseconds
* `Tempo.IsRoundedOnce` — machine numbers round that length as the exact computation does
* `Midi.unrounded` — the length as it is computed, before it is rounded

## Main Statements

* `nearestInt_near` — the nearest integer lies within a half
* `nearestInt_le_iff` — how large a number may be whose nearest integer is at most `n`; a half in
  between goes to the even neighbour
* `Midi.microseconds_eq` — the exact length of a quarter note, rounded and checked
-/

namespace Keysong

open Decimal

/-- Rounding does not go below the quotient. -/
theorem Decimal.le_roundDiv (num den : Nat) : num / den ≤ roundDiv num den := by
  unfold roundDiv
  dsimp only
  split
  · exact le_rfl
  · exact Nat.le_succ _
  · split
    · exact le_rfl
    · exact Nat.le_succ _

/-- The quotient that is rounded is at most `n` if it lies below the middle behind `n`, or in it and
`n` is even. -/
theorem roundDiv_le_iff (num : Nat) {den : Nat} (pos : 0 < den) (n : Nat) :
    roundDiv num den ≤ n ↔
      2 * num < (2 * n + 1) * den ∨ 2 * num = (2 * n + 1) * den ∧ n % 2 = 0 := by
  have whole : den * (num / den) + num % den = num := Nat.div_add_mod num den
  have small : num % den < den := Nat.mod_lt num pos
  unfold roundDiv
  generalize num / den = q at *
  generalize num % den = r at *
  have middle : (2 * n + 1) * den = 2 * (den * n) + den := by ring
  rw [middle]
  dsimp only
  rcases Nat.lt_trichotomy q n with less | rfl | more
  · -- Even the next quotient is at most `n`, and the number lies below it.
    have next : den * (q + 1) ≤ den * n := Nat.mul_le_mul_left den less
    rw [Nat.mul_succ] at next
    split
    · omega
    · omega
    · split <;> omega
  · split
    · rename_i order
      rw [Nat.compare_eq_lt] at order
      omega
    · rename_i order
      rw [Nat.compare_eq_gt] at order
      omega
    · rename_i order
      rw [Nat.compare_eq_eq] at order
      split
      · rename_i even
        rw [beq_iff_eq] at even
        omega
      · rename_i odd
        rw [beq_iff_eq] at odd
        omega
  · have next : den * (n + 1) ≤ den * q := Nat.mul_le_mul_left den more
    rw [Nat.mul_succ] at next
    split
    · omega
    · omega
    · split <;> omega

section Nearest

variable {x : Rat} (nonneg : 0 ≤ x)

include nonneg

theorem nearestInt_eq : nearestInt x = (roundDiv x.num.natAbs x.den : Int) := by
  have sign : ¬ x.num < 0 := not_lt.mpr (Rat.num_nonneg.mpr nonneg)
  unfold nearestInt
  rw [decide_eq_false sign]
  rfl

theorem num_natAbs : ((x.num.natAbs : Nat) : Rat) = x * x.den := by
  have whole : ((x.num.natAbs : Nat) : Int) = x.num :=
    Int.natAbs_of_nonneg (Rat.num_nonneg.mpr nonneg)
  rw [Rat.mul_den_eq_num, ← whole]
  rfl

/-- **The nearest integer lies within a half.** -/
theorem nearestInt_near : |(nearestInt x : Rat) - x| ≤ 1 / 2 := by
  have pos : (0 : Rat) < x.den := Nat.cast_pos.mpr x.den_pos
  obtain ⟨above, below⟩ := roundDiv_near x.num.natAbs x.den x.den_pos
  have above : (2 : Rat) * (roundDiv x.num.natAbs x.den * x.den) ≤ 2 * (x * x.den) + x.den := by
    rw [← num_natAbs nonneg]
    exact_mod_cast above
  have below : (2 : Rat) * (x * x.den) ≤ 2 * (roundDiv x.num.natAbs x.den * x.den) + x.den := by
    rw [← num_natAbs nonneg]
    exact_mod_cast below
  rw [nearestInt_eq nonneg, Int.cast_natCast, abs_le]
  constructor
  · nlinarith
  · nlinarith

/-- **How large a number is whose nearest integer is at most `n`.** -/
theorem nearestInt_le_iff (n : Nat) :
    nearestInt x ≤ n ↔ x < n + 1 / 2 ∨ x = n + 1 / 2 ∧ n % 2 = 0 := by
  have pos : (0 : Rat) < x.den := Nat.cast_pos.mpr x.den_pos
  have scaled : ((2 * x.num.natAbs : Nat) : Rat) = 2 * x * x.den := by
    push_cast
    rw [num_natAbs nonneg]
    ring
  have middle : (((2 * n + 1) * x.den : Nat) : Rat) = (2 * n + 1) * x.den := by push_cast; rfl
  have less : 2 * x.num.natAbs < (2 * n + 1) * x.den ↔ x < n + 1 / 2 := by
    rw [← Nat.cast_lt (α := Rat), scaled, middle, mul_lt_mul_iff_of_pos_right pos]
    constructor <;> intro h <;> linarith
  have same : 2 * x.num.natAbs = (2 * n + 1) * x.den ↔ x = n + 1 / 2 := by
    rw [← Nat.cast_inj (R := Rat), scaled, middle, mul_left_inj' pos.ne']
    constructor <;> intro h <;> linarith
  rw [nearestInt_eq nonneg, Int.ofNat_le, roundDiv_le_iff _ x.den_pos, less, same]

end Nearest

/-! ## The length of a quarter note -/

/-- The exact length of a quarter note in microseconds. -/
def Tempo.beatLength (tempo : Tempo) : Rat := 60000000 / tempo.quantity

/-- Machine numbers give the same length of a quarter note as the exact computation, which rounds
once, a half to the even neighbour. -/
def Tempo.IsRoundedOnce (tempo : Tempo) : Prop :=
  Midi.microseconds tempo.bpm = Midi.microseconds (tempo.quantity : Rat)

namespace Midi

/-- The length of a quarter note in microseconds before it is rounded, computed step by step. -/
def unrounded {τ : Type} [Quantity τ] (bpm : τ) : τ :=
  Quantity.ofNat 60 * Quantity.ofNat 1000000 / bpm * Quantity.ofNat 4 / Quantity.ofNat 4

theorem microseconds_of_nearest {τ : Type} [Quantity τ] {bpm : τ} {n : Int}
    (nearest : Quantity.nearest (unrounded bpm) = some n) :
    microseconds bpm =
      if 0 ≤ n ∧ n ≤ 0xFFFFFF then .ok n.toNat else .error .microsecondsOutOfRange := by
  unfold unrounded at nearest
  unfold microseconds
  dsimp only
  rw [nearest]

theorem unrounded_quantity (tempo : Tempo) :
    unrounded (tempo.quantity : Rat) = tempo.beatLength := by
  show ((60 : Nat) : Rat) * ((1000000 : Nat) : Rat) / tempo.quantity * ((4 : Nat) : Rat) /
    ((4 : Nat) : Rat) = 60000000 / tempo.quantity
  push_cast
  ring

/-- The length of a quarter note, rounded and checked. -/
theorem microseconds_eq (tempo : Tempo) :
    microseconds (tempo.quantity : Rat) =
      if 0 ≤ nearestInt tempo.beatLength ∧ nearestInt tempo.beatLength ≤ 0xFFFFFF then
        .ok (nearestInt tempo.beatLength).toNat
      else .error .microsecondsOutOfRange := by
  refine microseconds_of_nearest ?_
  rw [unrounded_quantity]
  rfl

end Midi

/-- Machine numbers need only get the nearest integer right. -/
theorem Tempo.isRoundedOnce_of_nearest {tempo : Tempo}
    (nearest : Quantity.nearest (Midi.unrounded tempo.bpm) = some (nearestInt tempo.beatLength)) :
    tempo.IsRoundedOnce :=
  (Midi.microseconds_of_nearest nearest).trans (Midi.microseconds_eq tempo).symm

end Keysong
