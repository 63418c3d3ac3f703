import Keysong.Proofs.Compiling
import Mathlib.Data.List.Chain
import Mathlib.Order.Basic

/-!
# The more notes, the shorter each

A pacing is checked once, when it is made: each of its values against the one before.  What is asked
of it later is a value for a unit of any length, far beyond its end as well.  This module goes from
the one to the other.

## Main Definitions

* `Pacing.Shortens` — what a pacing gives to units of all lengths

## Main Statements

* `NoteValue.beats_le_iff` — values in quarter notes are ordered as in thirty-second notes
* `neverLonger_iff` — where neighbours are in order, any two values are
* `Pacing.ofSteps_eq_ok_iff` — which rows of values are a pacing
* `Pacing.valueFor_le` — a longer unit never has longer notes
* `pacing_shortens` — which rows are accepted, and what they give

### Beyond the end of the row

A unit that is longer than the row has the last value, so places in the row are compared and not
lengths of units: cutting a length at the end of the row keeps two lengths in their order, or makes
them the same.
-/

namespace Keysong

/-- Values in quarter notes are ordered as they are in thirty-second notes. -/
theorem NoteValue.beats_le_iff (v w : NoteValue) :
    (v.beats : Float) ≤ w.beats ↔ v.units ≤ w.units := by
  cases v <;> cases w <;> decide +kernel

/-! ## Which rows are a pacing -/

theorem neverLonger_iff_isChain (steps : List NoteValue) :
    neverLonger steps = true ↔ steps.IsChain fun earlier later => later.units ≤ earlier.units := by
  induction steps with
  | nil => simp [neverLonger]
  | cons first steps ih =>
    cases steps with
    | nil => simp [neverLonger]
    | cons second rest => simp [neverLonger, ih]

/-- Where no value is longer than the one before it, none is longer than any earlier one. -/
theorem neverLonger_iff (steps : List NoteValue) :
    neverLonger steps = true ↔
      steps.Pairwise fun earlier later => (later.beats : Float) ≤ earlier.beats := by
  let NoLonger (earlier later : NoteValue) : Prop := later.units ≤ earlier.units
  have trans : Trans NoLonger NoLonger NoLonger := ⟨fun first second => second.trans first⟩
  simp only [NoteValue.beats_le_iff]
  exact (neverLonger_iff_isChain steps).trans List.isChain_iff_pairwise

namespace Pacing

/-- **Which rows of values are a pacing**, and what it consists of. -/
theorem ofSteps_eq_ok_iff {steps : List NoteValue} {p : Pacing} :
    ofSteps steps = .ok p ↔
      (steps ≠ [] ∧ steps.Pairwise fun earlier later => (later.beats : Float) ≤ earlier.beats) ∧
        p.steps = steps := by
  rw [← neverLonger_iff]
  unfold ofSteps
  obtain ⟨row, some, sorted⟩ := p
  split
  · rename_i nonempty
    split
    · rename_i never
      simp [nonempty, never, eq_comm]
    · rename_i longer
      simp [longer]
  · rename_i empty
    simp [empty]

/-! ## Values for units of all lengths -/

variable (p : Pacing)

/-- A longer unit never has longer notes. -/
theorem valueFor_le {m n : Nat} (le : m ≤ n) :
    ((p.valueFor n).beats : Float) ≤ (p.valueFor m).beats := by
  have sorted := List.pairwise_iff_getElem.mp ((neverLonger_iff p.steps).mp p.never_longer)
  have places : min m p.ceiling - 1 ≤ min n p.ceiling - 1 := by omega
  unfold valueFor
  rcases places.eq_or_lt with same | before
  · simp only [same]
    exact (NoteValue.beats_le_iff ..).mpr le_rfl
  · exact sorted _ _ _ _ before

/-- From the ceiling on, all units have the last value. -/
theorem valueFor_of_ceiling_le {n : Nat} (far : p.ceiling ≤ n) :
    p.valueFor n = p.valueFor p.ceiling := by
  unfold valueFor
  simp only [min_eq_right far, min_self]

/-- Every value of a pacing is that of some unit. -/
theorem exists_valueFor {v : NoteValue} (mem : v ∈ p.durations) :
    ∃ n, 0 < n ∧ p.valueFor n = v := by
  obtain ⟨i, inside, rfl⟩ := List.getElem_of_mem (List.mem_eraseDups.mp mem)
  have place : min (i + 1) p.ceiling - 1 = i := by
    unfold ceiling
    omega
  refine ⟨i + 1, i.succ_pos, ?_⟩
  unfold valueFor
  simp only [place]

/-- Only a unit without notes has no value. -/
theorem durationFor_eq_error_iff {length : Int} {fault : Fault} :
    p.durationFor length = .error fault ↔ length < 1 ∧ fault = .unitTooShort length := by
  unfold durationFor
  split
  · rename_i short
    simp [short, eq_comm]
  · rename_i long
    simp [long]

/-- The value for a unit of positive length. -/
theorem exists_durationFor {length : Int} (pos : 1 ≤ length) :
    ∃ n : Nat, length = n ∧ 0 < n ∧ p.durationFor length = .ok (p.valueFor n) := by
  obtain ⟨n, rfl⟩ := Int.eq_ofNat_of_zero_le (by omega : 0 ≤ length)
  have some : 0 < n := by omega
  exact ⟨n, rfl, some, p.durationFor_of_pos some⟩

/-- What a pacing gives to units of all lengths. -/
structure Shortens : Prop where
  /-- Only a unit without notes is refused. -/
  refused : ∀ length fault,
    p.durationFor length = .error fault ↔ length < 1 ∧ fault = .unitTooShort length
  /-- The notes of a longer unit last no longer, in quarter notes. -/
  antitone : ∀ m n, 1 ≤ m → m ≤ n → ∃ v w, p.durationFor m = .ok v ∧ p.durationFor n = .ok w ∧
    (w.beats : Float) ≤ v.beats
  /-- From the ceiling on nothing changes. -/
  constant : ∀ n, (p.ceiling : Int) ≤ n → p.durationFor n = p.durationFor p.ceiling
  /-- What is given is what the pacing says it can give. -/
  range : ∀ v, v ∈ p.durations ↔ ∃ n, 1 ≤ n ∧ p.durationFor n = .ok v

theorem shortens : p.Shortens where
  refused length fault := p.durationFor_eq_error_iff
  antitone m n pos le := by
    have pos' : 1 ≤ n := by omega
    obtain ⟨k, rfl, -, here⟩ := p.exists_durationFor pos
    obtain ⟨l, rfl, -, there⟩ := p.exists_durationFor pos'
    have le' : k ≤ l := by omega
    exact ⟨_, _, here, there, p.valueFor_le le'⟩
  constant n far := by
    have ceiling := p.ceiling_pos
    obtain ⟨k, rfl, some, given⟩ := p.exists_durationFor (by omega : 1 ≤ n)
    rw [given, p.durationFor_of_pos ceiling, p.valueFor_of_ceiling_le (by omega)]
  range v := by
    constructor
    · intro mem
      obtain ⟨n, some, rfl⟩ := p.exists_valueFor mem
      exact ⟨n, by omega, p.durationFor_of_pos some⟩
    · rintro ⟨n, pos, given⟩
      obtain ⟨k, rfl, -, value⟩ := p.exists_durationFor pos
      rw [value] at given
      obtain rfl := Except.ok.inj given
      exact p.valueFor_mem k

end Pacing

/-- **The more notes, the shorter each.**  A row of note values is accepted if and only if it is not
empty and no value lasts longer than any earlier one.  A pacing that is made of it refuses a length
if and only if it is below one; the notes of a longer unit never last longer; from the ceiling on,
the number of values in the row, nothing changes; and what it gives to all lengths are exactly the
values it lists. -/
theorem pacing_shortens (steps : List NoteValue) :
    ((∃ p, Pacing.ofSteps steps = .ok p) ↔
      steps ≠ [] ∧ steps.Pairwise fun earlier later => (later.beats : Float) ≤ earlier.beats) ∧
    ∀ p, Pacing.ofSteps steps = .ok p →
      p.steps = steps ∧ p.ceiling = steps.length ∧ p.Shortens := by
  refine ⟨⟨fun ⟨p, made⟩ => (Pacing.ofSteps_eq_ok_iff.mp made).1, fun sorted => ?_⟩, ?_⟩
  · have never := (neverLonger_iff steps).mpr sorted.2
    exact ⟨⟨steps, sorted.1, never⟩, Pacing.ofSteps_eq_ok_iff.mpr ⟨sorted, rfl⟩⟩
  · intro p made
    have same := (Pacing.ofSteps_eq_ok_iff.mp made).2
    exact ⟨same, congrArg List.length same, p.shortens⟩

/-- A pacing in which two lengths of units share a value. -/
def Pacing.halves : Pacing where
  steps := [.half, .half, .quarter]
  nonempty := by decide
  never_longer := by decide

/-- Neighbours may last equally long, and a unit beyond the end of the row has its last value. -/
theorem pacing_shortens_halves :
    Pacing.ofSteps [.half, .half, .quarter] = .ok Pacing.halves ∧
      Pacing.halves.ceiling = 3 ∧ Pacing.halves.Shortens ∧
      Pacing.halves.durationFor 100 = .ok .quarter := by
  have made : Pacing.ofSteps [.half, .half, .quarter] = .ok Pacing.halves := rfl
  obtain ⟨-, gives⟩ := pacing_shortens [.half, .half, .quarter]
  obtain ⟨-, ceiling, shortens⟩ := gives Pacing.halves made
  have far := shortens.constant 100 (by rw [ceiling]; decide)
  refine ⟨made, ceiling, shortens, far.trans ?_⟩
  rfl

end Keysong
