import Keysong.Melody
import Keysong.Proofs.Performance

/-!
# Turns and interruptions

A performance can be interrupted at any moment.  Which turns are taken between the interruptions,
and how many there are, is left open here; the order of turns that a performance has is one of
them.

## Main Definitions

* `Incident` — a turn, or an interruption of those who wait for the music to end
* `Stage.meets` — a row of incidents
* `Stage.Reaches` — some row of incidents leads from one stage to another

## Main Statements

* `meets_invariant` — what turns and interruptions keep holds at every stage that is reached
* `reaches_settle`, `reaches_finish` — letting everybody go, and letting time pass
* `reaches_perform` — a melody that is performed, interrupted or not
-/

namespace Keysong

variable {τ : Type} [Quantity τ]

/-- What may happen on a stage. -/
inductive Incident (τ : Type) where
  | turn (turn : Turn τ)
  /-- Those who wait for the music to end are interrupted. -/
  | interruption

namespace Stage

/-- What an incident changes; a turn that is not possible is passed over. -/
def meet (s : Stage τ) : Incident τ → Stage τ
  | .turn t => (s.turn? t).getD s
  | .interruption => s.interrupt

/-- A row of incidents, one after the other. -/
def meets (s : Stage τ) (incidents : List (Incident τ)) : Stage τ := incidents.foldl meet s

/-- What every turn and every interruption keeps holds along a row of incidents. -/
theorem meets_invariant {P : Stage τ → Prop}
    (turn : ∀ s t s', P s → s.turn? t = some s' → P s') (interruption : ∀ s, P s → P s.interrupt)
    {s : Stage τ} (start : P s) (incidents : List (Incident τ)) : P (s.meets incidents) := by
  induction incidents generalizing s with
  | nil => exact start
  | cons incident rest ih =>
    refine ih ?_
    cases incident with
    | interruption => exact interruption s start
    | turn t =>
      show P ((s.turn? t).getD s)
      cases possible : s.turn? t with
      | none => exact start
      | some s' => exact turn s t s' start possible

/-- Some row of incidents leads from one stage to another. -/
def Reaches (s s' : Stage τ) : Prop := ∃ incidents, s.meets incidents = s'

theorem Reaches.refl (s : Stage τ) : s.Reaches s := ⟨[], rfl⟩

theorem Reaches.trans {s s' s'' : Stage τ} (first : s.Reaches s') (second : s'.Reaches s'') :
    s.Reaches s'' := by
  obtain ⟨incidents, rfl⟩ := first
  obtain ⟨others, rfl⟩ := second
  exact ⟨incidents ++ others, List.foldl_append⟩

theorem reaches_turn {s s' : Stage τ} {t : Turn τ} (gone : s.turn? t = some s') : s.Reaches s' := by
  refine ⟨[.turn t], ?_⟩
  show (s.turn? t).getD s = s'
  rw [gone, Option.getD_some]

theorem reaches_interrupt (s : Stage τ) : s.Reaches s.interrupt := ⟨[.interruption], rfl⟩

/-! ## The order of a performance -/

theorem reaches_settleFrom (fuel : Nat) (line : List Party) (s : Stage τ) :
    s.Reaches (settleFrom fuel line s) := by
  induction fuel generalizing line s with
  | zero => exact .refl s
  | succ fuel ih =>
    cases line with
    | nil => exact .refl s
    | cons first line =>
      unfold settleFrom
      cases gone : s.go? first with
      | none => exact ih line s
      | some s' =>
        have first : s.Reaches s' := reaches_turn (t := .of first) gone
        exact first.trans (ih _ s')

theorem reaches_settle (s : Stage τ) : s.Reaches s.settle := reaches_settleFrom s.turnBound s.able s

/-- Moving the clock on is a turn, unless the time lies behind. -/
theorem reaches_moveTo (s : Stage τ) (time : τ) : s.Reaches (s.moveTo time) := by
  have moved : s.Reaches { s with now := Quantity.later s.now time } := by
    unfold Quantity.later
    split
    · rename_i ahead
      exact reaches_turn (t := .clock time) (if_pos ahead)
    · exact .refl s
  exact moved.trans (reaches_settle _)

theorem reaches_finishFrom (stopAt : Option τ) (fuel : Nat) (s : Stage τ) :
    s.Reaches (finishFrom stopAt fuel s) := by
  induction fuel generalizing stopAt s with
  | zero =>
    unfold finishFrom
    exact .refl s
  | succ fuel ih =>
    unfold finishFrom
    split
    · exact .refl s
    · split
      · exact .refl s
      · split
        · exact (reaches_interrupt s).trans ((reaches_moveTo _ _).trans (ih _ _))
        · exact (reaches_moveTo _ _).trans (ih _ _)
      · exact (reaches_moveTo _ _).trans (ih _ _)

theorem reaches_finish (stopAt : Option τ) (s : Stage τ) : s.Reaches (s.finish stopAt) :=
  reaches_finishFrom stopAt s.wakeBound s

end Stage

/-- **A performance of a melody is a row of incidents**, on a stage where its only caller waits for
the first turn. -/
theorem Melody.reaches_perform (m : Melody) (i : Instrument τ) (stopAt : Option τ) :
    (Stage.alone Quantity.zero i m.program).Reaches (m.perform i stopAt) :=
  (Stage.reaches_settle _).trans (Stage.reaches_finish stopAt _)

end Keysong
