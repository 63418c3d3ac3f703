import Keysong.Proofs.Moves

/-!
# The history of a run

A run is recorded move by move, finer than its turns: who did what, what was sent in it, and which
queue it left behind.

## Main Definitions

* `Record` — what is kept of an action of a caller or a step of a loop
* `Stage.history` — the records of a run, in order: what is kept of its moves
* `queueAfter` — the queue that a row of records leaves behind

## Main Statements

* `history_invariant` — what every action, every step and the clock keep holds along a run
* `history_tells` — a history tells all deeds of a run, and the queue that it leaves behind
-/

namespace Keysong

open Instrument

variable {τ : Type}

/-- What is kept of an action of a caller or a step of a loop. -/
structure Record (τ : Type) where
  party : Party
  /-- The action of a caller; a loop has none. -/
  action : Option (Action τ)
  deeds : List (Deed τ)
  /-- The queue that is left behind. -/
  queue : List (Signal τ)

/-- The signals that were played. -/
def Record.played (m : Record τ) : List (Signal τ) := m.deeds.filterMap Deed.signal?

/-- The queue that a row of records leaves behind. -/
def queueAfter (queue : List (Signal τ)) : List (Record τ) → List (Signal τ)
  | [] => queue
  | m :: rest => queueAfter m.queue rest

theorem queueAfter_append (queue : List (Signal τ)) (first others : List (Record τ)) :
    queueAfter queue (first ++ others) = queueAfter (queueAfter queue first) others := by
  induction first generalizing queue with
  | nil => rfl
  | cons m rest ih => exact ih m.queue

theorem queueAfter_snoc (queue : List (Signal τ)) (first : List (Record τ)) (m : Record τ) :
    queueAfter queue (first ++ [m]) = m.queue :=
  queueAfter_append queue first [m]

namespace Stage

/-- What happened between two stages. -/
def record (party : Party) (action : Option (Action τ)) (s s' : Stage τ) : Record τ where
  party := party
  action := action
  deeds := s'.instrument.deeds.drop s.instrument.deeds.length
  queue := s'.instrument.queue

/-- What is kept of a move. -/
def recordOf (m : Move τ) : Record τ := m.before.record m.party m.action m.after

variable [Quantity τ]

/-- The records of a run. -/
def history (s : Stage τ) (turns : List (Turn τ)) : List (Record τ) := (s.moves turns).map recordOf

/-! ## Invariants of a history -/

section Invariant

variable {P : List (Record τ) → Instrument τ → Option Nat → (Nat → Program τ) → Prop}

/-- What a single action of any caller keeps. -/
def ActionKeeps (P : List (Record τ) → Instrument τ → Option Nat → (Nat → Program τ) → Prop) :
    Prop :=
  ∀ h (s : Stage τ) todo n action rest, P h s.instrument s.holder todo → todo n = action :: rest →
    s.blocks action = false →
    P (h ++ [s.record (.caller n) (some action) (s.act n action).1])
      (s.act n action).1.instrument (s.act n action).1.holder
      (Function.update todo n ((s.act n action).2.program rest))

/-- What a step of any loop keeps. -/
def StepKeeps (P : List (Record τ) → Instrument τ → Option Nat → (Nat → Program τ) → Prop) :
    Prop :=
  ∀ h (s s' : Stage τ) todo n, P h s.instrument s.holder todo → s.go? (.loop n) = some s' →
    P (h ++ [s.record (.loop n) none s']) s'.instrument s'.holder todo

/-- **What every action and every step keeps holds along a run.** -/
theorem history_invariant (action : ActionKeeps P) (step : StepKeeps P) {h : List (Record τ)}
    {s : Stage τ} (start : P h s.instrument s.holder s.todo) (turns : List (Turn τ)) :
    P (h ++ s.history turns) (s.run turns).instrument (s.run turns).holder (s.run turns).todo := by
  -- The same condition holds between the turns and while a caller runs.
  let between : Condition τ := fun moves => P (h ++ moves.map recordOf)
  have keeps : Keeps between fun _ => between := {
    begins := fun _ holds => holds
    acts := fun holds _ here free => by
      have after := action _ _ _ _ _ _ holds here free
      rw [List.append_assoc] at after
      show P (h ++ List.map recordOf (_ ++ _)) _ _ _
      rw [List.map_append]
      exact after
    rests := fun holds _ => holds
    steps := fun holds gone => by
      have after := step _ _ _ _ _ holds gone
      rw [List.append_assoc] at after
      show P (h ++ List.map recordOf (_ ++ _)) _ _ _
      rw [List.map_append]
      exact after }
  have start' : between [] s.instrument s.holder s.todo := by
    show P (h ++ []) _ _ _
    rw [List.append_nil]
    exact start
  exact moves_invariant keeps start' turns

end Invariant

/-! ## What a history tells -/

/-- An action may do more, but does not undo anything. -/
theorem deeds_act (n : Nat) (s : Stage τ) (action : Action τ) :
    s.instrument.deeds <+: (s.act n action).1.instrument.deeds := by
  by_cases notClear : action = .clear
  · subst notClear
    obtain ⟨deeds, sent, -⟩ := sends_clear s.now s.instrument
    exact ⟨deeds, sent.deeds.symm⟩
  by_cases notClose : action = .closeOutput
  · subst notClose
    dsimp only [act, closeOutput]
    split
    · exact List.prefix_rfl
    · exact List.prefix_append _ _
  exact ⟨[], (List.append_nil _).trans (soundsAs_act notClear notClose n s).deeds.symm⟩

theorem deeds_go?_loop {s s' : Stage τ} {n : Nat} (gone : s.go? (.loop n) = some s') :
    s.instrument.deeds <+: s'.instrument.deeds := by
  obtain ⟨l, played, steps⟩ := exists_steps gone
  obtain ⟨deeds, same, -⟩ := steps.deeds
  exact ⟨deeds, same.symm⟩

omit [Quantity τ] in
/-- A record tells the deeds between two stages. -/
theorem deeds_record {s s' : Stage τ} (h : s.instrument.deeds <+: s'.instrument.deeds)
    (party : Party) (action : Option (Action τ)) :
    s'.instrument.deeds = s.instrument.deeds ++ (s.record party action s').deeds := by
  obtain ⟨deeds, same⟩ := h
  show _ = _ ++ s'.instrument.deeds.drop s.instrument.deeds.length
  rw [← same, List.drop_left]

/-- **A history tells all deeds of a run, and the queue that it leaves behind.** -/
theorem history_tells (s : Stage τ) (turns : List (Turn τ)) :
    (s.run turns).instrument.deeds =
        s.instrument.deeds ++ (s.history turns).flatMap Record.deeds ∧
      (s.run turns).instrument.queue = queueAfter s.instrument.queue (s.history turns) := by
  let Told (h : List (Record τ)) (i : Instrument τ) (_ : Option Nat) (_ : Nat → Program τ) :=
    i.deeds = s.instrument.deeds ++ h.flatMap Record.deeds ∧
      i.queue = queueAfter s.instrument.queue h
  have snoc : ∀ h (before after : Stage τ) party action,
      before.instrument.deeds = s.instrument.deeds ++ h.flatMap Record.deeds →
      before.instrument.deeds <+: after.instrument.deeds →
      Told (h ++ [before.record party action after]) after.instrument none fun _ => [] := by
    intro h before after party action told more
    constructor
    · rw [List.flatMap_append, ← List.append_assoc, ← told, List.flatMap_singleton]
      exact deeds_record more party action
    · rw [queueAfter_snoc]
      rfl
  have action : ActionKeeps Told := fun h before _ n action _ told _ _ =>
    snoc h before _ _ _ told.1 (deeds_act n before action)
  have step : StepKeeps Told := fun h before after _ n told gone =>
    snoc h before after _ _ told.1 (deeds_go?_loop gone)
  exact history_invariant action step (h := []) ⟨(List.append_nil _).symm, rfl⟩ turns

end Stage

end Keysong
