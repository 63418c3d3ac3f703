import Keysong.Proofs.Course
import Keysong.Proofs.Incidents
import Mathlib.Data.Option.Basic

/-!
# What an output cannot change

Two stages that differ in nothing but the outputs of their instruments stay in step, whatever is
done on both.  Nobody who drives one of the instruments gets anything else to see than who drives
the other, and time passes in the same way.

## Main Definitions

* `Stage.InStep` — two stages that differ in their outputs only, one of which loses nothing
* `Occasion`, `Stage.occasions` — whatever may be done on a stage
* `Stage.onOutput` — the same stage with another output
* `Stage.GaveUpFor` — whoever gave up had one of some reasons

## Main Statements

* `inStep_act`, `inStep_turn?` — an action and a turn keep stages in step
* `inStep_occasions` — so does a row of occasions
* `gaveUpFor_occasions` — nobody gives up but for a note that is refused
* `output_changes_nothing` — what a stage does depends on its output only in what is heard

### Lines in step

Who goes next in a performance depends on who can go, and on bounds that are read off callers, loops
and the queue.  All of these belong to the course, so two performances take the same turns.
-/

namespace Keysong

open Quantity

variable {τ : Type}

open Instrument

variable [Quantity τ]

namespace Stage

/-! ## Two stages -/

/-- Two stages that differ in their outputs only, the second of which loses nothing. -/
structure InStep (s r : Stage τ) : Prop where
  now : s.now = r.now
  holder : s.holder = r.holder
  callers : s.callers = r.callers
  instrument : s.instrument.InStep r.instrument

variable {s r : Stage τ}

omit [Quantity τ] in
theorem InStep.blocks (h : InStep s r) (action : Action τ) : s.blocks action = r.blocks action := by
  unfold Stage.blocks
  cases action with
  | acquire =>
    dsimp only
    rw [h.holder]
  | join n =>
    dsimp only
    rw [h.instrument.loopEnded]
  | linger n =>
    dsimp only
    rw [h.instrument.loopEnded]
  | _ => rfl

omit [Quantity τ] in
theorem InStep.callerReady (h : InStep s r) (c : Caller τ) : s.callerReady c = r.callerReady c := by
  unfold Stage.callerReady
  split
  · rfl
  · rw [h.blocks]

omit [Quantity τ] in
/-- Another instrument may be in step as well. -/
theorem InStep.withInstrument (h : InStep s r) {i j : Instrument τ} (inStep : i.InStep j) :
    InStep { s with instrument := i } { r with instrument := j } :=
  ⟨h.now, h.holder, h.callers, inStep⟩

omit [Quantity τ] in
theorem inStep_unlock (h : InStep s r) (n : Nat) : InStep (s.unlock n) (r.unlock n) := by
  unfold unlock
  rw [h.holder]
  split
  · exact ⟨h.now, rfl, h.callers, h.instrument⟩
  · exact ⟨h.now, h.holder, h.callers, h.instrument⟩

omit [Quantity τ] in
theorem inStep_cancelLoop (h : InStep s r) (n : Nat) :
    InStep (s.cancelLoop n) (r.cancelLoop n) := by
  unfold cancelLoop
  rw [h.instrument.loop?]
  split
  · exact h.withInstrument (inStep_setLoop h.instrument n _)
  · exact h

/-- An action keeps stages in step, and the caller goes on in the same way on both. -/
theorem inStep_act (h : InStep s r) (n : Nat) (action : Action τ) :
    InStep (s.act n action).1 (r.act n action).1 ∧ (s.act n action).2 = (r.act n action).2 := by
  cases action with
  | acquire => exact ⟨⟨h.now, rfl, h.callers, h.instrument⟩, rfl⟩
  | release => exact ⟨inStep_unlock h n, rfl⟩
  | join l => exact ⟨h, rfl⟩
  | linger l => exact ⟨h, rfl⟩
  | clear =>
    have cleared := h.withInstrument (inStep_clear h.instrument s.now)
    rw [h.now] at cleared
    dsimp only [act]
    rw [h.now]
    exact ⟨cleared, rfl⟩
  | launch =>
    have cleared := h.withInstrument (inStep_launch h.instrument s.now)
    rw [h.now] at cleared
    dsimp only [act]
    rw [h.now]
    exact ⟨cleared, rfl⟩
  | closeOutput => exact ⟨h.withInstrument (inStep_closeOutput h.instrument), rfl⟩
  | report notice => exact ⟨h.withInstrument (inStep_report h.instrument _ _), rfl⟩
  | anyway => exact ⟨h, rfl⟩
  | schedule note =>
    obtain ⟨outcome, after⟩ := inStep_on h.instrument note
    dsimp only [act]
    generalize (Work.schedule note).on s.instrument = ran at outcome after
    generalize (Work.schedule note).on r.instrument = ran' at outcome after
    obtain ⟨came, i⟩ := ran
    obtain ⟨came', j⟩ := ran'
    obtain rfl : came = came' := outcome
    cases came with
    | ok done => exact ⟨h.withInstrument after, rfl⟩
    | error fault => exact ⟨inStep_unlock (h.withInstrument after) n, rfl⟩
  | attend =>
    dsimp only [act]
    rw [h.instrument.current]
    cases r.instrument.current with
    | none => exact ⟨h, rfl⟩
    | some l =>
      dsimp only
      rw [h.instrument.loopEnded]
      split
      · exact ⟨h, rfl⟩
      · exact ⟨h, rfl⟩
  | cancel =>
    dsimp only [act]
    rw [h.instrument.current]
    cases r.instrument.current with
    | none => exact ⟨h, rfl⟩
    | some l =>
      have left : ({ s.instrument with current := none } : Instrument τ).InStep
          { r.instrument with current := none } :=
        h.instrument.quietly (fun c => { c with current := none })
          rfl rfl (fun _ => rfl) rfl rfl rfl rfl
      dsimp only
      rw [left.loopEnded]
      split
      · exact ⟨h.withInstrument left, rfl⟩
      · exact ⟨inStep_cancelLoop (h.withInstrument left) l, rfl⟩

/-- A caller gets equally far on stages that are in step. -/
theorem inStep_runCaller (h : InStep s r) (n : Nat) (program : Program τ) :
    InStep (runCaller n program s).1 (runCaller n program r).1 ∧
      (runCaller n program s).2 = (runCaller n program r).2 := by
  induction program using salvage_induction generalizing s r with
  | nil => exact ⟨h, rfl⟩
  | cons action rest ih saves =>
    cases waits : r.blocks action with
    | true =>
      rw [runCaller_blocked waits, runCaller_blocked ((h.blocks action).trans waits)]
      exact ⟨h, rfl⟩
    | false =>
      rw [runCaller_cons waits, runCaller_cons ((h.blocks action).trans waits)]
      obtain ⟨after, goes⟩ := inStep_act h n action
      cases did : s.act n action with
      | mk s' next =>
        cases did' : r.act n action with
        | mk r' next' =>
          rw [did, did'] at after goes
          obtain rfl : next = next' := goes
          cases next with
          | onward => exact ih after
          | waits first => exact ⟨after, rfl⟩
          | gaveUp fault =>
            obtain ⟨after', left⟩ := saves after
            exact ⟨after', congrArg (Caller.resume (some fault)) left⟩

/-- On stages in step the same parties can go, and they stay in step. -/
theorem inStep_go? (h : InStep s r) (party : Party) :
    Option.Rel InStep (s.go? party) (r.go? party) := by
  unfold go?
  cases party with
  | caller n =>
    dsimp only
    rw [h.callers]
    cases r.callers[n]? with
    | none => exact .none
    | some c =>
      dsimp only
      rw [h.callerReady]
      split
      · obtain ⟨after, left⟩ := inStep_runCaller h n c.todo
        refine .some ⟨after.now, after.holder, ?_, after.instrument⟩
        dsimp only
        rw [after.callers, left]
      · exact .none
  | loop n =>
    dsimp only
    rw [h.instrument.loop?]
    cases r.instrument.loop? n with
    | none => exact .none
    | some l =>
      dsimp only
      rw [h.now]
      split
      · obtain ⟨after, time⟩ := inStep_stepLoop h.instrument r.now n
        exact .some ⟨time, h.holder, h.callers, after⟩
      · exact .none

theorem inStep_turn? (h : InStep s r) (t : Turn τ) :
    Option.Rel InStep (s.turn? t) (r.turn? t) := by
  cases t with
  | of party => exact inStep_go? h party
  | clock time =>
    dsimp only [turn?]
    rw [h.now]
    split
    · exact .some ⟨rfl, h.holder, h.callers, h.instrument⟩
    · exact .none

/-! ## Performances in step -/

theorem InStep.able (h : InStep s r) : s.able = r.able := by
  have same : s.canGo = r.canGo := by
    funext party
    unfold Stage.canGo
    cases party with
    | caller n =>
      have ready : s.callerReady = r.callerReady := funext h.callerReady
      dsimp only
      rw [h.callers, ready]
    | loop n =>
      dsimp only
      rw [h.instrument.loop?, h.now]
  unfold Stage.able parties
  rw [same, h.callers, h.instrument.loops]

omit [Quantity τ] in
theorem InStep.turnBound (h : InStep s r) : s.turnBound = r.turnBound := by
  unfold Stage.turnBound
  rw [h.callers, h.instrument.loops]

theorem InStep.nextWake (h : InStep s r) : s.nextWake = r.nextWake := by
  unfold Stage.nextWake
  rw [h.instrument.loops]

omit [Quantity τ] in
theorem InStep.wakeBound (h : InStep s r) : s.wakeBound = r.wakeBound :=
  congrArg (fun c : Course τ => 16 * (c.queue.length + 2)) h.instrument.course

omit [Quantity τ] in
theorem InStep.isDone (h : InStep s r) : s.isDone = r.isDone := by
  unfold Stage.isDone
  rw [h.callers]

theorem inStep_settleFrom (fuel : Nat) (line : List Party) (h : InStep s r) :
    InStep (settleFrom fuel line s) (settleFrom fuel line r) := by
  induction fuel generalizing line s r with
  | zero => exact h
  | succ fuel ih =>
    cases line with
    | nil => exact h
    | cons first line =>
      unfold settleFrom
      have gone := inStep_go? h first
      cases went : s.go? first with
      | none =>
        cases went' : r.go? first with
        | none => exact ih line h
        | some r' =>
          rw [went, went'] at gone
          cases gone
      | some s' =>
        cases went' : r.go? first with
        | none =>
          rw [went, went'] at gone
          cases gone
        | some r' =>
          rw [went, went'] at gone
          cases gone with
          | some after =>
            dsimp only
            rw [after.able]
            exact ih _ after

theorem inStep_settle (h : InStep s r) : InStep s.settle r.settle := by
  unfold settle
  rw [h.turnBound, h.able]
  exact inStep_settleFrom _ _ h

theorem inStep_perform (h : InStep s r) (programs : List (Program τ)) :
    InStep (perform programs s) (perform programs r) :=
  inStep_settle ⟨h.now, h.holder, rfl, h.instrument⟩

theorem inStep_moveTo (h : InStep s r) (time : τ) : InStep (s.moveTo time) (r.moveTo time) := by
  unfold moveTo
  rw [h.now]
  exact inStep_settle ⟨rfl, h.holder, h.callers, h.instrument⟩

theorem inStep_advanceFrom (limit : τ) (fuel : Nat) (h : InStep s r) :
    InStep (advanceFrom limit fuel s) (advanceFrom limit fuel r) := by
  induction fuel generalizing s r with
  | zero => exact h
  | succ fuel ih =>
    unfold advanceFrom
    rw [h.nextWake]
    cases r.nextWake with
    | none => exact h
    | some wake =>
      dsimp only
      split
      · exact ih (inStep_moveTo h wake)
      · exact h

theorem inStep_advance (h : InStep s r) (seconds : τ) :
    InStep (s.advance seconds) (r.advance seconds) := by
  unfold advance
  rw [h.now, h.wakeBound]
  have after := inStep_advanceFrom (r.now + seconds) r.wakeBound h
  refine ⟨?_, after.holder, after.callers, after.instrument⟩
  dsimp only
  rw [after.now]

omit [Quantity τ] in
theorem inStep_interrupt (h : InStep s r) : InStep s.interrupt r.interrupt := by
  refine ⟨h.now, h.holder, ?_, h.instrument⟩
  unfold interrupt
  dsimp only
  rw [h.callers]

theorem inStep_finishFrom (stopAt : Option τ) (fuel : Nat) (h : InStep s r) :
    InStep (finishFrom stopAt fuel s) (finishFrom stopAt fuel r) := by
  induction fuel generalizing stopAt s r with
  | zero =>
    unfold finishFrom
    exact h
  | succ fuel ih =>
    unfold finishFrom
    rw [h.isDone, h.nextWake]
    split
    · exact h
    · split
      · exact h
      · split
        · exact ih none (inStep_moveTo (inStep_interrupt h) _)
        · exact ih _ (inStep_moveTo h _)
      · exact ih none (inStep_moveTo h _)

theorem inStep_finish (h : InStep s r) (stopAt : Option τ) :
    InStep (s.finish stopAt) (r.finish stopAt) := by
  unfold finish
  rw [h.wakeBound]
  exact inStep_finishFrom stopAt _ h

end Stage

/-- Whatever may be done on a stage. -/
inductive Occasion (τ : Type) where
  /-- Somebody goes, or time passes. -/
  | turn (turn : Turn τ)
  | interruption
  /-- Others come, and run their programs as far as they get. -/
  | entrance (programs : List (Program τ))
  | pause (seconds : τ)
  | finish (stopAt : Option τ)

namespace Stage

/-- What an occasion changes. -/
def occasion (s : Stage τ) : Occasion τ → Stage τ
  | .turn t => (s.turn? t).getD s
  | .interruption => s.interrupt
  | .entrance programs => s.perform programs
  | .pause seconds => s.advance seconds
  | .finish stopAt => s.finish stopAt

/-- A row of occasions, one after the other. -/
def occasions (s : Stage τ) (row : List (Occasion τ)) : Stage τ := row.foldl occasion s

/-- The same stage with another output. -/
def onOutput (s : Stage τ) (output : Option Output) : Stage τ :=
  { s with instrument := { s.instrument with output := output } }

theorem inStep_occasion {s r : Stage τ} (h : InStep s r) (o : Occasion τ) :
    InStep (s.occasion o) (r.occasion o) := by
  cases o with
  | interruption => exact inStep_interrupt h
  | entrance programs => exact inStep_perform h programs
  | pause seconds => exact inStep_advance h seconds
  | finish stopAt => exact inStep_finish h stopAt
  | turn t =>
    have gone := inStep_turn? h t
    dsimp only [occasion]
    cases went : s.turn? t with
    | none =>
      cases went' : r.turn? t with
      | none => exact h
      | some r' =>
        rw [went, went'] at gone
        cases gone
    | some s' =>
      cases went' : r.turn? t with
      | none =>
        rw [went, went'] at gone
        cases gone
      | some r' =>
        rw [went, went'] at gone
        cases gone with
        | some after => exact after

/-- Whatever is done on both, stages stay in step. -/
theorem inStep_occasions {s r : Stage τ} (h : InStep s r) (row : List (Occasion τ)) :
    InStep (s.occasions row) (r.occasions row) := by
  induction row generalizing s r with
  | nil => exact h
  | cons o rest ih => exact ih (inStep_occasion h o)

omit [Quantity τ] in
/-- A stage is in step with itself on an output that loses nothing. -/
theorem inStep_onOutput (s : Stage τ) (output : Option Output) {ideal : Output}
    (carries : ∀ k, ideal.carries k = true) :
    InStep (s.onOutput output) (s.onOutput (some ideal)) where
  now := rfl
  holder := rfl
  callers := rfl
  instrument := by
    refine ⟨rfl, fun output here => ?_, fun _ => rfl, .refl _⟩
    obtain rfl := Option.some.inj here
    exact carries

/-! ## Giving up -/

/-- A fault with which a note is refused. -/
def IsRefusal (τ : Type) [Quantity τ] (fault : Fault) : Prop :=
  ∃ (i : Instrument τ) (note : ScheduledNote τ), i.schedule note = .error fault

/-- Whoever gave up had one of some reasons. -/
def GaveUpFor (reasons : Fault → Prop) (s : Stage τ) : Prop :=
  ∀ c ∈ s.callers, ∀ fault, c.fault = some fault → reasons fault

/-- An action after which a caller gives up is a note that is refused. -/
theorem isRefusal_of_act {n : Nat} {s s' : Stage τ} {action : Action τ} {fault : Fault}
    (did : s.act n action = (s', .gaveUp fault)) : IsRefusal τ fault := by
  cases action with
  | schedule note =>
    cases scheduled : s.instrument.schedule note with
    | ok i =>
      rw [act_schedule_ok scheduled] at did
      cases did
    | error reason =>
      rw [act_schedule_error scheduled] at did
      obtain rfl := Next.gaveUp.inj (Prod.mk.inj did).2
      exact ⟨s.instrument, note, scheduled⟩
  | cancel =>
    have cancelling := cancelling_act n s
    rw [did] at cancelling
    cases cancelling
  | attend =>
    dsimp only [act] at did
    split at did
    · cases did
    · split at did
      · cases did
      · cases did
  | _ => cases did

/-- A caller gives up only when a note is refused. -/
theorem isRefusal_of_runCaller {n : Nat} {program : Program τ} {s : Stage τ} {fault : Fault}
    (gaveUp : (runCaller n program s).2.fault = some fault) : IsRefusal τ fault := by
  induction program using salvage_induction generalizing s with
  | nil => cases gaveUp
  | cons action rest ih saves =>
    cases waits : s.blocks action with
    | true =>
      rw [runCaller_blocked waits] at gaveUp
      cases gaveUp
    | false =>
      rw [runCaller_cons waits] at gaveUp
      cases did : s.act n action with
      | mk s' next =>
        rw [did] at gaveUp
        cases next with
        | onward => exact ih gaveUp
        | waits first => cases gaveUp
        | gaveUp reason =>
          rcases Caller.fault_resume.mp gaveUp with later | ⟨-, now⟩
          · exact saves later
          · obtain rfl := Option.some.inj now
            exact isRefusal_of_act did

theorem reaches_advanceFrom (limit : τ) (fuel : Nat) (s : Stage τ) :
    s.Reaches (advanceFrom limit fuel s) := by
  induction fuel generalizing s with
  | zero => exact .refl s
  | succ fuel ih =>
    unfold advanceFrom
    split
    · exact .refl s
    · split
      · exact (reaches_moveTo s _).trans (ih _)
      · exact .refl s

section Reasons

variable {reasons : Fault → Prop} (refusals : ∀ fault, IsRefusal τ fault → reasons fault)

include refusals in
theorem gaveUpFor_turn {s s' : Stage τ} {t : Turn τ} (given : s.GaveUpFor reasons)
    (gone : s.turn? t = some s') : s'.GaveUpFor reasons := by
  cases t with
  | clock time =>
    obtain rfl := eq_of_clock gone
    exact given
  | of party =>
    cases party with
    | loop n =>
      obtain ⟨l, here, ready, rfl⟩ := go?_loop gone
      exact given
    | caller n =>
      obtain ⟨c, here, rfl⟩ := go?_caller gone
      intro c' mem fault gaveUp
      dsimp only at mem
      rw [callers_runCaller] at mem
      rcases List.mem_or_eq_of_mem_set mem with old | rfl
      · exact given c' old fault gaveUp
      · rcases Caller.fault_resume.mp gaveUp with now | ⟨-, before⟩
        · exact refusals fault (isRefusal_of_runCaller now)
        · exact given c (List.mem_of_getElem? here) fault before

omit [Quantity τ] in
theorem gaveUpFor_interrupt {s : Stage τ} (given : s.GaveUpFor reasons) :
    s.interrupt.GaveUpFor reasons := by
  intro c mem fault gaveUp
  obtain ⟨c', mem', rfl⟩ := List.mem_map.mp mem
  exact given c' mem' fault gaveUp

include refusals in
theorem gaveUpFor_reaches {s s' : Stage τ} (given : s.GaveUpFor reasons) (reached : s.Reaches s') :
    s'.GaveUpFor reasons := by
  obtain ⟨incidents, rfl⟩ := reached
  exact meets_invariant (fun _ _ _ => gaveUpFor_turn refusals) (fun _ => gaveUpFor_interrupt)
    given incidents

include refusals in
theorem gaveUpFor_occasion {s : Stage τ} (given : s.GaveUpFor reasons) (o : Occasion τ) :
    (s.occasion o).GaveUpFor reasons := by
  cases o with
  | interruption => exact gaveUpFor_interrupt given
  | finish stopAt => exact gaveUpFor_reaches refusals given (reaches_finish stopAt s)
  | pause seconds =>
    have after : (advanceFrom (s.now + seconds) s.wakeBound s).GaveUpFor reasons :=
      gaveUpFor_reaches refusals given (reaches_advanceFrom _ _ s)
    exact after
  | entrance programs =>
    refine gaveUpFor_reaches refusals ?_ (reaches_settle _)
    intro c mem fault gaveUp
    obtain ⟨todo, -, rfl⟩ := List.mem_map.mp mem
    cases gaveUp
  | turn t =>
    show ((s.turn? t).getD s).GaveUpFor reasons
    cases possible : s.turn? t with
    | none => exact given
    | some s' => exact gaveUpFor_turn refusals given possible

include refusals in
/-- Whatever is done on a stage, nobody gives up but for a note that is refused. -/
theorem gaveUpFor_occasions {s : Stage τ} (given : s.GaveUpFor reasons) (row : List (Occasion τ)) :
    (s.occasions row).GaveUpFor reasons := by
  induction row generalizing s with
  | nil => exact given
  | cons o rest ih => exact ih (gaveUpFor_occasion refusals given o)

end Reasons

end Stage

/-- **What a stage does depends on its output only in what is heard.**  Whatever is done on it, and
whether its output is missing or loses any of the messages, the course of the instrument is that on
an output that loses nothing: the same signals were taken out of the queue at the same times, the
same are left, and the same notes sound.  The same callers gave up with the same faults, which are
those of notes that were refused, and what was heard is part of what is heard on the other output,
in the same order. -/
theorem output_changes_nothing (s : Stage τ) (output : Option Output) {ideal : Output}
    (carries : ∀ k, ideal.carries k = true) (row : List (Occasion τ)) :
    let there := (s.onOutput output).occasions row
    let ideally := (s.onOutput (some ideal)).occasions row
    there.instrument.course = ideally.instrument.course ∧
      there.now = ideally.now ∧ there.holder = ideally.holder ∧
      there.callers = ideally.callers ∧
      (∀ c ∈ there.callers, ∀ fault, c.fault = some fault →
        Stage.IsRefusal τ fault ∨ ∃ c' ∈ s.callers, c'.fault = some fault) ∧
      there.instrument.heard.Sublist ideally.instrument.heard := by
  have same := Stage.inStep_occasions (s.inStep_onOutput output carries) row
  refine ⟨same.instrument.course, same.now, same.holder, same.callers, ?_, same.instrument.heard⟩
  exact Stage.gaveUpFor_occasions (fun _ => Or.inl)
    (fun c mem fault gaveUp => Or.inr ⟨c, mem, gaveUp⟩) row

/-! ## An output that loses messages -/

/-- An output that loses two of the messages. -/
def crackling : Output := { name := "Synth", carries := fun n => n != 1 && n != 5, attempts := 0 }

/-- An output that loses nothing. -/
def flawless : Output := { name := "Synth", carries := fun _ => true, attempts := 0 }

/-- A note and a chord are played and stopped before the chord is over, and the output is closed. -/
def afternoon : List (Occasion Rat) :=
  let note (letter : Letter) (start : Rat) : ScheduledNote Rat :=
    ⟨⟨letter, 0, 4⟩, start, 1, 0.5⟩
  [.entrance [playProgram [note .c 0, note .e 2, note .g 2] ⟨.info, []⟩], .pause 2,
    .entrance [stopProgram], .entrance [closeProgram]]

/-- On a bad output the first strike is lost, and all that should silence the chord; the signals are
taken out all the same. -/
theorem output_changes_nothing_afternoon :
    let s := Stage.idle 0 justOpened
    let there := (s.onOutput (some crackling)).occasions afternoon
    let ideally := (s.onOutput (some flawless)).occasions afternoon
    (∀ k, flawless.carries k = true) ∧ there.instrument.heard.length = 5 ∧
      ideally.instrument.heard.length = 9 ∧ there.instrument.taken.length = 4 ∧
      there.instrument.course = ideally.instrument.course ∧
      there.callers = ideally.callers ∧
      there.instrument.heard.Sublist ideally.instrument.heard := by
  have carries : ∀ k, flawless.carries k = true := fun _ => rfl
  obtain ⟨course, -, -, callers, -, heard⟩ :=
    output_changes_nothing (Stage.idle 0 justOpened) (some crackling) carries afternoon
  refine ⟨carries, ?_, ?_, ?_, course, callers, heard⟩
  · decide +kernel
  · decide +kernel
  · decide +kernel

end Keysong
