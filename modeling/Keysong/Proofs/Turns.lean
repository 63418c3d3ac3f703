import Keysong.Instrument.Settled
import Keysong.Proofs.Operations

/-!
# What a turn changes

A turn of a caller is a row of single actions, a turn of a loop is one step of that loop.  This
module takes the turns of a stage apart, so that what holds along a run can be shown for one action
and one step.

## Main Definitions

* `salvage` — what of a program is done even by somebody who gives up
* `Stage.act` — the effect of a single action
* `Stage.Next` — how a caller goes on after it
* `Stage.Cancelling` — the three things that cancelling may come to

## Main Statements

* `runCaller_cons` — a caller runs its first action, and then the others
* `go?_caller`, `go?_loop` — what a turn that is possible changes
* `run_invariant` — what every turn keeps holds along a run

### Waiting

A caller that cancels a live loop waits for it and then looks again.  `Next.waits` puts these two
actions before the others, where the first of them blocks; so a caller stops only at an action
before which it has to wait, or at the end of what it does in spite of a fault.  That part of a
program is found behind its first mark, not right behind the action that failed, so along a run of a
caller the induction is on programs with both their rest and what is salvaged of it.
-/

namespace Keysong

open Instrument

variable {τ : Type}

/-- What of a program is done even by somebody who gives up: what stands behind the first mark. -/
def salvage : Program τ → Program τ
  | [] => []
  | .anyway :: rest => rest
  | _ :: rest => salvage rest

/-- Programs by induction: an action, its rest, and what is salvaged of the rest. -/
theorem salvage_induction {P : Program τ → Prop} (nil : P [])
    (cons : ∀ action rest, P rest → P (salvage rest) → P (action :: rest)) (program : Program τ) :
    P program := by
  suffices both : P program ∧ P (salvage program) from both.1
  induction program with
  | nil => exact ⟨nil, nil⟩
  | cons action rest ih =>
    refine ⟨cons action rest ih.1 ih.2, ?_⟩
    cases action with
    | anyway => exact ih.1
    | _ => exact ih.2

/-- Nothing is salvaged of actions without a mark. -/
theorem salvage_append {program : Program τ} (unmarked : ∀ action ∈ program, action ≠ .anyway)
    (rest : Program τ) : salvage (program ++ rest) = salvage rest := by
  induction program with
  | nil => rfl
  | cons action rest ih =>
    obtain ⟨first, others⟩ := List.forall_mem_cons.mp unmarked
    cases action with
    | anyway => exact absurd rfl first
    | _ => exact ih others

theorem salvage_eq_nil {program : Program τ} (unmarked : ∀ action ∈ program, action ≠ .anyway) :
    salvage program = [] := by
  have nothing := salvage_append unmarked []
  rwa [List.append_nil] at nothing

/-- What is salvaged stands at the end of the program. -/
theorem salvage_suffix (program : Program τ) : salvage program <:+ program := by
  induction program with
  | nil => exact List.suffix_rfl
  | cons action rest ih =>
    cases action with
    | anyway => exact List.suffix_cons _ _
    | _ => exact ih.trans (List.suffix_cons _ _)

/-- Who has not given up before goes on as it does. -/
theorem Caller.resume_none (c : Caller τ) : c.resume none = c := by
  unfold resume
  rw [Option.or_none]

/-- What somebody gave up for: now, or before. -/
theorem Caller.fault_resume {before : Option Fault} {c : Caller τ} {fault : Fault} :
    (c.resume before).fault = some fault ↔
      c.fault = some fault ∨ c.fault = none ∧ before = some fault :=
  Option.or_eq_some_iff

variable [Quantity τ]

namespace Stage

/-- How a caller goes on after an action. -/
inductive Next (τ : Type) where
  | onward
  /-- It has something to wait for before it goes on. -/
  | waits (first : Program τ)
  | gaveUp (fault : Fault)

/-- What is left to do after an action that had some others behind it. -/
def Next.program (rest : Program τ) : Next τ → Program τ
  | onward => rest
  | waits first => first ++ rest
  | gaveUp _ => salvage rest

/-- The effect of a single action. -/
def act (n : Nat) (s : Stage τ) : Action τ → Stage τ × Next τ
  | .acquire => ({ s with holder := some n }, .onward)
  | .release => (s.unlock n, .onward)
  | .cancel =>
    match s.instrument.current with
    | none => (s, .onward)
    | some l =>
      let s := { s with instrument := { s.instrument with current := none } }
      if s.instrument.loopEnded l then (s, .onward)
      else (s.cancelLoop l, .waits [.join l, .cancel])
  | .join _ => (s, .onward)
  | .clear => ({ s with instrument := s.instrument.clear s.now }, .onward)
  | .schedule note =>
    match (Work.schedule note).on s.instrument with
    | (.ok _, i) => ({ s with instrument := i }, .onward)
    | (.error fault, i) => (({ s with instrument := i } : Stage τ).unlock n, .gaveUp fault)
  | .launch => ({ s with instrument := s.instrument.launch s.now }, .onward)
  | .closeOutput => ({ s with instrument := s.instrument.closeOutput }, .onward)
  | .attend =>
    match s.instrument.current with
    | none => (s, .onward)
    | some l => if s.instrument.loopEnded l then (s, .onward) else (s, .waits [.linger l])
  | .linger _ => (s, .onward)
  | .report notice => ({ s with instrument := s.instrument.report [notice] }, .onward)
  | .anyway => (s, .onward)

/-- Somebody who has given up does what is salvaged. -/
theorem runFrom_some (n : Nat) (fault : Fault) (program : Program τ) (s : Stage τ) :
    runFrom n (some fault) program s =
      ((runCaller n (salvage program) s).1,
        (runCaller n (salvage program) s).2.resume (some fault)) := by
  induction program with
  | nil => rfl
  | cons action rest ih =>
    cases action with
    | anyway => rfl
    | _ => exact ih

/-- A caller runs its first action and then the others, unless it has to wait.  If it gives up, it
does what is salvaged of the others. -/
theorem runCaller_cons {n : Nat} {action : Action τ} {s : Stage τ}
    (free : s.blocks action = false) (rest : Program τ) :
    runCaller n (action :: rest) s =
      match s.act n action with
      | (s', .onward) => runCaller n rest s'
      | (s', .waits first) => (s', ⟨first ++ rest, none⟩)
      | (s', .gaveUp fault) => ((runCaller n (salvage rest) s').1,
          (runCaller n (salvage rest) s').2.resume (some fault)) := by
  -- `act` is one step of `runCaller`, so each action is compared with its own branch.
  unfold runCaller
  rw [runFrom.eq_def]
  dsimp only
  rw [free, if_neg Bool.false_ne_true]
  cases action with
  | acquire => rfl
  | release => rfl
  | join l => rfl
  | clear => rfl
  | launch => rfl
  | closeOutput => rfl
  | linger l => rfl
  | report notice => rfl
  | anyway => rfl
  | schedule note =>
    dsimp only [act]
    cases (Work.schedule note).on s.instrument with
    | mk outcome i =>
      cases outcome with
      | ok done => rfl
      | error fault => exact runFrom_some n fault rest _
  | cancel =>
    dsimp only [act]
    cases s.instrument.current with
    | none => rfl
    | some l =>
      dsimp only
      split
      · rfl
      · rfl
  | attend =>
    dsimp only [act]
    cases s.instrument.current with
    | none => rfl
    | some l =>
      dsimp only
      split
      · rfl
      · rfl

theorem runCaller_blocked {n : Nat} {action : Action τ} {s : Stage τ}
    (waits : s.blocks action = true) (rest : Program τ) :
    runCaller n (action :: rest) s = (s, ⟨action :: rest, none⟩) := by
  unfold runCaller
  rw [runFrom.eq_def]
  dsimp only
  rw [waits, if_pos rfl]

/-- What cancelling comes to: no loop counts, or the one that counted has ended, or it is marked and
has to be waited for. -/
inductive Cancelling (s : Stage τ) : Stage τ → Next τ → Prop where
  | idle (current : s.instrument.current = none) : Cancelling s s .onward
  | ended {k : Nat} (current : s.instrument.current = some k)
    (ceased : s.instrument.loopEnded k = true) :
    Cancelling s { s with instrument := { s.instrument with current := none } } .onward
  | live {k : Nat} {l : Loop τ} (current : s.instrument.current = some k)
    (here : s.instrument.loop? k = some l) (going : l.isEnded = false) :
    Cancelling s
      { s with instrument :=
        setLoop { s.instrument with current := none } k { l with cancelled := true } }
      (.waits [.join k, .cancel])

theorem cancelling_act (n : Nat) (s : Stage τ) :
    Cancelling s (s.act n .cancel).1 (s.act n .cancel).2 := by
  dsimp only [act]
  cases current : s.instrument.current with
  | none => exact .idle current
  | some k =>
    dsimp only
    cases ceased : loopEnded { s.instrument with current := none } k with
    | true => exact .ended current ceased
    | false =>
      rw [if_neg Bool.false_ne_true]
      unfold loopEnded at ceased
      unfold cancelLoop
      cases here : loop? { s.instrument with current := none } k with
      | none =>
        rw [here] at ceased
        cases ceased
      | some l =>
        rw [here] at ceased
        exact .live current here ceased

theorem exists_cancelling (n : Nat) (s : Stage τ) :
    ∃ s' goes, s.act n .cancel = (s', goes) ∧ Cancelling s s' goes :=
  ⟨_, _, rfl, cancelling_act n s⟩

/-- An action of one caller leaves the others alone. -/
theorem callers_act (n : Nat) (s : Stage τ) (action : Action τ) :
    (s.act n action).1.callers = s.callers := by
  cases action with
  | release =>
    dsimp only [act, unlock]
    split <;> rfl
  | cancel =>
    dsimp only [act]
    split
    · rfl
    · split
      · rfl
      · dsimp only [cancelLoop]
        split <;> rfl
  | schedule note =>
    dsimp only [act, unlock]
    split
    · rfl
    · split <;> rfl
  | attend =>
    dsimp only [act]
    split
    · rfl
    · split <;> rfl
  | _ => rfl

omit [Quantity τ] in
@[simp] theorem instrument_unlock (s : Stage τ) (n : Nat) :
    (s.unlock n).instrument = s.instrument := by
  unfold unlock
  split <;> rfl

/-- Scheduling leaves the instrument of its work behind, whether or not the note is refused. -/
theorem instrument_act_schedule (n : Nat) (s : Stage τ) (note : ScheduledNote τ) :
    (s.act n (.schedule note)).1.instrument = ((Work.schedule note).on s.instrument).2 := by
  dsimp only [act]
  cases (Work.schedule note).on s.instrument with
  | mk outcome i =>
    cases outcome with
    | ok done => rfl
    | error fault => exact instrument_unlock _ n

/-- A note that gets through leaves the caller to go on. -/
theorem act_schedule_ok {s : Stage τ} {note : ScheduledNote τ} {i : Instrument τ}
    (scheduled : s.instrument.schedule note = .ok i) (n : Nat) :
    s.act n (.schedule note) = ({ s with instrument := i }, .onward) := by
  dsimp only [act]
  rw [schedule_eq_ok_iff.mp scheduled]

/-- A note that is refused ends the caller and frees the lock. -/
theorem act_schedule_error {s : Stage τ} {note : ScheduledNote τ} {fault : Fault}
    (refused : s.instrument.schedule note = .error fault) (n : Nat) :
    s.act n (.schedule note) =
      (({ s with instrument := ((Work.schedule note).on s.instrument).2 } : Stage τ).unlock n,
        .gaveUp fault) := by
  have came := schedule_eq_error_iff.mp refused
  dsimp only [act]
  generalize (Work.schedule note).on s.instrument = ran at came
  obtain ⟨outcome, i⟩ := ran
  obtain rfl : outcome = .error fault := came
  rfl

/-- Behind a note all the rest is left, or what is salvaged of it. -/
theorem program_act_schedule (n : Nat) (s : Stage τ) (note : ScheduledNote τ)
    (rest : Program τ) :
    (s.act n (.schedule note)).2.program rest = rest ∨
      (s.act n (.schedule note)).2.program rest = salvage rest := by
  cases scheduled : s.instrument.schedule note with
  | ok i =>
    rw [act_schedule_ok scheduled]
    exact Or.inl rfl
  | error fault =>
    rw [act_schedule_error scheduled]
    exact Or.inr rfl

/-- Loops are only changed by cancelling and launching. -/
theorem loops_act {action : Action τ} (notCancel : action ≠ .cancel) (notLaunch : action ≠ .launch)
    (n : Nat) (s : Stage τ) :
    (s.act n action).1.instrument.loops = s.instrument.loops ∧
      (s.act n action).1.instrument.current = s.instrument.current := by
  cases action with
  | cancel => exact absurd rfl notCancel
  | launch => exact absurd rfl notLaunch
  | clear =>
    obtain ⟨deeds, sent, -⟩ := sends_clear s.now s.instrument
    exact ⟨sent.loops, sent.current⟩
  | schedule note =>
    rw [instrument_act_schedule]
    have fills := fills_on note s.instrument
    exact ⟨fills.loops, fills.current⟩
  | release =>
    dsimp only [act]
    rw [instrument_unlock]
    exact ⟨rfl, rfl⟩
  | closeOutput =>
    dsimp only [act, closeOutput]
    split <;> exact ⟨rfl, rfl⟩
  | attend =>
    dsimp only [act]
    split
    · exact ⟨rfl, rfl⟩
    · split <;> exact ⟨rfl, rfl⟩
  | _ => exact ⟨rfl, rfl⟩

/-- The queue is only changed by clearing and scheduling. -/
theorem queue_act {action : Action τ} (notClear : action ≠ .clear)
    (notSchedule : ∀ note, action ≠ .schedule note) (n : Nat) (s : Stage τ) :
    (s.act n action).1.instrument.queue = s.instrument.queue ∧
      (s.act n action).1.instrument.counter = s.instrument.counter := by
  cases action with
  | clear => exact absurd rfl notClear
  | schedule note => exact absurd rfl (notSchedule note)
  | cancel =>
    dsimp only [act]
    split
    · exact ⟨rfl, rfl⟩
    · split
      · exact ⟨rfl, rfl⟩
      · dsimp only [cancelLoop]
        split <;> exact ⟨rfl, rfl⟩
  | release =>
    dsimp only [act]
    rw [instrument_unlock]
    exact ⟨rfl, rfl⟩
  | closeOutput =>
    dsimp only [act, closeOutput]
    split <;> exact ⟨rfl, rfl⟩
  | attend =>
    dsimp only [act]
    split
    · exact ⟨rfl, rfl⟩
    · split <;> exact ⟨rfl, rfl⟩
  | _ => exact ⟨rfl, rfl⟩

/-- Two states of an instrument that nobody can tell apart by listening. -/
structure SoundsAs (i i' : Instrument τ) : Prop where
  channel : i'.channel = i.channel
  output : i'.output = i.output
  sounding : i'.sounding = i.sounding
  deeds : i'.deeds = i.deeds

/-- Only clearing and closing the output is heard. -/
theorem soundsAs_act {action : Action τ} (notClear : action ≠ .clear)
    (notClose : action ≠ .closeOutput) (n : Nat) (s : Stage τ) :
    SoundsAs s.instrument (s.act n action).1.instrument := by
  cases action with
  | clear => exact absurd rfl notClear
  | closeOutput => exact absurd rfl notClose
  | cancel =>
    obtain ⟨s', goes, did, cancelling⟩ := exists_cancelling n s
    rw [did]
    cases cancelling with
    | idle current => exact ⟨rfl, rfl, rfl, rfl⟩
    | ended current ceased => exact ⟨rfl, rfl, rfl, rfl⟩
    | live current here going => exact ⟨rfl, rfl, rfl, rfl⟩
  | schedule note =>
    rw [instrument_act_schedule]
    have fills := fills_on note s.instrument
    exact ⟨fills.channel, fills.output, fills.sounding, fills.deeds⟩
  | release =>
    dsimp only [act]
    rw [instrument_unlock]
    exact ⟨rfl, rfl, rfl, rfl⟩
  | attend =>
    dsimp only [act]
    split
    · exact ⟨rfl, rfl, rfl, rfl⟩
    · split <;> exact ⟨rfl, rfl, rfl, rfl⟩
  | _ => exact ⟨rfl, rfl, rfl, rfl⟩

theorem callers_runCaller (n : Nat) (program : Program τ) (s : Stage τ) :
    (runCaller n program s).1.callers = s.callers := by
  induction program using salvage_induction generalizing s with
  | nil => rfl
  | cons action rest ih saves =>
    cases waits : s.blocks action with
    | true => rw [runCaller_blocked waits]
    | false =>
      rw [runCaller_cons waits, ← callers_act n s action]
      cases s.act n action with
      | mk s' goes =>
        cases goes with
        | onward => exact ih s'
        | waits first => rfl
        | gaveUp fault => exact saves s'

/-! ## Programs -/

omit [Quantity τ] in
/-- The actions of a session that plays some notes. -/
theorem playProgram_eq (notes : List (ScheduledNote τ)) (notice : Notice) :
    playProgram notes notice = .acquire :: .cancel :: .clear ::
      (notes.map .schedule ++ [.cancel, .launch, .release, .report notice]) := by
  have calls : (notes.map Call.schedule).flatMap Call.actions = notes.map .schedule := by
    rw [List.flatMap_map]
    exact List.map_eq_flatMap.symm
  unfold playProgram sessionProgram Session.play
  rw [List.flatMap_cons, List.flatMap_append, calls]
  simp [Call.actions]

/-! ## Turns -/

theorem go?_caller {s s' : Stage τ} {n : Nat} (h : s.go? (.caller n) = some s') :
    ∃ c, s.callers[n]? = some c ∧
      s' = { (runCaller n c.todo s).1 with
        callers := (runCaller n c.todo s).1.callers.set n
          ((runCaller n c.todo s).2.resume c.fault) } := by
  unfold go? at h
  dsimp only at h
  cases here : s.callers[n]? with
  | none =>
    rw [here] at h
    cases h
  | some c =>
    rw [here] at h
    dsimp only at h
    split at h
    · exact ⟨c, rfl, (Option.some.inj h).symm⟩
    · cases h

theorem go?_loop {s s' : Stage τ} {n : Nat} (h : s.go? (.loop n) = some s') :
    ∃ l, s.instrument.loop? n = some l ∧ l.isReady s.now = true ∧
      s' = { s with
        instrument := (s.instrument.stepLoop s.now n).1
        now := (s.instrument.stepLoop s.now n).2 } := by
  unfold go? at h
  dsimp only at h
  cases here : s.instrument.loop? n with
  | none =>
    rw [here] at h
    cases h
  | some l =>
    rw [here] at h
    dsimp only at h
    split at h
    · exact ⟨l, rfl, ‹_›, (Option.some.inj h).symm⟩
    · cases h

/-- Time only passes up to a point that lies ahead. -/
theorem eq_of_clock {s s' : Stage τ} {time : τ} (gone : s.turn? (.clock time) = some s') :
    s' = { s with now := time } := by
  unfold turn? at gone
  dsimp only at gone
  split at gone
  · exact (Option.some.inj gone).symm
  · cases gone

/-- What a step of a loop does. -/
structure Steps (n : Nat) (l : Loop τ) (played : List (Signal τ)) (s s' : Stage τ) : Prop where
  here : s.instrument.loop? n = some l
  going : l.isEnded = false
  holder : s'.holder = s.holder
  loops : ∃ phase, s'.instrument.loops =
    s.instrument.loops.set n { phase := phase, cancelled := l.cancelled } ∧
      (l.cancelled = true → phase = .ended) ∧
      (l.cancelled = false → phase = .ended → s'.instrument.queue = [])
  silent : l.cancelled = true → played = []
  current : s'.instrument.current = s.instrument.current
  counter : s'.instrument.counter = s.instrument.counter
  queue : s.instrument.queue = played ++ s'.instrument.queue
  due : ∀ t ∈ played, s.instrument.isDue s'.now t = true
  deeds : ∃ deeds, s'.instrument.deeds = s.instrument.deeds ++ deeds ∧
    PlayedAt s'.now played deeds ∧
    (s.instrument.CarriesAll → s'.instrument.CarriesAll ∧ ∀ d ∈ deeds, d.reached = true)

/-- A loop that is woken plays the front of the queue, unless it is cancelled. -/
theorem exists_steps {s s' : Stage τ} {n : Nat} (gone : s.go? (.loop n) = some s') :
    ∃ l played, Steps n l played s s' := by
  obtain ⟨l, here, ready, rfl⟩ := go?_loop gone
  have going : l.isEnded = false := Bool.eq_false_iff.mpr fun ended => by
    rw [not_isReady_of_isEnded ended] at ready
    cases ready
  cases cancelled : l.cancelled with
  | true =>
    rw [stepLoop_cancelled here cancelled]
    exact ⟨l, [], {
      here := here
      going := going
      holder := rfl
      loops := ⟨.ended, rfl, fun _ => rfl, fun live => by rw [cancelled] at live; cases live⟩
      silent := fun _ => rfl
      current := rfl
      counter := rfl
      queue := rfl
      due := fun t mem => absurd mem List.not_mem_nil
      deeds := ⟨[], (List.append_nil _).symm, .nil, fun carries =>
        ⟨carries, fun d mem => absurd mem List.not_mem_nil⟩⟩ }⟩
  | false =>
    obtain ⟨phase, deeds, sent, played, ends⟩ := stepLoop_live here cancelled s.now
    have left : (s.instrument.stepLoop s.now n).1.queue =
        s.instrument.queue.dropWhile (s.instrument.isDue (actTime s.now l)) := sent.queue
    have late : (s.instrument.stepLoop s.now n).2 = actTime s.now l :=
      stepLoop_time here cancelled s.now
    exact ⟨l, s.instrument.queue.takeWhile (s.instrument.isDue (actTime s.now l)), {
      here := here
      going := going
      holder := rfl
      loops := by
        refine ⟨phase, ?_, ?_, fun _ ended => left.trans (ends.mp ended)⟩
        · rw [cancelled]
          exact sent.loops
        · rw [cancelled]
          nofun
      silent := by
        rw [cancelled]
        nofun
      current := sent.current
      counter := sent.counter
      queue := by
        show _ = _ ++ (s.instrument.stepLoop s.now n).1.queue
        rw [left, List.takeWhile_append_dropWhile]
      due := by
        show ∀ t ∈ _, s.instrument.isDue (s.instrument.stepLoop s.now n).2 t = true
        rw [late]
        exact List.all_eq_true.mp List.all_takeWhile
      deeds := by
        refine ⟨deeds, sent.deeds, ?_, sent.arrives⟩
        show PlayedAt (s.instrument.stepLoop s.now n).2 _ _
        rw [late]
        exact played }⟩

/-- What every turn keeps holds along a run. -/
theorem run_invariant {P : Stage τ → Prop}
    (step : ∀ s t s', P s → s.turn? t = some s' → P s') {s : Stage τ} (start : P s)
    (turns : List (Turn τ)) : P (s.run turns) := by
  induction turns generalizing s with
  | nil => exact start
  | cons t rest ih =>
    refine ih ?_
    cases possible : s.turn? t with
    | none => exact start
    | some s' => exact step s t s' start possible

end Stage

end Keysong
