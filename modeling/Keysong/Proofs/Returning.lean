import Keysong.Proofs.Performance
import Keysong.Proofs.Visits

/-!
# Visits come to their end

Who visits an instrument waits for one thing only: that the loop which it has cancelled runs once
more.  A cancelled loop ends as soon as it wakes up, and it wakes up when time has passed for long
enough.  So there is always a way for a visit to come to its end.

## Main Definitions

* `TimePasses` — times that go on and on

## Main Statements

* `finishes_joined` — nothing else is waited for once the cancelled loop has ended
* `exists_isDone` — some more turns end a visit
-/

namespace Keysong

open Instrument

/-- Time can pass beyond any two points. -/
def TimePasses (τ : Type) [Quantity τ] : Prop :=
  ∀ now wake : τ, ∃ late, now < late ∧ wake ≤ late

theorem timePasses_rat : TimePasses Rat := fun now wake =>
  ⟨max (now + 1) wake, lt_of_lt_of_le (lt_add_one now) (le_max_left _ _), le_max_right _ _⟩

namespace Stage

/-! ## What is waited for -/

section Finishing

variable {τ : Type} [Quantity τ] {r : Request τ} {s : Stage τ} {n : Nat}

/-- A caller comes to the end of a program without having to wait. -/
def Finishes (n : Nat) (program : Program τ) (s : Stage τ) : Prop :=
  (runCaller n program s).2.todo = []

theorem finishes_nil : Finishes n [] s := rfl

theorem finishes_cons {action : Action τ} {rest : Program τ} {s' : Stage τ}
    (free : s.blocks action = false) (did : s.act n action = (s', .onward))
    (others : Finishes n rest s') : Finishes n (action :: rest) s := by
  unfold Finishes
  rw [runCaller_cons free, did]
  exact others

/-- Where no loop counts there is nothing to cancel. -/
theorem act_cancel_of_none (idle : s.instrument.current = none) :
    s.act n .cancel = (s, .onward) := by
  dsimp only [act]
  rw [idle]

theorem finishes_ending (idle : s.instrument.current = none) : Finishes n r.ending s := by
  cases r with
  | stop => exact finishes_cons rfl rfl finishes_nil
  | play notes notice =>
    exact finishes_cons rfl (act_cancel_of_none idle)
      (finishes_cons rfl rfl (finishes_cons rfl rfl (finishes_cons rfl rfl finishes_nil)))

/-- Notes are put into the queue without waiting; one that is refused ends the visit. -/
theorem finishes_filling (left : List (ScheduledNote τ)) (idle : s.instrument.current = none) :
    Finishes n (r.filling left) s := by
  induction left generalizing s with
  | nil => exact finishes_ending idle
  | cons note left ih =>
    cases scheduled : s.instrument.schedule note with
    | ok i =>
      obtain ⟨fills, -⟩ := fills_schedule scheduled
      exact finishes_cons rfl (act_schedule_ok scheduled n) (ih (fills.current.trans idle))
    | error fault =>
      show (runCaller n (.schedule note :: r.filling left) s).2.todo = []
      rw [runCaller_cons rfl, act_schedule_error scheduled, r.salvage_filling]
      rfl

theorem finishes_clear (idle : s.instrument.current = none) :
    Finishes n (.clear :: r.filling r.notes) s := by
  obtain ⟨deeds, sent, -⟩ := sends_clear s.now s.instrument
  exact finishes_cons rfl rfl (finishes_filling r.notes (sent.current.trans idle))

/-- **Nothing else is waited for once the cancelled loop has ended.** -/
theorem finishes_joined {k : Nat} (ended : s.instrument.loopEnded k = true)
    (idle : s.instrument.current = none) :
    Finishes n (.join k :: .cancel :: .clear :: r.filling r.notes) s := by
  have free : s.blocks (.join k) = false := by
    unfold blocks
    dsimp only
    rw [ended]
    rfl
  exact finishes_cons free rfl (finishes_cons rfl (act_cancel_of_none idle) (finishes_clear idle))

/-- A reset is not waited for, except that a loop which it has cancelled has to end. -/
theorem finishes_or_joins (n : Nat) (s : Stage τ) :
    Finishes n (.cancel :: .clear :: r.filling r.notes) s ∨
      ∃ k, (runCaller n (.cancel :: .clear :: r.filling r.notes) s).2.todo =
        .join k :: .cancel :: .clear :: r.filling r.notes := by
  obtain ⟨s', goes, did, cancelling⟩ := exists_cancelling n s
  cases cancelling with
  | idle current => exact Or.inl (finishes_cons rfl did (finishes_clear current))
  | ended current ceased => exact Or.inl (finishes_cons rfl did (finishes_clear rfl))
  | @live k l current here going =>
    refine Or.inr ⟨k, ?_⟩
    rw [runCaller_cons rfl, did]
    rfl

omit [Quantity τ] in
theorem isDone_of_todo (nothing : ∀ n, s.todo n = []) : s.isDone = true := by
  refine List.all_eq_true.mpr fun c mem => ?_
  obtain ⟨n, here⟩ := List.mem_iff_getElem?.mp mem
  have mine := nothing n
  unfold todo at mine
  rw [here] at mine
  exact List.isEmpty_iff.mpr mine

/-- A caller who does not have to wait can go on. -/
theorem exists_turn {action : Action τ} {rest : Program τ} (here : s.todo n = action :: rest)
    (free : s.blocks action = false) :
    ∃ s', s.turn? (.of (.caller n)) = some s' ∧
      s'.todo = Function.update s.todo n (runCaller n (action :: rest) s).2.todo := by
  unfold todo at here
  cases found : s.callers[n]? with
  | none =>
    rw [found] at here
    cases here
  | some c =>
    rw [found] at here
    dsimp only at here
    have ready : s.callerReady c = true := by
      unfold callerReady
      rw [here]
      dsimp only
      rw [free]
      rfl
    refine ⟨{ (runCaller n (action :: rest) s).1 with
      callers := (runCaller n (action :: rest) s).1.callers.set n
        ((runCaller n (action :: rest) s).2.resume c.fault) }, ?_, ?_⟩
    · show s.go? (.caller n) = _
      unfold go?
      dsimp only
      rw [found]
      dsimp only
      rw [ready, if_pos rfl, here]
    · have same := callers_runCaller n (action :: rest) s
      have set := todo_set (s := (runCaller n (action :: rest) s).1) (same ▸ found)
        ((runCaller n (action :: rest) s).2.resume c.fault)
      refine set.trans ?_
      unfold todo
      rw [same]
      rfl

/-- When the only caller can come to the end of its program, some turns bring it there. -/
theorem exists_isDone_of_finishes (alone : ∀ n, n ≠ 0 → s.todo n = [])
    (finishes : Finishes 0 (s.todo 0) s) : ∃ turns, (s.run turns).isDone = true := by
  cases here : s.todo 0 with
  | nil =>
    refine ⟨[], isDone_of_todo fun n => ?_⟩
    rcases eq_or_ne n 0 with rfl | other
    · exact here
    · exact alone n other
  | cons action rest =>
    rw [here] at finishes
    have free : s.blocks action = false := by
      by_contra waits
      have stuck := runCaller_blocked (n := 0) (eq_true_of_ne_false waits) rest
      rw [Finishes, stuck] at finishes
      cases finishes
    obtain ⟨s', gone, left⟩ := exists_turn here free
    refine ⟨[.of (.caller 0)], ?_⟩
    rw [run, gone, Option.getD_some]
    refine isDone_of_todo fun n => ?_
    show s'.todo n = []
    rw [left]
    rcases eq_or_ne n 0 with rfl | other
    · rw [Function.update_self]
      exact finishes
    · rw [Function.update_of_ne other]
      exact alone n other

theorem run_append (first others : List (Turn τ)) (s : Stage τ) :
    s.run (first ++ others) = (s.run first).run others := by
  induction first generalizing s with
  | nil => rfl
  | cons t first ih => exact ih _

end Finishing

/-! ## The end of a visit -/

section Ending

variable {τ : Type} [Quantity τ] {sound : Prop} {r : Request τ} {s : Stage τ}

/-- A cancelled loop can always wake up and end. -/
theorem exists_run_ended (passes : TimePasses τ) {k : Nat} {l : Loop τ}
    (here : s.instrument.loop? k = some l) (going : l.isEnded = false)
    (cancelled : l.cancelled = true) :
    ∃ turns late, s.run turns =
      { s with instrument := s.instrument.setLoop k { l with phase := .ended }, now := late } := by
  obtain ⟨wake, ready⟩ := exists_isReady going
  obtain ⟨late, ahead, awake⟩ := passes s.now wake
  have passed : s.turn? (.clock late) = some { s with now := late } := if_pos ahead
  have gone : Stage.turn? { s with now := late } (.of (.loop k)) = some
      { s with instrument := s.instrument.setLoop k { l with phase := .ended }, now := late } := by
    unfold turn? go?
    dsimp only
    rw [here]
    dsimp only
    rw [ready late awake, if_pos rfl, stepLoop_cancelled here cancelled]
  refine ⟨[.clock late, .of (.loop k)], late, ?_⟩
  rw [run, passed, Option.getD_some, run, gone, Option.getD_some]
  rfl

omit [Quantity τ] in
/-- A loop that is made to end has ended. -/
theorem loopEnded_setLoop {i : Instrument τ} {k : Nat} {l : Loop τ} (here : i.loop? k = some l) :
    (i.setLoop k { l with phase := .ended }).loopEnded k = true := by
  obtain ⟨inside, -⟩ := List.getElem?_eq_some_iff.mp here
  unfold loopEnded loop? setLoop
  dsimp only
  rw [List.getElem?_set_self inside]
  rfl

theorem exists_ended (passes : TimePasses τ) {k : Nat} {l : Loop τ}
    (here : s.instrument.loop? k = some l) (going : l.isEnded = false)
    (cancelled : l.cancelled = true) :
    ∃ turns, (s.run turns).todo = s.todo ∧
      (s.run turns).instrument.current = s.instrument.current ∧
      (s.run turns).instrument.loopEnded k = true := by
  obtain ⟨turns, late, ran⟩ := exists_run_ended passes here going cancelled
  exact ⟨turns, by rw [ran]; rfl, by rw [ran]; rfl, by rw [ran]; exact loopEnded_setLoop here⟩

omit [Quantity τ] in
/-- Who waits for a loop has begun to reset the instrument. -/
theorem isQuiet_of_joining {a : Place τ} {k : Nat} {rest : Program τ}
    (stands : Stands r a (.join k :: rest)) : a.isQuiet = true := by
  generalize left : Action.join k :: rest = program at stands
  cases stands with
  | joining l => rfl
  | waiting =>
    rw [Request.program_eq] at left
    cases left
  | filling all => rfl
  | _ => cases left

/-- A visit that waits for the loop which it has cancelled can come to its end. -/
theorem exists_isDone_of_joining (passes : TimePasses τ) (hosts : s.Hosts sound r) {k : Nat}
    (waits : s.todo 0 = .join k :: .cancel :: .clear :: r.filling r.notes) :
    ∃ turns, (s.run turns).isDone = true := by
  obtain ⟨alone, place, lock, looped, -⟩ := hosts.attends
  have stands := lock.stands 0
  rw [waits] at stands
  have idle : s.instrument.current = none := looped.quiet 0 (isQuiet_of_joining stands)
  obtain ⟨turns, todo, current, ended⟩ : ∃ turns, (s.run turns).todo = s.todo ∧
      (s.run turns).instrument.current = s.instrument.current ∧
      (s.run turns).instrument.loopEnded k = true := by
    cases ended : s.instrument.loopEnded k with
    | true => exact ⟨[], rfl, rfl, ended⟩
    | false =>
      unfold loopEnded at ended
      cases found : s.instrument.loop? k with
      | none =>
        rw [found] at ended
        cases ended
      | some l =>
        rw [found] at ended
        have uncounted : s.instrument.current ≠ some k := by
          rw [idle]
          nofun
        rcases looped.others k l found uncounted with ceased | cancelled
        · cases ended.symm.trans ceased
        · exact exists_ended passes found ended cancelled
  have finishes : Finishes 0 ((s.run turns).todo 0) (s.run turns) := by
    rw [todo, waits]
    exact finishes_joined ended (current.trans idle)
  obtain ⟨more, done⟩ := exists_isDone_of_finishes (fun n other => todo ▸ alone n other) finishes
  exact ⟨turns ++ more, by rwa [run_append]⟩

/-- A visit that starts with a reset can come to its end. -/
theorem exists_isDone_of_joins (passes : TimePasses τ) (hosts : s.Hosts sound r) {action : Action τ}
    {rest : Program τ} (here : s.todo 0 = action :: rest) (free : s.blocks action = false)
    (goes : Finishes 0 (action :: rest) s ∨ ∃ k, (runCaller 0 (action :: rest) s).2.todo =
      .join k :: .cancel :: .clear :: r.filling r.notes) :
    ∃ turns, (s.run turns).isDone = true := by
  rcases goes with finishes | ⟨k, joins⟩
  · exact exists_isDone_of_finishes hosts.attends.1 (here ▸ finishes)
  · obtain ⟨s', gone, left⟩ := exists_turn here free
    have hosts' : s'.Hosts sound r := hosts_turn hosts gone
    have waits : s'.todo 0 = .join k :: .cancel :: .clear :: r.filling r.notes := by
      rw [left, Function.update_self]
      exact joins
    obtain ⟨turns, done⟩ := exists_isDone_of_joining passes hosts' waits
    refine ⟨.of (.caller 0) :: turns, ?_⟩
    rw [run, gone, Option.getD_some]
    exact done

/-- **Some more turns end a visit.** -/
theorem exists_isDone (passes : TimePasses τ) (hosts : s.Hosts sound r) :
    ∃ turns, (s.run turns).isDone = true := by
  obtain ⟨alone, place, lock, looped, -⟩ := hosts.attends
  have stands := lock.stands 0
  have quiet := looped.quiet 0
  generalize here : s.todo 0 = program at stands
  generalize there : place 0 = a at stands
  rw [there] at quiet
  have finishes : Finishes 0 program s → ∃ turns, (s.run turns).isDone = true :=
    fun finishes => exists_isDone_of_finishes alone (here ▸ finishes)
  cases stands with
  | gone => exact finishes finishes_nil
  | reporting notice => exact finishes (finishes_cons rfl rfl finishes_nil)
  | leaving notice => exact finishes (finishes_cons rfl rfl (finishes_cons rfl rfl finishes_nil))
  | launching notice =>
    exact finishes (finishes_cons rfl rfl (finishes_cons rfl rfl
      (finishes_cons rfl rfl finishes_nil)))
  | filling all => exact finishes (finishes_filling _ (quiet rfl))
  | clearing => exact finishes (finishes_clear (quiet rfl))
  | resetting =>
    exact finishes (finishes_cons rfl (act_cancel_of_none (quiet rfl)) (finishes_clear (quiet rfl)))
  | joining k => exact exists_isDone_of_joining passes hosts here
  | entered => exact exists_isDone_of_joins passes hosts here rfl (finishes_or_joins 0 s)
  | waiting =>
    -- Nobody is inside, so the lock is free.
    have free : s.holder = none := by
      refine lock.holder_eq_none fun n => ?_
      rcases eq_or_ne n 0 with rfl | other
      · rw [there]
        rfl
      · have elsewhere := lock.stands n
        rw [alone n other] at elsewhere
        rw [elsewhere.eq_gone]
        rfl
    have unlocked : s.blocks .acquire = false := by
      unfold blocks
      rw [free]
      rfl
    rw [Request.program_eq] at here
    refine exists_isDone_of_joins passes hosts here unlocked ?_
    rw [Finishes, runCaller_cons unlocked]
    exact finishes_or_joins 0 { s with holder := some 0 }

end Ending

end Stage

end Keysong
