import Keysong.Proofs.Silence

/-!
# Loops retire for good

Callers cancel and launch loops without a lock that keeps them apart, and whoever cancels a loop
forgets it before it has ended.  Still at most one loop can ever send: every loop but the one that
counts is retired, it has ended or it is cancelled, and what is retired stays retired and is never
heard of again.

## Main Definitions

* `Instrument.Retired` — a loop has ended or is cancelled
* `Instrument.IsStill` — nothing is queued and all loops are retired
* `Move.IsQuiet` — nothing was done in a move, and nothing taken out of the queue
* `isGuarded` — the programs that launch and clear only right behind a cancelling

## Main Statements

* `quiet_since` — a loop that is retired after some move of a run is quiet in all later ones
* `retiring_keeps` — every action and every step keeps all loops retired but the one that counts
* `one_loop_sends` — so at most one loop can send, and none of the old ones once a reset is over

### Why nobody launches a second loop

A caller waits for the loop that it has cancelled, and meanwhile another one may launch.  But it
looks again when it is woken, and goes on only if no loop counts; and then it launches or clears at
once, before anybody else comes in between.
-/

namespace Keysong

open Instrument

variable {τ : Type}

/-! ## Retired loops -/

/-- A loop has ended, or it is cancelled and does nothing but end. -/
def Instrument.Retired (i : Instrument τ) (k : Nat) : Prop :=
  ∃ l, i.loop? k = some l ∧ (l.isEnded = true ∨ l.cancelled = true)

/-- Nothing is queued, and no loop can send. -/
structure Instrument.IsStill (i : Instrument τ) : Prop where
  queue : i.queue = []
  loops : ∀ k < i.loops.length, i.Retired k

/-- Nothing was done in a move, and nothing taken out of the queue. -/
structure Move.IsQuiet (m : Move τ) : Prop where
  deeds : m.after.instrument.deeds = m.before.instrument.deeds
  queue : m.after.instrument.queue = m.before.instrument.queue

theorem Instrument.Retired.congr {i i' : Instrument τ} {k : Nat} (retired : i.Retired k)
    (loops : i'.loops = i.loops) : i'.Retired k := by
  obtain ⟨l, here, spent⟩ := retired
  refine ⟨l, ?_, spent⟩
  unfold loop? at here ⊢
  rwa [loops]

/-- A loop stays retired when a loop is replaced by another one, if that one is retired in case the
first one was. -/
theorem Instrument.Retired.set {i i' : Instrument τ} {k n : Nat} {old new : Loop τ}
    (retired : i.Retired k) (loops : i'.loops = i.loops.set n new) (here : i.loop? n = some old)
    (kept : old.isEnded = true ∨ old.cancelled = true →
      new.isEnded = true ∨ new.cancelled = true) : i'.Retired k := by
  obtain ⟨l, found, spent⟩ := retired
  unfold Instrument.Retired loop? at *
  rw [loops]
  rcases eq_or_ne k n with rfl | other
  · obtain rfl := Option.some.inj (found.symm.trans here)
    have inside := (List.getElem?_eq_some_iff.mp found).1
    exact ⟨new, List.getElem?_set_self inside, kept spent⟩
  · exact ⟨l, (List.getElem?_set_ne other.symm).trans found, spent⟩

variable [Quantity τ]

/-- **An action leaves retired loops retired.** -/
theorem retired_act {s : Stage τ} {k : Nat} (retired : s.instrument.Retired k) (n : Nat)
    (action : Action τ) : (s.act n action).1.instrument.Retired k := by
  by_cases cancels : action = .cancel
  · subst cancels
    have cancelling := Stage.cancelling_act n s
    generalize (s.act n .cancel).1 = s', (s.act n .cancel).2 = goes at cancelling
    cases cancelling with
    | idle current => exact retired
    | ended current ceased => exact retired.congr rfl
    | live current here going => exact retired.set rfl here fun _ => Or.inr rfl
  by_cases launches : action = .launch
  · subst launches
    obtain ⟨l, here, spent⟩ := retired
    have inside := (List.getElem?_eq_some_iff.mp here).1
    exact ⟨l, (List.getElem?_append_left inside).trans here, spent⟩
  exact retired.congr (Stage.loops_act cancels launches n s).1

/-- **A step leaves retired loops retired**, and one of a retired loop is quiet. -/
theorem retired_go? {s s' : Stage τ} {k n : Nat} (retired : s.instrument.Retired k)
    (gone : s.go? (.loop n) = some s') :
    s'.instrument.Retired k ∧ (k = n → Move.IsQuiet ⟨.loop n, none, s, s'⟩) := by
  obtain ⟨l, played, steps⟩ := Stage.exists_steps gone
  obtain ⟨phase, loops, ends, -⟩ := steps.loops
  have cancelled : l.isEnded = true ∨ l.cancelled = true → l.cancelled = true := by
    rintro (ended | cancelled)
    · rw [steps.going] at ended
      cases ended
    · exact cancelled
  refine ⟨retired.set loops steps.here fun spent => Or.inr (cancelled spent), ?_⟩
  rintro rfl
  obtain ⟨l', here, spent⟩ := retired
  obtain rfl := Option.some.inj (here.symm.trans steps.here)
  -- The loop that moves is cancelled, so it has played nothing.
  have silent := steps.silent (cancelled spent)
  obtain ⟨deeds, done, playedAt, -⟩ := steps.deeds
  have queue := steps.queue
  rw [silent] at playedAt queue
  cases playedAt
  exact ⟨done.trans (List.append_nil _), queue.symm⟩

namespace Stage

/-- The loops that were retired after some move are still retired, and have been quiet since. -/
def QuietSince (moves : List (Move τ)) (i : Instrument τ) : Prop :=
  ∀ p m q, moves = p ++ m :: q → ∀ k, m.after.instrument.Retired k →
    i.Retired k ∧ ∀ m' ∈ q, m'.party = .loop k → m'.IsQuiet

omit [Quantity τ] in
/-- One more move keeps the loops quiet if it leaves retired loops retired and is quiet in case it
is the step of one. -/
theorem QuietSince.snoc {moves : List (Move τ)} {m : Move τ}
    (quiet : QuietSince moves m.before.instrument)
    (kept : ∀ k, m.before.instrument.Retired k → m.after.instrument.Retired k ∧
      (m.party = .loop k → m.IsQuiet)) : QuietSince (moves ++ [m]) m.after.instrument := by
  intro p x q cut k retired
  rcases snoc_eq_cut cut with ⟨-, rfl, rfl⟩ | ⟨q, rfl, before⟩
  · exact ⟨retired, fun m' mem => absurd mem List.not_mem_nil⟩
  · obtain ⟨still, quiet⟩ := quiet p x q before k retired
    obtain ⟨after, last⟩ := kept k still
    refine ⟨after, fun m' mem => ?_⟩
    rcases List.mem_append.mp mem with earlier | now
    · exact quiet m' earlier
    · obtain rfl := List.mem_singleton.mp now
      exact last

theorem quietSince_keeps : Keeps (τ := τ) (fun moves i _ _ => QuietSince moves i)
    (fun _ moves i _ _ => QuietSince moves i) where
  begins _ quiet := quiet
  rests quiet _ := quiet
  acts {_ s _ n action _} quiet _ _ _ :=
    quiet.snoc (m := ⟨.caller n, some action, s, (s.act n action).1⟩) fun _ retired =>
      ⟨retired_act retired n action, nofun⟩
  steps {_ s s' n} quiet gone :=
    quiet.snoc (m := ⟨.loop n, none, s, s'⟩) fun _ retired =>
      ⟨(retired_go? retired gone).1, fun same =>
        (retired_go? retired gone).2 (Party.loop.inj same).symm⟩

/-- **Once it is retired, a loop is quiet**: it does nothing in the later moves of a run. -/
theorem quiet_since {s : Stage τ} {turns : List (Turn τ)} {p q : List (Move τ)} {m : Move τ}
    (cut : s.moves turns = p ++ m :: q) {k : Nat} (retired : m.after.instrument.Retired k) :
    ∀ m' ∈ q, m'.party = .loop k → m'.IsQuiet := by
  have start : QuietSince [] s.instrument := by
    intro p m q cut
    cases p <;> cases cut
  exact (moves_invariant quietSince_keeps start turns p m q cut k retired).2

/-- A loop that is retired on a stage is quiet in all moves of a run from there. -/
theorem quiet_of_retired {s : Stage τ} {k : Nat} (retired : s.instrument.Retired k)
    (turns : List (Turn τ)) : ∀ m ∈ s.moves turns, m.party = .loop k → m.IsQuiet := by
  -- Nothing is done in a first move, after which the stage is as it was.
  let pause : Move τ := ⟨.caller 0, none, s, s⟩
  have start : QuietSince [pause] s.instrument := by
    intro p m q cut k retired
    obtain ⟨-, rfl, rfl⟩ | ⟨q, -, cut⟩ := snoc_eq_cut (h := []) cut
    · exact ⟨retired, fun m' mem => absurd mem List.not_mem_nil⟩
    · cases p <;> cases cut
  exact (moves_invariant quietSince_keeps start turns [] pause _ rfl k retired).2

end Stage

/-! ## Guarded programs -/

omit [Quantity τ] in
/-- Of loops that are watched all are retired but the one that counts. -/
theorem Watched.retired {i : Instrument τ} {todo : Nat → Program τ} (watched : Watched i todo)
    {k : Nat} (inside : k < i.loops.length) (other : i.current ≠ some k) : i.Retired k := by
  have here : i.loop? k = some i.loops[k] := List.getElem?_eq_getElem inside
  rcases watched k i.loops[k] here with ended | ⟨-, counts⟩ | ⟨cancelled, -⟩
  · exact ⟨_, here, Or.inl ended⟩
  · exact absurd counts other
  · exact ⟨_, here, Or.inr cancelled⟩

/-- Whether a program launches and clears only right behind a cancelling, or right away if it is
`armed`. -/
def isGuarded : Bool → Program τ → Bool
  | _, [] => true
  | _, .cancel :: rest => isGuarded true rest
  | armed, .clear :: rest | armed, .launch :: rest => armed && isGuarded false rest
  | _, _ :: rest => isGuarded false rest

omit [Quantity τ] in
/-- Behind any other action a program has to be guarded anew. -/
theorem isGuarded_cons {action : Action τ} (notCancel : action ≠ .cancel)
    (notClear : action ≠ .clear) (notLaunch : action ≠ .launch) (armed : Bool)
    (rest : Program τ) : isGuarded armed (action :: rest) = isGuarded false rest := by
  cases action with
  | cancel => exact absurd rfl notCancel
  | clear => exact absurd rfl notClear
  | launch => exact absurd rfl notLaunch
  | _ => rfl

omit [Quantity τ] in
theorem isGuarded_of_isWhole {program : Program τ} (whole : IsWhole program) :
    isGuarded false program = true := by
  induction whole with
  | nil => rfl
  | plain plain whole ih =>
    rw [isGuarded_cons (by rintro rfl; cases plain) (by rintro rfl; cases plain)
      (by rintro rfl; cases plain)]
    exact ih
  | start whole ih | reset whole ih | close whole ih => exact ih

omit [Quantity τ] in
/-- What is salvaged of a guarded program is guarded. -/
theorem isGuarded_salvage {program : Program τ} {armed : Bool}
    (guarded : isGuarded armed program = true) : isGuarded false (salvage program) = true := by
  induction program generalizing armed with
  | nil => rfl
  | cons action rest ih =>
    cases action with
    | anyway => exact guarded
    | clear | launch => exact ih (Bool.and_eq_true_iff.mp guarded).2
    | _ => exact ih guarded

/-! ## The invariant -/

section Invariant

variable {s : Stage τ} {todo : Nat → Program τ} {n : Nat} {action : Action τ} {rest : Program τ}

/-- What holds between turns: loops are watched, all programs are guarded, and every clearing up to
now has left the instrument still. -/
def Retiring : Stage.Condition τ := fun moves i _ todo =>
  Watched i todo ∧ (∀ n, isGuarded false (todo n) = true) ∧
    ∀ m ∈ moves, m.action = some .clear → m.after.instrument.IsStill

/-- What holds while a caller runs: if it may launch or clear, no loop counts. -/
def RetiringAmid (n : Nat) : Stage.Condition τ := fun moves i _ todo =>
  Watched i todo ∧ (∀ k, k ≠ n → isGuarded false (todo k) = true) ∧
    (∃ armed, (armed = true → i.current = none) ∧ isGuarded armed (todo n) = true) ∧
    ∀ m ∈ moves, m.action = some .clear → m.after.instrument.IsStill

/-- What an action of a guarded program leaves behind. -/
structure Guards (n : Nat) (s : Stage τ) (action : Action τ) (todo : Nat → Program τ)
    (rest : Program τ) : Prop where
  watched : Watched (s.act n action).1.instrument
    (Function.update todo n ((s.act n action).2.program rest))
  guarded : ∃ armed, (armed = true → (s.act n action).1.instrument.current = none) ∧
    isGuarded armed ((s.act n action).2.program rest) = true
  still : action = .clear → (s.act n action).1.instrument.IsStill

theorem guards_cancel (watched : Watched s.instrument todo) (here : todo n = .cancel :: rest)
    (guarded : isGuarded true rest = true) : Guards n s .cancel todo rest := by
  have cancelling := Stage.cancelling_act n s
  refine ⟨watched.cancel here cancelling, ?_, nofun⟩
  generalize (s.act n .cancel).1 = s', (s.act n .cancel).2 = goes at cancelling
  cases cancelling with
  | idle current => exact ⟨true, fun _ => current, guarded⟩
  | ended current ceased => exact ⟨true, fun _ => rfl, guarded⟩
  | live current here going => exact ⟨false, nofun, guarded⟩

theorem guards_clear (watched : Watched s.instrument todo) (here : todo n = .clear :: rest)
    (idle : s.instrument.current = none) (guarded : isGuarded false rest = true) :
    Guards n s .clear todo rest := by
  obtain ⟨deeds, sent, -⟩ := sends_clear s.now s.instrument
  have still : (s.instrument.clear s.now).IsStill := by
    refine ⟨sent.queue, fun k inside => ?_⟩
    rw [sent.loops] at inside
    refine Retired.congr (watched.retired inside ?_) sent.loops
    rw [idle]
    nofun
  exact ⟨watched.update sent.loops sent.current here nofun, ⟨false, nofun, guarded⟩,
    fun _ => still⟩

theorem guards_launch (watched : Watched s.instrument todo) (here : todo n = .launch :: rest)
    (idle : s.instrument.current = none) (guarded : isGuarded false rest = true) :
    Guards n s .launch todo rest :=
  ⟨watched.launch idle s.now here, ⟨false, nofun, guarded⟩, nofun⟩

/-- What a caller goes on with is guarded if what was behind the action is. -/
theorem isGuarded_act (notCancel : action ≠ .cancel) (guarded : isGuarded false rest = true)
    (n : Nat) (s : Stage τ) : isGuarded false ((s.act n action).2.program rest) = true := by
  cases action with
  | cancel => exact absurd rfl notCancel
  | attend =>
    dsimp only [Stage.act]
    split
    · exact guarded
    · split <;> exact guarded
  | schedule note =>
    rcases Stage.program_act_schedule n s note rest with same | saved
    · rwa [same]
    · rw [saved]
      exact isGuarded_salvage guarded
  | _ => exact guarded

theorem guards_other (watched : Watched s.instrument todo) (here : todo n = action :: rest)
    (notCancel : action ≠ .cancel) (notClear : action ≠ .clear) (notLaunch : action ≠ .launch)
    (free : s.blocks action = false) (guarded : isGuarded false rest = true) :
    Guards n s action todo rest := by
  obtain ⟨loops, current⟩ := Stage.loops_act notCancel notLaunch n s
  refine ⟨watched.update loops current here fun k joins => ?_,
    ⟨false, nofun, isGuarded_act notCancel guarded n s⟩, fun clears => absurd clears notClear⟩
  -- Who waits for a loop goes on only if it has ended.
  subst joins
  exact (Bool.not_eq_false' _).mp free

/-- **Every action of a guarded program leaves it guarded**, and a clearing leaves the instrument
still. -/
theorem guards_act (watched : Watched s.instrument todo) {armed : Bool}
    (idle : armed = true → s.instrument.current = none)
    (guarded : isGuarded armed (todo n) = true) (here : todo n = action :: rest)
    (free : s.blocks action = false) : Guards n s action todo rest := by
  rw [here] at guarded
  by_cases cancels : action = .cancel
  · subst cancels
    exact guards_cancel watched here guarded
  by_cases clears : action = .clear
  · subst clears
    obtain ⟨isArmed, guarded⟩ := Bool.and_eq_true_iff.mp guarded
    exact guards_clear watched here (idle isArmed) guarded
  by_cases launches : action = .launch
  · subst launches
    obtain ⟨isArmed, guarded⟩ := Bool.and_eq_true_iff.mp guarded
    exact guards_launch watched here (idle isArmed) guarded
  rw [isGuarded_cons cancels clears launches] at guarded
  exact guards_other watched here cancels clears launches free guarded

end Invariant

omit [Quantity τ] in
/-- A caller that has to wait, or has nothing left to do, is guarded anew. -/
theorem isGuarded_of_stuck {s : Stage τ} {armed : Bool} {program : Program τ}
    (guarded : isGuarded armed program = true)
    (stuck : ∀ action rest, program = action :: rest → s.blocks action = true) :
    isGuarded false program = true := by
  cases program with
  | nil => rfl
  | cons action rest =>
    have waits := stuck action rest rfl
    cases action with
    | cancel | clear | launch => cases waits
    | _ => exact guarded

/-- **Every action and every step keeps all loops retired but the one that counts**, and programs
guarded. -/
theorem retiring_keeps : Stage.Keeps (τ := τ) Retiring RetiringAmid where
  begins n holds := by
    obtain ⟨watched, guarded, still⟩ := holds
    exact ⟨watched, fun k _ => guarded k, ⟨false, nofun, guarded n⟩, still⟩
  acts := by
    rintro h s todo n action rest ⟨watched, guarded, ⟨armed, idle, mine⟩, still⟩ - here free
    have guards := guards_act watched idle mine here free
    refine ⟨guards.watched, fun k other => ?_, ?_, List.forall_mem_append.mpr
      ⟨still, List.forall_mem_singleton.mpr fun clears => guards.still (Option.some.inj clears)⟩⟩
    · rw [Function.update_of_ne other]
      exact guarded k other
    · rw [Function.update_self]
      exact guards.guarded
  rests := by
    rintro h s todo n ⟨watched, guarded, ⟨armed, idle, mine⟩, still⟩ stuck
    refine ⟨watched, fun k => ?_, still⟩
    rcases eq_or_ne k n with rfl | other
    · exact isGuarded_of_stuck mine stuck
    · exact guarded k other
  steps := by
    rintro h s s' n ⟨watched, guarded, still⟩ gone
    obtain ⟨l, played, steps⟩ := Stage.exists_steps gone
    exact ⟨watched.steps steps, guarded, List.forall_mem_append.mpr
      ⟨still, List.forall_mem_singleton.mpr nofun⟩⟩

/-- Nobody has done anything yet: no loop is there, and every program is whole. -/
theorem retiring_of_whole {programs : List (Program τ)} (whole : ∀ p ∈ programs, IsWhole p)
    {i : Instrument τ} (fresh : i.IsFresh) (now : τ) :
    let s := Stage.staffed now i programs
    Retiring [] s.instrument s.holder s.todo := by
  intro s
  have watched : Watched s.instrument s.todo := by
    intro k l found
    change i.loops[k]? = some l at found
    rw [fresh.loops] at found
    cases found
  refine ⟨watched, fun n => ?_, fun m mem => absurd mem List.not_mem_nil⟩
  show isGuarded false ((Stage.staffed now i programs).todo n) = true
  rw [Stage.todo_staffed]
  cases here : programs[n]? with
  | none => rfl
  | some program => exact isGuarded_of_isWhole (whole program (List.mem_of_getElem? here))

theorem retiring_staffed (demands : List (List (Demand τ))) {i : Instrument τ} (fresh : i.IsFresh)
    (now : τ) :
    let s := Stage.staffed now i (demands.map Demand.program)
    Retiring [] s.instrument s.holder s.todo :=
  retiring_of_whole (List.forall_mem_map.mpr fun row _ => isWhole_program row) fresh now

/-- **At most one loop sends.**  Any number of callers schedule, start, reset and close a fresh
instrument by themselves, and any turns are taken.  Then every loop but the one that counts is
retired, and whatever turns follow, it does nothing in them; so there are no two loops that can
still send.  Whenever a reset is over, nothing is queued and all loops are retired, and those are
quiet from then on. -/
theorem one_loop_sends (demands : List (List (Demand τ))) {i : Instrument τ} (fresh : i.IsFresh)
    (now : τ) (turns : List (Turn τ)) :
    let s := Stage.staffed now i (demands.map Demand.program)
    let s' := s.run turns
    (∀ k < s'.instrument.loops.length, s'.instrument.current ≠ some k →
      s'.instrument.Retired k ∧ ∀ more, ∀ m ∈ s'.moves more, m.party = .loop k → m.IsQuiet) ∧
    (∀ j < s'.instrument.loops.length, ∀ k < s'.instrument.loops.length, ∀ more more' m m',
      m ∈ s'.moves more → m.party = .loop j → ¬ m.IsQuiet →
      m' ∈ s'.moves more' → m'.party = .loop k → ¬ m'.IsQuiet → j = k) ∧
    ∀ p m q, s.moves turns = p ++ m :: q → m.action = some .clear →
      m.after.instrument.IsStill ∧
        ∀ k < m.after.instrument.loops.length, ∀ m' ∈ q, m'.party = .loop k → m'.IsQuiet := by
  intro s s'
  obtain ⟨watched, -, still⟩ :=
    Stage.moves_invariant retiring_keeps (retiring_staffed demands fresh now) turns
  have quiet : ∀ k < s'.instrument.loops.length, s'.instrument.current ≠ some k →
      s'.instrument.Retired k ∧ ∀ more, ∀ m ∈ s'.moves more, m.party = .loop k → m.IsQuiet := by
    intro k inside other
    have retired := watched.retired inside other
    exact ⟨retired, Stage.quiet_of_retired retired⟩
  have counts : ∀ k < s'.instrument.loops.length, ∀ more, ∀ m ∈ s'.moves more,
      m.party = .loop k → ¬ m.IsQuiet → s'.instrument.current = some k := by
    intro k inside more m mem party loud
    by_contra other
    exact loud ((quiet k inside other).2 more m mem party)
  refine ⟨quiet, fun j insideJ k insideK more more' m m' mem party loud mem' party' loud' => ?_,
    fun p m q cut clears => ?_⟩
  · have first := counts j insideJ more m mem party loud
    have second := counts k insideK more' m' mem' party' loud'
    exact Option.some.inj (first.symm.trans second)
  · have isStill : m.after.instrument.IsStill := by
      refine still m ?_ clears
      show m ∈ s.moves turns
      rw [cut]
      exact List.mem_append_right p List.mem_cons_self
    exact ⟨isStill, fun k inside => Stage.quiet_since cut (isStill.loops k inside)⟩

/-- Whether an action empties the queue. -/
def Action.isClear : Action τ → Bool
  | .clear => true
  | _ => false

/-- A reset waits for the first loop of the quarrel when another caller launches a second one: from
there on the first one is quiet, though it has not ended, and the reset leaves the instrument still
in the end. -/
theorem one_loop_sends_quarrel :
    let s := Stage.staffed 0 justOpened (quarrel.map Demand.program)
    let s' := s.run (interleaved.take 4)
    (justOpened.IsFresh ∧ s'.instrument.loops.length = 2 ∧ s'.instrument.current = some 1 ∧
      s'.instrument.loopEnded 0 = false) ∧
    (∀ more, ∀ m ∈ s'.moves more, m.party = .loop 0 → m.IsQuiet) ∧
    ∃ p m q, s.moves interleaved = p ++ m :: q ∧ m.action = some .clear ∧
      m.after.instrument.IsStill := by
  intro s s'
  have two : s'.instrument.loops.length = 2 := by decide +kernel
  have counts : s'.instrument.current = some 1 := by decide +kernel
  have going : s'.instrument.loopEnded 0 = false := by decide +kernel
  have fresh : justOpened.IsFresh := isNew_justOpened.toIsFresh
  refine ⟨⟨fresh, two, counts, going⟩, ?_, ?_⟩
  · obtain ⟨quiet, -⟩ := one_loop_sends quarrel fresh 0 (interleaved.take 4)
    refine (quiet 0 (by rw [two]; decide) ?_).2
    rw [counts]
    nofun
  · have someClears : (s.moves interleaved).any (·.action.any Action.isClear) = true := by
      decide +kernel
    obtain ⟨m, mem, isClear⟩ := List.any_eq_true.mp someClears
    have clears : m.action = some .clear := by
      cases done : m.action with
      | none =>
        rw [done] at isClear
        cases isClear
      | some action =>
        rw [done] at isClear
        cases action with
        | clear => rfl
        | _ => cases isClear
    obtain ⟨p, q, cut⟩ := List.append_of_mem mem
    have still := (one_loop_sends quarrel fresh 0 interleaved).2.2 p m q cut clears
    exact ⟨p, m, q, cut, clears, still.1⟩

end Keysong
