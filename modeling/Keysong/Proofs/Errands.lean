import Keysong.Proofs.Returning

/-!
# Errands on one instrument

People come to one instrument on all kinds of errands: they drive it by themselves, or have
sessions, or wait until the music is over.  Whatever they have done so far and wherever they stand,
the lock can always be given back, and whoever does not wait for music can always come to an end.

## Main Definitions

* `Errand` — what somebody comes to an instrument for
* `IsPaired` — a program takes the lock and gives it back in turn
* `Courteous` — the invariant: who holds the lock will give it back, and whoever waits for a
  cancelled loop waits for one that is retired
* `Stage.ran` — a stage once a caller has run a program as far as it gets
* `Outside` — what it means that a caller has got out of its session

## Main Statements

* `courteous_keeps` — every action and every step keeps callers courteous
* `exists_outside` — some turns lead whoever has the lock out of its session
* `exists_through` — some turns lead whoever does not wait for music to the end

### Why a session does not get stuck

Inside a session a caller waits for one thing only, a loop that it has cancelled.  That loop is
retired, so it ends when it is woken, and this can be done while nobody else moves.  Music that
others play may go on for long, but nobody waits for music with the lock in hand.
-/

namespace Keysong

open Instrument

variable {τ : Type}

/-! ## Errands -/

/-- What somebody comes to an instrument for. -/
inductive Errand (τ : Type) where
  /-- To drive it without the lock. -/
  | direct (demand : Demand τ)
  | session (request : Request τ)
  /-- To wait until everything is played. -/
  | attend

/-- Whether an action waits for the music to end. -/
def Action.isPatient : Action τ → Bool
  | .attend | .linger _ => true
  | _ => false

/-- Whether an action has nothing to do with the lock, does not wait for the music to end, and is no
mark. -/
def Action.isBrisk : Action τ → Bool
  | .acquire | .release | .attend | .linger _ | .anyway => false
  | _ => true

/-- A program takes the lock and gives it back in turn, and waits for no music in between; it starts
`inside` a session or outside.  Whoever gives up does nothing more. -/
inductive IsPaired : Bool → Program τ → Prop where
  | nil : IsPaired false []
  | acquire {rest : Program τ} (paired : IsPaired true rest) : IsPaired false (.acquire :: rest)
  | release {rest : Program τ} (paired : IsPaired false rest) : IsPaired true (.release :: rest)
  | patient {action : Action τ} {rest : Program τ} (patient : action.isPatient = true)
    (paired : IsPaired false rest) : IsPaired false (action :: rest)
  | brisk {inside : Bool} {action : Action τ} {rest : Program τ} (brisk : action.isBrisk = true)
    (paired : IsPaired inside rest) : IsPaired inside (action :: rest)

theorem IsPaired.append {inside : Bool} {p q : Program τ} (paired : IsPaired inside p)
    (others : IsPaired false q) : IsPaired inside (p ++ q) := by
  induction paired with
  | nil => exact others
  | acquire paired ih => exact .acquire ih
  | release paired ih => exact .release ih
  | patient patient paired ih => exact .patient patient ih
  | brisk brisk paired ih => exact .brisk brisk ih

/-- Behind any action a program is still paired, from inside a session or from outside. -/
theorem IsPaired.tail {inside : Bool} {action : Action τ} {rest : Program τ}
    (paired : IsPaired inside (action :: rest)) : ∃ inside', IsPaired inside' rest := by
  cases paired with
  | acquire paired | release paired => exact ⟨_, paired⟩
  | patient _ paired | brisk _ paired => exact ⟨_, paired⟩

/-- Nothing is salvaged of a paired program. -/
theorem IsPaired.salvage_eq_nil {inside : Bool} {program : Program τ}
    (paired : IsPaired inside program) : salvage program = [] := by
  induction paired with
  | nil => rfl
  | acquire paired ih | release paired ih => exact ih
  | @patient action rest patient paired ih =>
    cases action with
    | anyway => cases patient
    | _ => exact ih
  | @brisk inside action rest brisk paired ih =>
    cases action with
    | anyway => cases brisk
    | _ => exact ih

theorem IsWhole.append {p q : Program τ} (whole : IsWhole p) (others : IsWhole q) :
    IsWhole (p ++ q) := by
  induction whole with
  | nil => exact others
  | plain plain whole ih => exact .plain plain ih
  | start whole ih => exact .start ih
  | reset whole ih => exact .reset ih
  | close whole ih => exact .close ih

namespace Errand

/-- The actions of an errand. -/
def actions : Errand τ → Program τ
  | direct demand => demand.actions
  | session request => request.program
  | attend => [.attend]

/-- The actions of a row of errands, one after the other. -/
def program (errands : List (Errand τ)) : Program τ := errands.flatMap actions

theorem isWhole_actions (errand : Errand τ) : IsWhole errand.actions := by
  cases errand with
  | session r => exact isWhole_request r
  | attend => exact .plain rfl .nil
  | direct demand =>
    have whole := isWhole_program [demand]
    rwa [Demand.program, List.flatMap_singleton] at whole

theorem isWhole_program (errands : List (Errand τ)) : IsWhole (program errands) := by
  induction errands with
  | nil => exact .nil
  | cons errand errands ih => exact (isWhole_actions errand).append ih

end Errand

/-! ## Courteous callers -/

variable [Quantity τ]

section Acting

variable {s : Stage τ} {n : Nat} {action : Action τ} {rest : Program τ}

omit [Quantity τ] in
/-- Who gives up leaves its session, if it was inside of one. -/
theorem holder_unlock (s : Stage τ) (n k : Nat) :
    (s.unlock n).holder = some k ↔ k ≠ n ∧ s.holder = some k := by
  unfold Stage.unlock
  split
  · rename_i held
    rw [held]
    simp [eq_comm]
  · rename_i free
    constructor
    · intro held
      refine ⟨?_, held⟩
      rintro rfl
      exact free held
    · exact And.right

/-- An action goes on with a paired program, and changes nothing about whether others hold the
lock. -/
theorem paired_act {inside : Bool} (paired : IsPaired inside (action :: rest))
    (mine : inside = true ↔ s.holder = some n) (free : s.blocks action = false) :
    (∃ inside', IsPaired inside' ((s.act n action).2.program rest) ∧
        (inside' = true ↔ (s.act n action).1.holder = some n)) ∧
      ∀ k, k ≠ n → ((s.act n action).1.holder = some k ↔ s.holder = some k) := by
  cases paired with
  | acquire paired =>
    have nobody : s.holder = none := by simpa [Stage.blocks] using free
    refine ⟨⟨true, paired, by simp [Stage.act]⟩, ?_⟩
    intro k other
    simp [Stage.act, nobody, other.symm]
  | release paired =>
    refine ⟨⟨false, paired, by simp [Stage.act, holder_unlock]⟩, ?_⟩
    intro k other
    simp [Stage.act, holder_unlock, other]
  | patient patient paired =>
    cases action with
    | linger l => exact ⟨⟨false, paired, mine⟩, fun k _ => Iff.rfl⟩
    | attend =>
      dsimp only [Stage.act]
      split
      · exact ⟨⟨false, paired, mine⟩, fun k _ => Iff.rfl⟩
      · split
        · exact ⟨⟨false, paired, mine⟩, fun k _ => Iff.rfl⟩
        · exact ⟨⟨false, .patient rfl paired, mine⟩, fun k _ => Iff.rfl⟩
    | _ => cases patient
  | brisk brisk paired =>
    cases action with
    | acquire | release | attend | linger | anyway => cases brisk
    | schedule note =>
      cases scheduled : s.instrument.schedule note with
      | ok i =>
        rw [Stage.act_schedule_ok scheduled]
        exact ⟨⟨inside, paired, mine⟩, fun k _ => Iff.rfl⟩
      | error fault =>
        rw [Stage.act_schedule_error scheduled]
        refine ⟨⟨false, ?_, by simp [holder_unlock]⟩, ?_⟩
        · rw [Stage.Next.program, paired.salvage_eq_nil]
          exact .nil
        · intro k other
          simp [holder_unlock, other]
    | cancel =>
      obtain ⟨s', goes, did, cancelling⟩ := Stage.exists_cancelling n s
      rw [did]
      cases cancelling with
      | idle current => exact ⟨⟨inside, paired, mine⟩, fun k _ => Iff.rfl⟩
      | ended current ceased => exact ⟨⟨inside, paired, mine⟩, fun k _ => Iff.rfl⟩
      | live current here going =>
        exact ⟨⟨inside, .brisk rfl (.brisk rfl paired), mine⟩, fun k _ => Iff.rfl⟩
    | _ => exact ⟨⟨inside, paired, mine⟩, fun k _ => Iff.rfl⟩

/-- What a caller has to wait for, when it waits for a loop that it has cancelled or for music. -/
theorem waits_act {s' : Stage τ} {first : Program τ} (did : s.act n action = (s', .waits first)) :
    (∃ k, action = .cancel ∧ first = [.join k, .cancel] ∧ s'.instrument.current = none ∧
        s'.instrument.Retired k) ∨
      ∃ k, action = .attend ∧ first = [.linger k] := by
  cases action with
  | cancel =>
    have cancelling := Stage.cancelling_act n s
    rw [did] at cancelling
    cases cancelling with
    | @live k l current here going =>
      obtain ⟨inside, -⟩ := List.getElem?_eq_some_iff.mp here
      exact Or.inl ⟨k, rfl, rfl, rfl, _, List.getElem?_set_self inside, Or.inr rfl⟩
  | attend =>
    dsimp only [Stage.act] at did
    split at did
    · cases did
    · split at did
      · cases did
      · obtain ⟨-, waits⟩ := Prod.mk.inj did
        exact Or.inr ⟨_, rfl, (Stage.Next.waits.inj waits).symm⟩
  | schedule note =>
    dsimp only [Stage.act] at did
    split at did
    · cases did
    · cases did
  | _ => cases did

/-- Whoever comes to wait for a loop that it has cancelled waits for one that is retired. -/
theorem retired_of_join {k : Nat} (mem : .join k ∈ (s.act n action).2.program rest) :
    .join k ∈ rest ∨ (s.act n action).1.instrument.Retired k := by
  cases did : s.act n action with
  | mk s' goes =>
    rw [did] at mem
    cases goes with
    | onward => exact Or.inl mem
    | gaveUp fault => exact Or.inl ((salvage_suffix rest).subset mem)
    | waits first =>
      rcases waits_act did with ⟨l, -, rfl, -, retired⟩ | ⟨l, -, rfl⟩
      · simp only [Stage.Next.program, List.cons_append, List.nil_append, List.mem_cons,
          Action.join.injEq, reduceCtorEq, false_or] at mem
        rcases mem with rfl | later
        · exact Or.inr retired
        · exact Or.inl later
      · simp only [Stage.Next.program, List.cons_append, List.nil_append, List.mem_cons,
          reduceCtorEq, false_or] at mem
        exact Or.inl mem

end Acting

namespace Stage

/-- The stage once a caller has run a program as far as it gets; it may have given up before. -/
def ran (n : Nat) (before : Option Fault) (program : Program τ) (s : Stage τ) : Stage τ :=
  { (runCaller n program s).1 with
    callers := s.callers.set n ((runCaller n program s).2.resume before) }

/-- A caller has got out of its session, while the others stood still; if it does not wait for
music, it has come to the end. -/
structure Outside (n : Nat) (program : Program τ) (s s' : Stage τ) : Prop where
  free : s'.holder = none
  others : ∀ k, k ≠ n → s'.todo k = s.todo k
  done : (∀ action ∈ program, action.isPatient = false) → s'.todo n = []

section Leaving

variable {s s' : Stage τ} {n k : Nat} {c : Caller τ} {before : Option Fault} {action : Action τ}
  {rest : Program τ}

/-- What a caller needs to get out of its session: its program is paired, nobody else has the lock,
and it waits for no loop but retired ones. -/
structure CanLeave (n : Nat) (program : Program τ) (s : Stage τ) : Prop where
  paired : ∃ inside, IsPaired inside program ∧ (inside = true ↔ s.holder = some n)
  alone : ∀ k, k ≠ n → s.holder ≠ some k
  joins : ∀ k, .join k ∈ program → s.instrument.Retired k

omit [Quantity τ] in
/-- Whoever is not inside of a session finds the lock free. -/
theorem CanLeave.holder_eq_none {program : Program τ} (can : CanLeave n program s)
    (outside : ¬ IsPaired true program) : s.holder = none := by
  obtain ⟨inside, paired, mine⟩ := can.paired
  cases held : s.holder with
  | none => rfl
  | some k =>
    rcases eq_or_ne k n with rfl | other
    · rw [mine.mpr held] at paired
      exact absurd paired outside
    · exact absurd held (can.alone k other)

/-- An action leaves its caller able to get out. -/
theorem CanLeave.act (can : CanLeave n (action :: rest) s) (free : s.blocks action = false) :
    CanLeave n ((s.act n action).2.program rest) (s.act n action).1 := by
  obtain ⟨inside, paired, mine⟩ := can.paired
  obtain ⟨mine', others⟩ := paired_act paired mine free
  refine ⟨mine', ?_, ?_⟩
  · intro k other held
    exact can.alone k other ((others k other).mp held)
  · intro k mem
    rcases retired_of_join mem with later | retired
    · exact retired_act (can.joins k (List.mem_cons_of_mem _ later)) n action
    · exact retired

omit [Quantity τ] in
/-- A way out from behind an action is one from before it. -/
theorem Outside.cons {x : Stage τ} (outside : Outside n rest s' x)
    (callers : s'.callers = s.callers) : Outside n (action :: rest) s x where
  free := outside.free
  others k other := by
    rw [outside.others k other]
    unfold todo
    rw [callers]
  done music := outside.done fun a mem => music a (List.mem_cons_of_mem action mem)

end Leaving

end Stage

end Keysong
