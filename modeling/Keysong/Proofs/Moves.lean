import Keysong.Proofs.Turns
import Mathlib.Logic.Function.Basic

/-!
# The moves of a run

A run is taken apart action by action, finer than its turns.  Between two turns anybody may go
next; but while a caller runs, nobody else does, and it stops only at an action before which it has
to wait.  So what is kept by a run may be less strict amid a turn than between turns.

## Main Definitions

* `Move` — an action of a caller or a step of a loop, with the stages before and after it
* `Stage.staffed` — a stage with one caller for each program
* `Stage.moves` — the moves of a run, in order
* `Stage.Keeps` — a condition that holds between turns, with the one that holds while a caller runs

## Main Statements

* `moves_invariant` — such a condition holds along a run

### What a caller still has to do

While a caller runs, the stage still holds the program with which it was woken.  Conditions are
therefore about the programs as they are after each action, a function of the number of the caller;
only those of the others can be read off the stage.
-/

namespace Keysong

open Instrument

variable {τ : Type}

/-- An action of a caller or a step of a loop, with the stages before and after it. -/
structure Move (τ : Type) where
  party : Party
  /-- The action of a caller; a loop has none. -/
  action : Option (Action τ)
  before : Stage τ
  after : Stage τ

/-- Where a row with one more at its end can be cut. -/
theorem snoc_eq_cut {α : Type} {h : List α} {m x : α} {p q : List α}
    (cut : h ++ [m] = p ++ x :: q) :
    (p = h ∧ x = m ∧ q = []) ∨ ∃ q', q = q' ++ [m] ∧ h = p ++ x :: q' := by
  rcases List.eq_nil_or_concat q with rfl | ⟨q', y, same⟩
  · obtain ⟨front, last⟩ := List.append_inj' cut rfl
    exact Or.inl ⟨front.symm, (List.singleton_inj.mp last).symm, rfl⟩
  · rw [List.concat_eq_append] at same
    subst same
    have cut' : h ++ [m] = (p ++ x :: q') ++ [y] := by
      rw [cut, List.append_assoc, List.cons_append]
    obtain ⟨front, last⟩ := List.append_inj' cut' rfl
    obtain rfl := List.singleton_inj.mp last
    exact Or.inr ⟨q', rfl, front⟩

namespace Stage

/-- What each caller has to do. -/
def todo (s : Stage τ) (n : Nat) : Program τ :=
  match s.callers[n]? with
  | none => []
  | some c => c.todo

/-- A stage with one caller for each program. -/
def staffed [Quantity τ] (now : τ) (i : Instrument τ) (programs : List (Program τ)) :
    Stage τ :=
  { idle now i with callers := programs.map fun todo => ⟨todo, none⟩ }

theorem todo_staffed [Quantity τ] (now : τ) (i : Instrument τ) (programs : List (Program τ))
    (n : Nat) : (staffed now i programs).todo n = (programs[n]?).getD [] := by
  show (match (programs.map fun todo => (⟨todo, none⟩ : Caller τ))[n]? with
    | none => []
    | some c => c.todo) = _
  rw [List.getElem?_map]
  cases programs[n]? with
  | none => rfl
  | some program => rfl

variable [Quantity τ]

/-- The moves of a caller that runs as far as it gets; if it has given up, the first of them is
behind the first mark. -/
def movesFrom (n : Nat) : Bool → Program τ → Stage τ → List (Move τ)
  | _, [], _ => []
  | true, action :: rest, s =>
    match action with
    | .anyway => movesFrom n false rest s
    | _ => movesFrom n true rest s
  | false, action :: rest, s =>
    if s.blocks action then []
    else
      match s.act n action with
      | (s', .onward) => ⟨.caller n, some action, s, s'⟩ :: movesFrom n false rest s'
      | (s', .waits _) => [⟨.caller n, some action, s, s'⟩]
      | (s', .gaveUp _) => ⟨.caller n, some action, s, s'⟩ :: movesFrom n true rest s'

/-- The moves of a caller that has not given up. -/
def callerMoves (n : Nat) (program : Program τ) (s : Stage τ) : List (Move τ) :=
  movesFrom n false program s

theorem movesFrom_true (n : Nat) (program : Program τ) (s : Stage τ) :
    movesFrom n true program s = callerMoves n (salvage program) s := by
  induction program with
  | nil => rfl
  | cons action rest ih =>
    cases action with
    | anyway => rfl
    | _ => exact ih

theorem callerMoves_blocked {s : Stage τ} {action : Action τ} (waits : s.blocks action = true)
    (n : Nat) (rest : Program τ) : callerMoves n (action :: rest) s = [] := by
  unfold callerMoves movesFrom
  rw [if_pos waits]

theorem callerMoves_cons {s : Stage τ} {action : Action τ} (free : s.blocks action = false)
    (n : Nat) (rest : Program τ) :
    callerMoves n (action :: rest) s = ⟨.caller n, some action, s, (s.act n action).1⟩ ::
      match s.act n action with
      | (s', .onward) => callerMoves n rest s'
      | (_, .waits _) => []
      | (s', .gaveUp _) => callerMoves n (salvage rest) s' := by
  rw [callerMoves, movesFrom, free, if_neg Bool.false_ne_true]
  cases s.act n action with
  | mk s' goes =>
    cases goes with
    | onward => rfl
    | waits first => rfl
    | gaveUp fault => exact congrArg _ (movesFrom_true n rest s')

/-- The moves of a turn. -/
def movesOf (s : Stage τ) : Turn τ → List (Move τ)
  | .clock _ => []
  | .of (.caller n) =>
    match s.callers[n]? with
    | none => []
    | some c => callerMoves n c.todo s
  | .of (.loop n) =>
    match s.go? (.loop n) with
    | none => []
    | some s' => [⟨.loop n, none, s, s'⟩]

/-- The moves of a run. -/
def moves (s : Stage τ) : List (Turn τ) → List (Move τ)
  | [] => []
  | t :: rest => s.movesOf t ++ ((s.turn? t).getD s).moves rest

/-! ## Waiting -/

/-- Whoever has something to wait for waits for it at once. -/
theorem blocks_of_waits {n : Nat} {s s' : Stage τ} {action : Action τ} {first : Program τ}
    (did : s.act n action = (s', .waits first)) :
    ∃ head others, first = head :: others ∧ s'.blocks head = true := by
  cases action with
  | cancel =>
    have cancelling := cancelling_act n s
    rw [did] at cancelling
    cases cancelling with
    | @live k l current here going =>
      refine ⟨.join k, [.cancel], rfl, ?_⟩
      -- The loop is cancelled, but it has not gone since.
      obtain ⟨inside, -⟩ := List.getElem?_eq_some_iff.mp here
      unfold blocks loopEnded
      dsimp only [setLoop, loop?]
      rw [List.getElem?_set_self inside]
      exact (Bool.not_eq_true' _).mpr going
  | attend =>
    dsimp only [act] at did
    cases current : s.instrument.current with
    | none =>
      rw [current] at did
      cases did
    | some l =>
      rw [current] at did
      dsimp only at did
      split at did
      · cases did
      · rename_i going
        obtain ⟨rfl, waits⟩ := Prod.mk.inj did
        obtain rfl := Next.waits.inj waits
        exact ⟨.linger l, [], rfl, by simpa [blocks] using going⟩
  | schedule note =>
    dsimp only [act] at did
    split at did
    · cases did
    · cases did
  | _ => cases did

/-- A caller that runs a program to its end goes on with what stands behind it. -/
theorem runCaller_append {n : Nat} {p : Program τ} {s s' : Stage τ}
    (ran : runCaller n p s = (s', ⟨[], none⟩)) (q : Program τ) :
    runCaller n (p ++ q) s = runCaller n q s' := by
  induction p generalizing s with
  | nil =>
    obtain ⟨rfl, -⟩ := Prod.mk.inj ran
    rfl
  | cons action rest ih =>
    cases free : s.blocks action with
    | true =>
      rw [runCaller_blocked free] at ran
      cases ran
    | false =>
      rw [runCaller_cons free] at ran
      rw [List.cons_append, runCaller_cons free]
      cases did : s.act n action with
      | mk s'' goes =>
        rw [did] at ran
        cases goes with
        | onward => exact ih ran
        | waits first =>
          obtain ⟨head, others, rfl, -⟩ := blocks_of_waits did
          cases ran
        | gaveUp fault =>
          have silent := congrArg (fun gone => gone.2.fault) ran
          exact nomatch (Option.or_eq_none_iff.mp silent).2

/-! ## What a run keeps -/

omit [Quantity τ] in
theorem todo_set {s : Stage τ} {n : Nat} {c : Caller τ} (here : s.callers[n]? = some c)
    (c' : Caller τ) : todo { s with callers := s.callers.set n c' } =
      Function.update s.todo n c'.todo := by
  obtain ⟨inside, -⟩ := List.getElem?_eq_some_iff.mp here
  funext k
  unfold todo
  dsimp only
  rcases eq_or_ne k n with rfl | other
  · rw [List.getElem?_set_self inside, Function.update_self]
  · rw [List.getElem?_set_ne other.symm, Function.update_of_ne other]

theorem todo_act (n : Nat) (s : Stage τ) (action : Action τ) :
    (s.act n action).1.todo = s.todo := by
  funext k
  unfold todo
  rw [callers_act]

/-- What is said of a run: of its moves, of the instrument, of who holds the lock, and of what
each caller still has to do. -/
abbrev Condition (τ : Type) : Type :=
  List (Move τ) → Instrument τ → Option Nat → (Nat → Program τ) → Prop

/-- A condition that holds between turns, and those that hold while a caller runs. -/
structure Keeps (between : Condition τ) (amid : Nat → Condition τ) : Prop where
  begins : ∀ {h i holder todo} n, between h i holder todo → amid n h i holder todo
  acts : ∀ {h} {s : Stage τ} {todo n action rest}, amid n h s.instrument s.holder todo →
    (∀ k, k ≠ n → s.todo k = todo k) → todo n = action :: rest → s.blocks action = false →
    amid n (h ++ [⟨.caller n, some action, s, (s.act n action).1⟩])
      (s.act n action).1.instrument (s.act n action).1.holder
      (Function.update todo n ((s.act n action).2.program rest))
  /-- A caller stops where it has to wait, and where nothing is left. -/
  rests : ∀ {h} {s : Stage τ} {todo n}, amid n h s.instrument s.holder todo →
    (∀ action rest, todo n = action :: rest → s.blocks action = true) →
    between h s.instrument s.holder todo
  steps : ∀ {h} {s s' : Stage τ} {n}, between h s.instrument s.holder s.todo →
    s.go? (.loop n) = some s' →
    between (h ++ [⟨.loop n, none, s, s'⟩]) s'.instrument s'.holder s.todo

section Invariant

variable {between : Condition τ} {amid : Nat → Condition τ}

/-- Along the actions of a caller its condition holds, up to where it stops. -/
theorem runCaller_keeps (keeps : Keeps between amid) {n : Nat} {program : Program τ}
    {h : List (Move τ)} {s : Stage τ} {todo : Nat → Program τ}
    (holds : amid n h s.instrument s.holder todo) (others : ∀ k, k ≠ n → s.todo k = todo k)
    (here : todo n = program) :
    between (h ++ callerMoves n program s) (runCaller n program s).1.instrument
      (runCaller n program s).1.holder (Function.update todo n (runCaller n program s).2.todo) := by
  -- `todo` is updated with every action, and the updates of one caller fall together.
  induction program using salvage_induction generalizing h s todo with
  | nil =>
    have same : Function.update todo n [] = todo := by rw [← here, Function.update_eq_self]
    show between (h ++ []) s.instrument s.holder (Function.update todo n [])
    rw [List.append_nil, same]
    exact keeps.rests holds fun action rest more => nomatch here.symm.trans more
  | cons action rest ih saves =>
    cases free : s.blocks action with
    | true =>
      have same : Function.update todo n (action :: rest) = todo := by
        rw [← here, Function.update_eq_self]
      rw [runCaller_blocked free, callerMoves_blocked free, List.append_nil, same]
      refine keeps.rests holds fun action' rest' more => ?_
      obtain ⟨rfl, -⟩ := List.cons.inj (here.symm.trans more)
      exact free
    | false =>
      have next := keeps.acts holds others here free
      have others' := todo_act n s action
      rw [runCaller_cons free, callerMoves_cons free]
      cases did : s.act n action with
      | mk s' goes =>
        rw [did] at next others'
        have others'' : ∀ more k, k ≠ n → s'.todo k = Function.update todo n more k :=
          fun more k other => by rw [others', others k other, Function.update_of_ne other]
        cases goes with
        | onward =>
          have later := ih next (others'' rest) (Function.update_self n rest todo)
          rw [Function.update_idem, List.append_assoc] at later
          exact later
        | gaveUp fault =>
          have later := saves next (others'' _) (Function.update_self n (salvage rest) todo)
          rw [Function.update_idem, List.append_assoc] at later
          exact later
        | waits first =>
          obtain ⟨head, tail, rfl, blocked⟩ := blocks_of_waits did
          refine keeps.rests next fun action' rest' more => ?_
          rw [Function.update_self] at more
          obtain ⟨rfl, -⟩ := List.cons.inj more
          exact blocked

/-- A turn that is possible keeps the condition. -/
theorem turn_keeps (keeps : Keeps between amid) {h : List (Move τ)} {s s' : Stage τ} {t : Turn τ}
    (holds : between h s.instrument s.holder s.todo) (gone : s.turn? t = some s') :
    between (h ++ s.movesOf t) s'.instrument s'.holder s'.todo := by
  cases t with
  | clock time =>
    obtain rfl := eq_of_clock gone
    rw [movesOf, List.append_nil]
    exact holds
  | of party =>
    cases party with
    | loop n =>
      have gone : s.go? (.loop n) = some s' := gone
      have after := keeps.steps holds gone
      obtain ⟨l, here, ready, same⟩ := go?_loop gone
      have todo' : s'.todo = s.todo := by rw [same]; rfl
      unfold movesOf
      dsimp only
      rw [gone, todo']
      exact after
    | caller n =>
      obtain ⟨c, here, rfl⟩ := go?_caller gone
      have here' : s.todo n = c.todo := by
        unfold todo
        rw [here]
      have after := runCaller_keeps keeps (keeps.begins n holds) (fun _ _ => rfl) here'
      unfold movesOf
      dsimp only
      rw [here]
      have same : (runCaller n c.todo s).1.callers[n]? = some c := by
        rw [callers_runCaller, here]
      have todo' := todo_set same ((runCaller n c.todo s).2.resume c.fault)
      have others : (runCaller n c.todo s).1.todo = s.todo := by
        funext k
        unfold todo
        rw [callers_runCaller]
      rw [todo', others]
      exact after

/-- Who has to wait has no move. -/
theorem callerMoves_of_waits {s : Stage τ} {c : Caller τ} (waits : s.callerReady c = false)
    (n : Nat) : callerMoves n c.todo s = [] := by
  unfold callerReady at waits
  cases left : c.todo with
  | nil => rfl
  | cons action rest =>
    rw [left] at waits
    have blocked : s.blocks action = true := by simpa using waits
    exact callerMoves_blocked blocked n rest

/-- A turn that is not possible has no move. -/
theorem movesOf_of_none {s : Stage τ} {t : Turn τ} (stuck : s.turn? t = none) :
    s.movesOf t = [] := by
  cases t with
  | clock time => rfl
  | of party =>
    cases party with
    | loop n =>
      have stuck : s.go? (.loop n) = none := stuck
      unfold movesOf
      dsimp only
      rw [stuck]
    | caller n =>
      have stuck : s.go? (.caller n) = none := stuck
      unfold go? at stuck
      unfold movesOf
      dsimp only at stuck ⊢
      cases here : s.callers[n]? with
      | none => rfl
      | some c =>
        rw [here] at stuck
        dsimp only at stuck ⊢
        cases ready : s.callerReady c with
        | false => exact callerMoves_of_waits ready n
        | true =>
          rw [ready, if_pos rfl] at stuck
          cases stuck

/-- **What every action and every step keeps holds along a run.** -/
theorem moves_invariant (keeps : Keeps between amid) {h : List (Move τ)} {s : Stage τ}
    (start : between h s.instrument s.holder s.todo) (turns : List (Turn τ)) :
    between (h ++ s.moves turns) (s.run turns).instrument (s.run turns).holder
      (s.run turns).todo := by
  induction turns generalizing h s with
  | nil =>
    rw [moves, List.append_nil]
    exact start
  | cons t rest ih =>
    rw [moves, ← List.append_assoc]
    refine ih ?_
    cases possible : s.turn? t with
    | none =>
      rw [movesOf_of_none possible, List.append_nil]
      exact start
    | some s' => exact turn_keeps keeps start possible

end Invariant

end Stage

end Keysong
