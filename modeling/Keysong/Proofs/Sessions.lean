import Keysong.Proofs.History

/-!
# Sessions are kept apart

Any number of callers play or stop on one instrument, in any order of turns with each other and
with the loops of the instrument.  Their sessions are serialised all the same: the calls of one are
never mixed with those of another, what is queued belongs to the last one that reset the
instrument, and once a session has begun nothing of an earlier one is played any more.

## Main Definitions

* `Request` — a call to play or to stop
* `Serialised` — what it means that the sessions of a history are serialised
* `Place`, `Stands`, `Goes` — where a caller stands in its session, and how it gets on
* `InTurn` — the invariant

## Main Statements

* `inTurn_action`, `inTurn_step` — an action of a caller and a step of a loop keep the invariant
* `sessions_serialised` — the history of every run is serialised

### The invariant

The lock gives the callers an order.  Two more facts are needed for the loops: a loop that does not
count any more is cancelled or has ended, and from the first action of a reset until the launch no
loop counts.  So whatever is played then comes from a loop that was launched after the last reset,
and finds only the signals that were put into the queue since.
-/

namespace Keysong

open Quantity Instrument

variable {τ : Type}

/-! ## Requests -/

/-- A call to play some notes or to stop. -/
inductive Request (τ : Type) where
  | play (notes : List (ScheduledNote τ)) (notice : Notice)
  | stop

namespace Request

/-- The notes to be played; none for a stop. -/
def notes : Request τ → List (ScheduledNote τ)
  | play notes _ => notes
  | stop => []

/-- What a caller has to do. -/
def program : Request τ → Program τ
  | play notes notice => playProgram notes notice
  | stop => stopProgram

/-- What is left once all notes are put into the queue. -/
def ending : Request τ → Program τ
  | play _ notice => [.cancel, .launch, .release, .report notice]
  | stop => [.release]

/-- What is left once the instrument is reset, if some notes are left. -/
def filling (r : Request τ) (left : List (ScheduledNote τ)) : Program τ :=
  left.map .schedule ++ r.ending

theorem program_eq (r : Request τ) :
    r.program = .acquire :: .cancel :: .clear :: r.filling r.notes := by
  cases r with
  | play notes notice => exact Stage.playProgram_eq notes notice
  | stop => rfl

/-- Who gives up in the middle has nothing more to do. -/
theorem salvage_filling (r : Request τ) (left : List (ScheduledNote τ)) :
    salvage (r.filling left) = [] := by
  refine salvage_eq_nil fun action mem => ?_
  rcases List.mem_append.mp mem with note | ending
  · obtain ⟨n, -, rfl⟩ := List.mem_map.mp note
    nofun
  · cases r with
    | play notes notice =>
      rintro rfl
      simp [Request.ending] at ending
    | stop =>
      rintro rfl
      simp [Request.ending] at ending

end Request

/-- The request of a caller; who made none stops nothing. -/
def requestOf (requests : List (Request τ)) (n : Nat) : Request τ := requests[n]?.getD .stop

/-! ## Serialised histories -/

/-- Whether an action is part of what resets, fills or starts an instrument. -/
def Action.isCall : Action τ → Bool
  | .cancel | .join _ | .clear | .schedule _ | .launch => true
  | _ => false

/-- Whether a message only silences. -/
def Midi.Message.isSilencing : Midi.Message → Bool
  | .noteOff _ _ _ => true
  | .control _ controller _ => controller == Midi.allNotesOff
  | _ => false

namespace Record

/-- Whether a record is one of a call to the instrument. -/
def IsCall (m : Record τ) : Prop := ∃ action, m.action = some action ∧ action.isCall = true

/-- Whether a record is one of a call by a caller. -/
def IsCallBy (n : Nat) (m : Record τ) : Prop := m.party = .caller n ∧ m.IsCall

/-- Whether a record is the end of a reset. -/
def IsClear (m : Record τ) : Prop := m.action = some .clear

/-- Whether a record is the end of a reset by a caller. -/
def IsClearBy (n : Nat) (m : Record τ) : Prop := m.party = .caller n ∧ m.IsClear

end Record

/-- The signals of a session: those of its notes, as far as they were put into the queue. -/
def IsSignalOf [Quantity τ] (r : Request τ) (s : Signal τ) : Prop :=
  ∃ notes, notes <+: r.notes ∧ s ∈ signalsFrom 0 notes

/-- The sessions of a history are serialised. -/
structure Serialised [Quantity τ] (requests : List (Request τ)) (h : List (Record τ)) : Prop where
  /-- Between two calls of one caller there are only calls of that caller. -/
  apart : ∀ {n p x q y r}, h = p ++ x :: (q ++ y :: r) → x.IsCallBy n → y.IsCallBy n →
    ∀ m ∈ q, m.IsCall → m.IsCallBy n
  /-- From the end of a reset to the end of the next, what is queued and what was played are
  together the signals of the notes that the caller put into the queue, one for one. -/
  owned : ∀ {n p x q r}, h = p ++ x :: (q ++ r) → x.IsClearBy n → (∀ m ∈ q, ¬ m.IsClear) →
    ∃ notes, notes <+: (requestOf requests n).notes ∧
      (queueAfter x.queue q ++ q.flatMap Record.played).Perm (signalsFrom 0 notes)
  /-- Once a caller has begun its session, a signal that is played belongs to that session or to
  one that began later. -/
  current : ∀ {n p x q m r}, h = p ++ x :: (q ++ m :: r) → x.IsCallBy n → ∀ s ∈ m.played,
    ∃ k p' c q', p ++ x :: q = p' ++ c :: q' ∧ c.IsClearBy k ∧ (∀ y ∈ q', ¬ y.IsClear) ∧
      IsSignalOf (requestOf requests k) s ∧ (k = n ∨ p.length < p'.length)
  /-- What is sent besides is sent by a reset, and only silences. -/
  silencing : ∀ m ∈ h, ∀ d ∈ m.deeds, (∃ s, d.signal? = some s) ∨
    m.IsClear ∧ ∃ time message reached, d = .silenced time message reached ∧
      message.isSilencing = true

/-! ## Where a caller stands -/

/-- Where a caller stands in its session. -/
inductive Place (τ : Type) where
  /-- Before the lock is taken. -/
  | waiting
  /-- The lock is taken, and nothing is called yet. -/
  | entered
  | resetting
  | clearing
  /-- The instrument is reset, and some notes are put into the queue. -/
  | filling (done : List (ScheduledNote τ))
  | launching
  /-- A loop is launched, and the lock is not given back yet. -/
  | leaving
  | gone

namespace Place

/-- Whether the lock is held. -/
def isInside : Place τ → Bool
  | waiting | gone => false
  | _ => true

/-- Whether nothing is called yet. -/
def isBefore : Place τ → Bool
  | waiting | entered => true
  | _ => false

/-- Whether the reset has begun, and its end is not reached. -/
def isResetting : Place τ → Bool
  | resetting | clearing => true
  | _ => false

/-- Whether the end of the reset is passed, and the lock is held. -/
def isReset : Place τ → Bool
  | filling _ | launching | leaving => true
  | _ => false

/-- Whether the reset has begun, and no loop is launched yet. -/
def isQuiet : Place τ → Bool
  | resetting | clearing | filling _ | launching => true
  | _ => false

theorem isQuiet_of_isResetting {a : Place τ} (resetting : a.isResetting = true) :
    a.isQuiet = true := by
  cases a <;> first | rfl | cases resetting

end Place

/-- What a caller with a request has left to do at a place. -/
inductive Stands (r : Request τ) : Place τ → Program τ → Prop where
  | waiting : Stands r .waiting r.program
  | entered : Stands r .entered (.cancel :: .clear :: r.filling r.notes)
  | joining (l : Nat) : Stands r .resetting (.join l :: .cancel :: .clear :: r.filling r.notes)
  | resetting : Stands r .resetting (.cancel :: .clear :: r.filling r.notes)
  | clearing : Stands r .clearing (.clear :: r.filling r.notes)
  | filling {done left : List (ScheduledNote τ)} (all : r.notes = done ++ left) :
    Stands r (.filling done) (r.filling left)
  | launching (notice : Notice) : Stands r .launching [.launch, .release, .report notice]
  | leaving (notice : Notice) : Stands r .leaving [.release, .report notice]
  | reporting (notice : Notice) : Stands r .gone [.report notice]
  | gone : Stands r .gone []

/-- The notes that were put into the queue are the first of the request. -/
theorem Stands.prefix_of_filling {r : Request τ} {done : List (ScheduledNote τ)}
    {program : Program τ} (h : Stands r (.filling done) program) : done <+: r.notes := by
  cases h with
  | @filling _ left all => exact ⟨left, all.symm⟩

/-- The note that comes next is the next of the request. -/
theorem Stands.prefix_of_schedule {r : Request τ} {done : List (ScheduledNote τ)}
    {note : ScheduledNote τ} {rest : Program τ}
    (h : Stands r (.filling done) (.schedule note :: rest)) : (done ++ [note]) <+: r.notes := by
  generalize left : Action.schedule note :: rest = program at h
  cases h with
  | @filling _ notes all =>
    cases notes with
    | nil => cases r <;> cases left
    | cons first notes =>
      obtain ⟨same, -⟩ := List.cons.inj left
      obtain rfl := Action.schedule.inj same
      exact ⟨notes, by rw [all, List.append_assoc]; rfl⟩

/-- How a caller gets on in its session by an action. -/
inductive Goes : Place τ → Action τ → Place τ → Prop where
  | enter : Goes .waiting .acquire .entered
  | begin : Goes .entered .cancel .resetting
  | beginIdle : Goes .entered .cancel .clearing
  | join (l : Nat) : Goes .resetting (.join l) .resetting
  | settle : Goes .resetting .cancel .clearing
  | clear : Goes .clearing .clear (.filling [])
  | fill (done : List (ScheduledNote τ)) (note : ScheduledNote τ) :
    Goes (.filling done) (.schedule note) (.filling (done ++ [note]))
  | giveUp (done : List (ScheduledNote τ)) (note : ScheduledNote τ) :
    Goes (.filling done) (.schedule note) .gone
  | filled (done : List (ScheduledNote τ)) : Goes (.filling done) .cancel .launching
  | stopped (done : List (ScheduledNote τ)) : Goes (.filling done) .release .gone
  | launch : Goes .launching .launch .leaving
  | leave : Goes .leaving .release .gone
  | report (notice : Notice) : Goes .gone (.report notice) .gone

namespace Goes

theorem isInside_of_isCall {a b : Place τ} {action : Action τ} (h : Goes a action b)
    (call : action.isCall = true) : a.isInside = true := by
  cases h <;> first | rfl | cases call

/-- Whoever comes in has not called anything yet. -/
theorem isBefore_of_enters {a b : Place τ} {action : Action τ} (h : Goes a action b)
    (outside : a.isInside = false) (inside : b.isInside = true) : b.isBefore = true := by
  cases h <;> simp [Place.isInside, Place.isBefore] at *

/-- Nothing is called until the reset begins. -/
theorem isBefore {a b : Place τ} {action : Action τ} (h : Goes a action b)
    (before : b.isBefore = true) : a.isBefore = true ∧ action.isCall = false := by
  cases h <;> first | exact ⟨rfl, rfl⟩ | cases before

/-- Between the beginning of a reset and the launch there is no way in but to cancel. -/
theorem isQuiet {a b : Place τ} {action : Action τ} (h : Goes a action b)
    (quiet : b.isQuiet = true) : a.isQuiet = true ∨ action = .cancel := by
  cases h <;> first | exact Or.inl rfl | exact Or.inr rfl | cases quiet

theorem isReset {a b : Place τ} {action : Action τ} (h : Goes a action b)
    (reset : b.isReset = true) : a.isReset = true ∨ action = .clear := by
  cases h <;> first | exact Or.inl rfl | exact Or.inr rfl | cases reset

/-- A reset that has begun goes on up to its end. -/
theorem isResetting {a b : Place τ} {action : Action τ} (h : Goes a action b)
    (resetting : a.isResetting = true) : b.isResetting = true ∨ action = .clear := by
  cases h <;> first | exact Or.inl rfl | exact Or.inr rfl | cases resetting

/-- Who calls before the end of its reset has not passed it. -/
theorem isReset_or_of_isCall {a b : Place τ} {action : Action τ} (h : Goes a action b)
    (call : action.isCall = true) :
    a.isReset = true ∨ b.isResetting = true ∨ action = .clear := by
  cases h <;> first
    | exact Or.inl rfl
    | exact Or.inr (Or.inl rfl)
    | exact Or.inr (Or.inr rfl)
    | cases call

/-- The queue is filled from its reset on, note by note. -/
theorem filling_eq {a : Place τ} {action : Action τ} {done : List (ScheduledNote τ)}
    (h : Goes a action (.filling done)) :
    (action = .clear ∧ done = []) ∨
      ∃ before note, action = .schedule note ∧ a = .filling before ∧ done = before ++ [note] := by
  cases h with
  | clear => exact Or.inl ⟨rfl, rfl⟩
  | fill before note => exact Or.inr ⟨before, note, rfl, rfl, rfl⟩

theorem filling_of_schedule {a b : Place τ} {note : ScheduledNote τ}
    (h : Goes a (.schedule note) b) :
    ∃ before, a = .filling before ∧ (b = .filling (before ++ [note]) ∨ b = .gone) := by
  cases h with
  | fill before => exact ⟨before, rfl, Or.inl rfl⟩
  | giveUp before => exact ⟨before, rfl, Or.inr rfl⟩

theorem ne_closeOutput {a b : Place τ} {action : Action τ} (h : Goes a action b) :
    action ≠ .closeOutput := by
  cases h <;> nofun

end Goes

/-! ## Cancelling -/

/-- What cancelling the loop that counts leaves behind. -/
structure Cancels (s s' : Stage τ) : Prop where
  holder : s'.holder = s.holder
  current : s'.instrument.current = none
  loops : ∀ n l, s'.instrument.loop? n = some l → l.isEnded = true ∨ l.cancelled = true ∨
    s.instrument.loop? n = some l ∧ s.instrument.current ≠ some n

variable [Quantity τ]

/-- Who cancels goes on, or waits for the loop and looks again. -/
theorem cancels_act (n : Nat) (s : Stage τ) :
    Cancels s (s.act n .cancel).1 ∧
      ((s.act n .cancel).2 = .onward ∨
        s.instrument.current ≠ none ∧
          ∃ l, (s.act n .cancel).2 = .waits [.join l, .cancel]) := by
  have cancelling := Stage.cancelling_act n s
  generalize (s.act n .cancel).1 = s', (s.act n .cancel).2 = goes at cancelling
  cases cancelling with
  | idle current =>
    refine ⟨⟨rfl, current, fun n l here => Or.inr (Or.inr ⟨here, ?_⟩)⟩, Or.inl rfl⟩
    rw [current]
    nofun
  | @ended k current ceased =>
    refine ⟨⟨rfl, rfl, fun n l here => ?_⟩, Or.inl rfl⟩
    rcases eq_or_ne n k with rfl | other
    · unfold loopEnded at ceased
      rw [show s.instrument.loop? n = some l from here] at ceased
      exact Or.inl ceased
    · refine Or.inr (Or.inr ⟨here, fun same => ?_⟩)
      rw [current] at same
      exact other (Option.some.inj same).symm
  | @live k live current counts going =>
    refine ⟨⟨rfl, rfl, fun n l here => ?_⟩, Or.inr ⟨?_, k, rfl⟩⟩
    · rcases loop?_of_set (i := s.instrument) rfl here with ⟨-, rfl⟩ | ⟨other, here⟩
      · exact Or.inr (Or.inl rfl)
      · refine Or.inr (Or.inr ⟨here, fun same => ?_⟩)
        rw [current] at same
        exact other (Option.some.inj same).symm
    · rw [current]
      nofun

/-! ## The lock -/

section Invariant

variable {request : Nat → Request τ} {h : List (Record τ)} {s : Stage τ} {todo : Nat → Program τ}
  {place : Nat → Place τ} {n : Nat} {action : Action τ} {rest : Program τ} {b : Place τ}

/-- Every caller stands somewhere in its session, and the one inside holds the lock. -/
structure Locked (request : Nat → Request τ) (holder : Option Nat) (todo : Nat → Program τ)
    (place : Nat → Place τ) : Prop where
  stands : ∀ n, Stands (request n) (place n) (todo n)
  inside : ∀ n, (place n).isInside = true ↔ holder = some n

/-- The loops of an instrument: only the one that counts plays, and none counts from the beginning
of a reset until the launch. -/
structure Looped (i : Instrument τ) (place : Nat → Place τ) : Prop where
  quiet : ∀ n, (place n).isQuiet = true → i.current = none
  others : ∀ n l, i.loop? n = some l → i.current ≠ some n → l.isEnded = true ∨ l.cancelled = true

omit [Quantity τ] in
theorem Locked.update {holder holder' : Option Nat} (lock : Locked request holder todo place)
    (stands : Stands (request n) b rest) (mine : b.isInside = true ↔ holder' = some n)
    (others : ∀ k, k ≠ n → (holder' = some k ↔ holder = some k)) :
    Locked request holder' (Function.update todo n rest) (Function.update place n b) := by
  constructor
  · intro k
    rcases eq_or_ne k n with rfl | other
    · rw [Function.update_self, Function.update_self]
      exact stands
    · rw [Function.update_of_ne other, Function.update_of_ne other]
      exact lock.stands k
  · intro k
    rcases eq_or_ne k n with rfl | other
    · rw [Function.update_self]
      exact mine
    · rw [Function.update_of_ne other, others k other]
      exact lock.inside k

omit [Quantity τ] in
theorem holder_unlock_of_eq (held : s.holder = some n) : (s.unlock n).holder = none := by
  unfold Stage.unlock
  rw [if_pos held]

omit [Quantity τ] in
/-- Whether the lock is freed is up to who holds it. -/
theorem holder_unlock_congr {s' : Stage τ} (same : s'.holder = s.holder) (n : Nat) :
    (s'.unlock n).holder = (s.unlock n).holder := by
  unfold Stage.unlock
  rw [same]
  split
  · rfl
  · exact same

/-- An action moves its caller on to where what it then has to do begins.  Only a note that is
refused ends a session before its time. -/
theorem goes_act {r : Request τ} {a : Place τ} (stands : Stands r a (action :: rest))
    (quiet : a.isQuiet = true → s.instrument.current = none) (n : Nat) :
    ∃ b, Goes a action b ∧ Stands r b ((s.act n action).2.program rest) ∧
      ∀ note, action = .schedule note →
        (b = .gone ↔ ∃ fault, s.instrument.schedule note = .error fault) := by
  generalize left : action :: rest = program at stands
  cases stands with
  | waiting =>
    rw [Request.program_eq] at left
    obtain ⟨rfl, rfl⟩ := List.cons.inj left
    exact ⟨.entered, .enter, .entered, nofun⟩
  | entered =>
    obtain ⟨rfl, rfl⟩ := List.cons.inj left
    obtain ⟨-, goes | ⟨-, l, waits⟩⟩ := cancels_act n s
    · rw [goes]
      exact ⟨.clearing, .beginIdle, .clearing, nofun⟩
    · rw [waits]
      exact ⟨.resetting, .begin, .joining l, nofun⟩
  | joining l =>
    obtain ⟨rfl, rfl⟩ := List.cons.inj left
    exact ⟨.resetting, .join l, .resetting, nofun⟩
  | resetting =>
    -- Nobody launches a loop in between, so there is none to be waited for any more.
    obtain ⟨rfl, rfl⟩ := List.cons.inj left
    obtain ⟨-, goes | ⟨counts, -⟩⟩ := cancels_act n s
    · rw [goes]
      exact ⟨.clearing, .settle, .clearing, nofun⟩
    · exact absurd (quiet rfl) counts
  | clearing =>
    obtain ⟨rfl, rfl⟩ := List.cons.inj left
    exact ⟨.filling [], .clear, .filling rfl, nofun⟩
  | @filling done notes all =>
    cases notes with
    | nil =>
      change action :: rest = r.ending at left
      cases r with
      | play notes notice =>
        obtain ⟨rfl, rfl⟩ := List.cons.inj left
        obtain ⟨-, goes | ⟨counts, -⟩⟩ := cancels_act n s
        · rw [goes]
          exact ⟨.launching, .filled done, .launching notice, nofun⟩
        · exact absurd (quiet rfl) counts
      | stop =>
        obtain ⟨rfl, rfl⟩ := List.cons.inj left
        exact ⟨.gone, .stopped done, .gone, nofun⟩
    | cons note notes =>
      obtain ⟨rfl, rfl⟩ := List.cons.inj left
      cases scheduled : s.instrument.schedule note with
      | ok i =>
        have all' : r.notes = (done ++ [note]) ++ notes := by
          rw [all, List.append_assoc]
          rfl
        rw [Stage.act_schedule_ok scheduled]
        refine ⟨.filling (done ++ [note]), .fill done note, .filling all', ?_⟩
        rintro _ ⟨⟩
        refine ⟨nofun, fun ⟨fault, refused⟩ => ?_⟩
        rw [scheduled] at refused
        cases refused
      | error fault =>
        have nothing : Stands r .gone (salvage (r.filling notes)) := by
          rw [r.salvage_filling]
          exact .gone
        rw [Stage.act_schedule_error scheduled]
        refine ⟨.gone, .giveUp done note, nothing, ?_⟩
        rintro _ ⟨⟩
        exact ⟨fun _ => ⟨fault, scheduled⟩, fun _ => rfl⟩
  | launching notice =>
    obtain ⟨rfl, rfl⟩ := List.cons.inj left
    exact ⟨.leaving, .launch, .leaving notice, nofun⟩
  | leaving notice =>
    obtain ⟨rfl, rfl⟩ := List.cons.inj left
    exact ⟨.gone, .leave, .reporting notice, nofun⟩
  | reporting notice =>
    obtain ⟨rfl, rfl⟩ := List.cons.inj left
    exact ⟨.gone, .report notice, .gone, nofun⟩
  | gone => cases left

/-- The lock is taken on the way in and given back on the way out, and not touched in between. -/
theorem holder_act {a : Place τ} (goes : Goes a action b) (free : s.blocks action = false)
    (inside : a.isInside = true ↔ s.holder = some n)
    (filled : ∀ note, action = .schedule note →
      (b = .gone ↔ ∃ fault, s.instrument.schedule note = .error fault)) :
    (b.isInside = true ↔ (s.act n action).1.holder = some n) ∧
      ∀ k, k ≠ n → ((s.act n action).1.holder = some k ↔ s.holder = some k) := by
  have kept : a.isInside = b.isInside → (s.act n action).1.holder = s.holder →
      (b.isInside = true ↔ (s.act n action).1.holder = some n) ∧
        ∀ k, k ≠ n → ((s.act n action).1.holder = some k ↔ s.holder = some k) := by
    intro same held
    rw [held, ← same]
    exact ⟨inside, fun k _ => Iff.rfl⟩
  have given : a.isInside = true → b.isInside = false →
      (s.act n action).1.holder = (s.unlock n).holder →
      (b.isInside = true ↔ (s.act n action).1.holder = some n) ∧
        ∀ k, k ≠ n → ((s.act n action).1.holder = some k ↔ s.holder = some k) := by
    intro mine outside unlocked
    have held := inside.mp mine
    rw [unlocked, holder_unlock_of_eq held, held, outside]
    exact ⟨⟨nofun, nofun⟩, fun k other =>
      ⟨nofun, fun same => absurd (Option.some.inj same).symm other⟩⟩
  cases goes with
  | enter =>
    have unlocked : s.holder = none := Option.not_isSome_iff_eq_none.mp (by
      intro taken
      have blocked : s.holder.isSome = false := free
      rw [taken] at blocked
      cases blocked)
    refine ⟨⟨fun _ => rfl, fun _ => rfl⟩, fun k other => ?_⟩
    rw [unlocked]
    exact ⟨fun same => absurd (Option.some.inj same).symm other, nofun⟩
  | begin | beginIdle | settle | filled => exact kept rfl (cancels_act n s).1.holder
  | join | clear | launch | report => exact kept rfl rfl
  | fill done note =>
    refine kept rfl ?_
    cases scheduled : s.instrument.schedule note with
    | ok i => rw [Stage.act_schedule_ok scheduled]
    | error fault => exact nomatch (filled note rfl).mpr ⟨fault, scheduled⟩
  | giveUp done note =>
    refine given rfl rfl ?_
    obtain ⟨fault, scheduled⟩ := (filled note rfl).mp rfl
    rw [Stage.act_schedule_error scheduled]
    refine holder_unlock_congr ?_ n
    rfl
  | stopped | leave => exact given rfl rfl rfl

/-- **An action moves its caller on, and the lock with it.** -/
theorem locked_act (lock : Locked request s.holder todo place) (looped : Looped s.instrument place)
    (here : todo n = action :: rest) (free : s.blocks action = false) :
    ∃ b, Goes (place n) action b ∧
      Locked request (s.act n action).1.holder
        (Function.update todo n ((s.act n action).2.program rest)) (Function.update place n b) ∧
      (∀ k, k ≠ n → ((s.act n action).1.holder = some k ↔ s.holder = some k)) ∧
      ∀ note, action = .schedule note →
        (b = .gone ↔ ∃ fault, s.instrument.schedule note = .error fault) := by
  obtain ⟨b, goes, stands, filled⟩ := goes_act (here ▸ lock.stands n) (looped.quiet n) n
  obtain ⟨mine, others⟩ := holder_act goes free (lock.inside n) filled
  exact ⟨b, goes, lock.update stands mine others, others, filled⟩

/-! ## The loops -/

omit [Quantity τ] in
/-- Only the caller inside calls the instrument. -/
theorem Locked.eq_of_isQuiet {holder : Option Nat} (lock : Locked request holder todo place)
    (goes : Goes (place n) action b) (call : action.isCall = true) {k : Nat}
    (quiet : (place k).isQuiet = true) : k = n := by
  have mine := (lock.inside n).mp (goes.isInside_of_isCall call)
  have other : (place k).isInside = true := by
    cases stands : place k <;> rw [stands] at quiet <;> first | rfl | cases quiet
  exact Option.some.inj (((lock.inside k).mp other).symm.trans mine)

/-- An action of a caller leaves only the loop that counts live. -/
theorem looped_act (looped : Looped s.instrument place)
    (lock : Locked request s.holder todo place) (goes : Goes (place n) action b) :
    Looped (s.act n action).1.instrument (Function.update place n b) := by
  have before : ∀ k, k ≠ n → (Function.update place n b k).isQuiet = true →
      s.instrument.current = none := by
    intro k other quiet
    rw [Function.update_of_ne other] at quiet
    exact looped.quiet k quiet
  by_cases cancel : action = .cancel
  · subst cancel
    obtain ⟨cancels, -⟩ := cancels_act n s
    refine ⟨fun _ _ => cancels.current, fun k l here _ => ?_⟩
    rcases cancels.loops k l here with ended | cancelled | ⟨here, notCurrent⟩
    · exact Or.inl ended
    · exact Or.inr cancelled
    · exact looped.others k l here notCurrent
  by_cases launch : action = .launch
  · subst launch
    have quiet : (place n).isQuiet = true ∧ b.isQuiet = false := by
      generalize place n = a at goes
      cases goes
      exact ⟨rfl, rfl⟩
    have silent := looped.quiet n quiet.1
    -- No loop counted up to here, so the old ones are cancelled or over, and the new one counts.
    constructor
    · intro k still
      rcases eq_or_ne k n with rfl | other
      · rw [Function.update_self, quiet.2] at still
        cases still
      · rw [Function.update_of_ne other] at still
        exact absurd (lock.eq_of_isQuiet goes rfl still) other
    · intro k l here notCurrent
      change some s.instrument.loops.length ≠ some k at notCurrent
      rcases loop?_of_append (i := s.instrument) rfl here with old | ⟨rfl, -⟩
      · refine looped.others k l old ?_
        rw [silent]
        nofun
      · exact absurd rfl notCurrent
  · obtain ⟨loops, current⟩ := Stage.loops_act cancel launch n s
    constructor
    · intro k quiet
      rw [current]
      rcases eq_or_ne k n with rfl | other
      · rw [Function.update_self] at quiet
        exact looped.quiet k ((goes.isQuiet quiet).resolve_right cancel)
      · exact before k other quiet
    · intro k l here notCurrent
      unfold loop? at here
      rw [loops] at here
      rw [current] at notCurrent
      exact looped.others k l here notCurrent

/-- A step of a loop leaves only the loop that counts live. -/
theorem looped_step (looped : Looped s.instrument place) {l : Loop τ} {played : List (Signal τ)}
    {s' : Stage τ} (steps : Stage.Steps n l played s s') : Looped s'.instrument place := by
  obtain ⟨phase, loops, -⟩ := steps.loops
  constructor
  · intro k quiet
    rw [steps.current]
    exact looped.quiet k quiet
  · intro k l' here notCurrent
    rw [steps.current] at notCurrent
    rcases loop?_of_set loops here with ⟨rfl, rfl⟩ | ⟨-, here⟩
    · rcases looped.others k l steps.here notCurrent with ended | cancelled
      · rw [steps.going] at ended
        cases ended
      · exact Or.inr cancelled
    · exact looped.others k l' here notCurrent

/-- A loop that plays is the one that counts. -/
theorem current_of_played (looped : Looped s.instrument place) {l : Loop τ}
    {played : List (Signal τ)} {s' : Stage τ} (steps : Stage.Steps n l played s s')
    (loud : played ≠ []) : s.instrument.current = some n := by
  by_contra notCurrent
  rcases looped.others n l steps.here notCurrent with ended | cancelled
  · rw [steps.going] at ended
    cases ended
  · exact loud (steps.silent cancelled)

/-! ## The calls of a history -/

/-- What a history tells about the calls of those who stand somewhere. -/
structure Called (h : List (Record τ)) (holder : Option Nat) (place : Nat → Place τ) : Prop where
  unbegun : ∀ n, (place n).isBefore = true → ∀ m ∈ h, ¬ m.IsCallBy n
  together : ∀ n, holder = some n → ∀ p x q, h = p ++ x :: q → x.IsCallBy n →
    ∀ m ∈ q, m.IsCall → m.IsCallBy n
  reset : ∀ n, (place n).isReset = true ∨ (∃ m ∈ h, m.IsCallBy n) →
    (place n).isResetting = true ∨ ∃ c ∈ h, c.IsClearBy n

omit [Quantity τ] in
theorem isCall_iff {m : Record τ} (did : m.action = some action) :
    m.IsCall ↔ action.isCall = true := by
  constructor
  · rintro ⟨action', same, call⟩
    rw [did] at same
    rwa [Option.some.inj same]
  · exact fun call => ⟨action, did, call⟩

omit [Quantity τ] in
theorem not_isCall_of_loop {m : Record τ} (loop : m.action = none) : ¬ m.IsCall := by
  rintro ⟨action, same, -⟩
  rw [loop] at same
  cases same

/-! A record that is added to a history changes nothing for a caller whose call it is not. -/

omit [Quantity τ] in
theorem Called.unbegun_snoc {holder : Option Nat} (called : Called h holder place) {m : Record τ}
    (notMine : ¬ m.IsCallBy n) (before : (place n).isBefore = true) :
    ∀ x ∈ h ++ [m], ¬ x.IsCallBy n :=
  List.forall_mem_append.mpr
    ⟨called.unbegun n before, List.forall_mem_singleton.mpr notMine⟩

omit [Quantity τ] in
theorem Called.together_snoc {holder : Option Nat} (called : Called h holder place)
    (held : holder = some n) {m : Record τ} (mine : m.IsCall → m.IsCallBy n) :
    ∀ p x q, h ++ [m] = p ++ x :: q → x.IsCallBy n → ∀ y ∈ q, y.IsCall → y.IsCallBy n := by
  intro p x q cut calls y mem isCall
  rcases snoc_eq_cut cut with ⟨-, -, rfl⟩ | ⟨q', rfl, cut'⟩
  · cases mem
  · rcases List.mem_append.mp mem with old | new
    · exact called.together n held p x q' cut' calls y old isCall
    · obtain rfl := List.mem_singleton.mp new
      exact mine isCall

omit [Quantity τ] in
theorem Called.reset_snoc {holder : Option Nat} (called : Called h holder place) {m : Record τ}
    (notMine : ¬ m.IsCallBy n)
    (begun : (place n).isReset = true ∨ ∃ x ∈ h ++ [m], x.IsCallBy n) :
    (place n).isResetting = true ∨ ∃ c ∈ h ++ [m], c.IsClearBy n := by
  have begun' : (place n).isReset = true ∨ ∃ x ∈ h, x.IsCallBy n := by
    rcases begun with reset | ⟨x, mem, calls⟩
    · exact Or.inl reset
    · rcases List.mem_append.mp mem with old | new
      · exact Or.inr ⟨x, old, calls⟩
      · rw [List.mem_singleton.mp new] at calls
        exact absurd calls notMine
  rcases called.reset n begun' with resetting | ⟨c, mem, clears⟩
  · exact Or.inl resetting
  · exact Or.inr ⟨c, List.mem_append_left [m] mem, clears⟩

omit [Quantity τ] in
/-- Whoever acts has ended its reset, or is still in it, if it was so before or calls now. -/
theorem Called.reset_act {holder : Option Nat} (called : Called h holder place)
    (goes : Goes (place n) action b) {m : Record τ} (party : m.party = .caller n)
    (did : m.action = some action)
    (begun : b.isReset = true ∨ ∃ x ∈ h ++ [m], x.IsCallBy n) :
    b.isResetting = true ∨ ∃ c ∈ h ++ [m], c.IsClearBy n := by
  have clears : action = .clear → ∃ c ∈ h ++ [m], c.IsClearBy n := by
    rintro rfl
    exact ⟨m, List.mem_append_right h List.mem_cons_self, party, did⟩
  have known : (place n).isReset = true ∨ (∃ x ∈ h, x.IsCallBy n) →
      b.isResetting = true ∨ ∃ c ∈ h ++ [m], c.IsClearBy n := by
    intro begun
    rcases called.reset n begun with resetting | ⟨c, mem, clear⟩
    · exact (goes.isResetting resetting).imp_right clears
    · exact Or.inr ⟨c, List.mem_append_left [m] mem, clear⟩
  rcases begun with reset | ⟨x, mem, calls⟩
  · rcases goes.isReset reset with reset | clear
    · exact known (Or.inl reset)
    · exact Or.inr (clears clear)
  · rcases List.mem_append.mp mem with old | new
    · exact known (Or.inr ⟨x, old, calls⟩)
    · obtain rfl := List.mem_singleton.mp new
      rcases goes.isReset_or_of_isCall ((isCall_iff did).mp calls.2) with reset | resetting | clear
      · exact known (Or.inl reset)
      · exact Or.inl resetting
      · exact Or.inr (clears clear)

omit [Quantity τ] in
/-- The calls of a history stay in order when an action is added to it. -/
theorem called_snoc {holder holder' : Option Nat} (called : Called h holder place)
    (lock : Locked request holder todo place) (goes : Goes (place n) action b)
    (inside : b.isInside = true ↔ holder' = some n)
    (others : ∀ k, k ≠ n → (holder' = some k ↔ holder = some k)) {m : Record τ}
    (party : m.party = .caller n) (did : m.action = some action) :
    Called (h ++ [m]) holder' (Function.update place n b) := by
  have notBy : ∀ k, k ≠ n → ¬ m.IsCallBy k := by
    rintro k other ⟨same, -⟩
    rw [party] at same
    exact other (Party.caller.inj same).symm
  have unbegun : ∀ k, (Function.update place n b k).isBefore = true →
      ∀ x ∈ h ++ [m], ¬ x.IsCallBy k := by
    intro k before
    rcases eq_or_ne k n with rfl | other
    · rw [Function.update_self] at before
      obtain ⟨before', quiet⟩ := goes.isBefore before
      refine called.unbegun_snoc (fun calls => ?_) before'
      rw [(isCall_iff did).mp calls.2] at quiet
      cases quiet
    · rw [Function.update_of_ne other] at before
      exact called.unbegun_snoc (notBy k other) before
  refine ⟨unbegun, fun k held => ?_, fun k begun => ?_⟩
  · rcases eq_or_ne k n with rfl | other
    · -- The caller holds the lock: it did before, or it has just come in and called nothing yet.
      rcases Bool.eq_false_or_eq_true (place k).isInside with was | was
      · exact called.together_snoc ((lock.inside k).mp was) fun isCall => ⟨party, isCall⟩
      · have fresh := goes.isBefore_of_enters was (inside.mpr held)
        intro p x q cut calls
        have inHistory : x ∈ h ++ [m] := by
          rw [cut]
          exact List.mem_append_right p List.mem_cons_self
        exact absurd calls (unbegun k (by rwa [Function.update_self]) x inHistory)
    · -- Whoever does not hold the lock does not call.
      have held' := (others k other).mp held
      refine called.together_snoc held' fun isCall => ?_
      have mine := (lock.inside n).mp (goes.isInside_of_isCall ((isCall_iff did).mp isCall))
      rw [held'] at mine
      exact absurd (Option.some.inj mine) other
  · rcases eq_or_ne k n with rfl | other
    · rw [Function.update_self] at begun ⊢
      exact called.reset_act goes party did begun
    · rw [Function.update_of_ne other] at begun ⊢
      exact called.reset_snoc (notBy k other) begun

omit [Quantity τ] in
/-- A step of a loop is no call. -/
theorem called_loop {holder : Option Nat} (called : Called h holder place) {m : Record τ}
    (loop : m.action = none) : Called (h ++ [m]) holder place := by
  have quiet := not_isCall_of_loop loop
  exact {
    unbegun := fun k => called.unbegun_snoc fun calls => quiet calls.2
    together := fun k held => called.together_snoc held fun isCall => absurd isCall quiet
    reset := fun k => called.reset_snoc fun calls => quiet calls.2 }

/-! ## The account of the queue -/

/-- What is in the queue, and what was played, since the last reset. -/
inductive Accounted (request : Nat → Request τ) (h : List (Record τ)) (i : Instrument τ)
    (place : Nat → Place τ) : Prop where
  /-- Nobody has reset the instrument yet. -/
  | untouched (noClear : ∀ m ∈ h, ¬ m.IsClear) (queue : i.queue = [])
    (played : ∀ m ∈ h, m.played = []) (nobody : ∀ n done, place n ≠ .filling done)
  /-- The last reset was one of the caller `k`, who has put the notes `done` into the queue; of
  these only the last may have been refused, and then nobody puts more of them there. -/
  | since (p : List (Record τ)) (x : Record τ) (q : List (Record τ)) (k : Nat)
    (done : List (ScheduledNote τ)) (cut : h = p ++ x :: q) (clears : x.IsClearBy k)
    (later : ∀ m ∈ q, ¬ m.IsClear) (part : done <+: (request k).notes)
    (account : (i.queue ++ q.flatMap Record.played).Perm (signalsFrom 0 done))
    (filling : ∀ n done', place n = .filling done' →
      n = k ∧ done' = done ∧ i.counter = (signalsFrom 0 done).length)

/-- A record after which the queue and what was played are together as they were. -/
theorem accounted_snoc {i i' : Instrument τ} (accounted : Accounted request h i place)
    {place' : Nat → Place τ} {m : Record τ} (notClear : ¬ m.IsClear)
    (queue : i.queue = m.played ++ i'.queue) (counter : i'.counter = i.counter)
    (filling : ∀ n done, place' n = .filling done → place n = .filling done) :
    Accounted request (h ++ [m]) i' place' := by
  cases accounted with
  | untouched noClear empty played nobody =>
    rw [empty] at queue
    obtain ⟨silent, empty'⟩ := List.append_eq_nil_iff.mp queue.symm
    exact .untouched (List.forall_mem_append.mpr ⟨noClear, List.forall_mem_singleton.mpr notClear⟩)
      empty' (List.forall_mem_append.mpr ⟨played, List.forall_mem_singleton.mpr silent⟩)
      fun n done stood => nobody n done (filling n done stood)
  | since p x q k done cut clears later part account filling' =>
    refine .since p x (q ++ [m]) k done ?_ clears ?_ part ?_ fun n done' stood => ?_
    · rw [cut, List.append_assoc]
      rfl
    · exact List.forall_mem_append.mpr ⟨later, List.forall_mem_singleton.mpr notClear⟩
    · -- What was played has moved from the front of the queue behind what was played before.
      refine List.Perm.trans ?_ account
      rw [queue, List.flatMap_append, List.flatMap_singleton, ← List.append_assoc,
        List.append_assoc m.played]
      exact List.perm_append_comm
    · rw [counter]
      exact filling' n done' (filling n done' stood)

/-- A record of a reset begins a new account. -/
theorem accounted_clear {i : Instrument τ} {m : Record τ} (clears : m.IsClearBy n)
    (queue : i.queue = []) (counter : i.counter = 0)
    (filling : ∀ k done, place k = .filling done → k = n ∧ done = []) :
    Accounted request (h ++ [m]) i place := by
  refine .since h m [] n [] rfl clears (fun y mem => absurd mem List.not_mem_nil)
    List.nil_prefix ?_ fun k done stood => ?_
  · rw [queue]
    exact List.Perm.refl _
  · obtain ⟨same, nothing⟩ := filling k done stood
    exact ⟨same, nothing, counter⟩

/-- A record of a note that was put into the queue, whether or not it was refused. -/
theorem accounted_fill {i i' : Instrument τ} (accounted : Accounted request h i place)
    {note : ScheduledNote τ} {before : List (ScheduledNote τ)}
    (stood : place n = .filling before)
    (part : (before ++ [note]) <+: (request n).notes) (fills : Fills (note.signals i.counter) i i')
    {place' : Nat → Place τ} {m : Record τ} (notClear : ¬ m.IsClear) (silent : m.played = [])
    (filling : ∀ k done, place' k = .filling done → k = n ∧ done = before ++ [note] ∧
      i'.counter = i.counter + (note.signals i.counter).length) :
    Accounted request (h ++ [m]) i' place' := by
  cases accounted with
  | untouched noClear empty played nobody => exact absurd stood (nobody n before)
  | since p x q k done cut clears later all account filling' =>
    obtain ⟨rfl, rfl, counts⟩ := filling' n before stood
    -- The counter of the instrument is the number of signals so far: the next serial number.
    have signals : signalsFrom 0 (before ++ [note]) =
        signalsFrom 0 before ++ note.signals i.counter := by
      rw [signalsFrom_append, counts, Nat.zero_add]
      exact congrArg _ (List.append_nil _)
    refine .since p x (q ++ [m]) n (before ++ [note]) ?_ clears ?_ part ?_ fun k done stood => ?_
    · rw [cut, List.append_assoc]
      rfl
    · exact List.forall_mem_append.mpr ⟨later, List.forall_mem_singleton.mpr notClear⟩
    · rw [fills.queue, List.flatMap_append, List.flatMap_singleton, silent, List.append_nil,
        signals]
      refine ((perm_enqueueAll _ _).append_right _).trans ?_
      rw [List.append_assoc]
      refine (List.perm_append_comm.append_left i.queue).trans ?_
      rw [← List.append_assoc]
      exact account.append_right _
    · obtain ⟨same, all, counted⟩ := filling k done stood
      refine ⟨same, all, ?_⟩
      rw [counted, signals, List.length_append, ← counts]

/-- Whether a deed of a record only silences, at the end of a reset. -/
def IsSilence (m : Record τ) (d : Deed τ) : Prop :=
  m.IsClear ∧ ∃ time message reached, d = .silenced time message reached ∧
    message.isSilencing = true

omit [Quantity τ] in
theorem isSilencing_of_mem_silencing {i : Instrument τ} {message : Midi.Message}
    (mem : message ∈ i.silencing) : message.isSilencing = true := by
  rcases List.mem_append.mp mem with release | off
  · obtain ⟨note, -, rfl⟩ := List.mem_map.mp release
    rfl
  · obtain rfl := List.mem_singleton.mp off
    rfl

/-- What a caller sends only silences. -/
theorem silence_act (goes : Goes (place n) action b) :
    ∀ d ∈ (s.record (.caller n) (some action) (s.act n action).1).deeds,
      IsSilence (s.record (.caller n) (some action) (s.act n action).1) d := by
  intro d mem
  by_cases clear : action = .clear
  · subst clear
    refine ⟨rfl, ?_⟩
    obtain ⟨deeds, sent, silent⟩ := sends_clear s.now s.instrument
    have record := Stage.deeds_record (Stage.deeds_act n s .clear) (.caller n) (some .clear)
    have same := List.append_cancel_left (record.symm.trans sent.deeds)
    rw [same] at mem
    obtain ⟨message, inside, reached, rfl⟩ := silent d mem
    exact ⟨s.now, message, reached, rfl, isSilencing_of_mem_silencing inside⟩
  · have none : (s.record (.caller n) (some action) (s.act n action).1).deeds = [] := by
      show List.drop _ (s.act n action).1.instrument.deeds = []
      rw [(Stage.soundsAs_act clear goes.ne_closeOutput n s).deeds, List.drop_length]
    rw [none] at mem
    cases mem

omit [Quantity τ] in
theorem played_eq_nil {m : Record τ} (silent : ∀ d ∈ m.deeds, IsSilence m d) : m.played = [] := by
  refine List.filterMap_eq_nil_iff.mpr fun d mem => ?_
  obtain ⟨-, time, message, reached, rfl, -⟩ := silent d mem
  rfl

/-- **An action keeps the account of the queue.** -/
theorem accounted_act (accounted : Accounted request h s.instrument place)
    (lock : Locked request s.holder todo place) (goes : Goes (place n) action b)
    (part : ∀ done note, place n = .filling done → action = .schedule note →
      (done ++ [note]) <+: (request n).notes)
    (filled : ∀ note, action = .schedule note →
      (b = .gone ↔ ∃ fault, s.instrument.schedule note = .error fault)) :
    Accounted request (h ++ [s.record (.caller n) (some action) (s.act n action).1])
      (s.act n action).1.instrument (Function.update place n b) := by
  have silent := played_eq_nil (silence_act (s := s) goes)
  have alone : action.isCall = true → ∀ k done, k ≠ n → place k ≠ .filling done := by
    intro call k done other stood
    refine other (lock.eq_of_isQuiet goes call ?_)
    rw [stood]
    rfl
  by_cases clear : action = .clear
  · subst clear
    obtain ⟨deeds, sent, -⟩ := sends_clear s.now s.instrument
    refine accounted_clear ⟨rfl, rfl⟩ sent.queue sent.counter fun k done stood => ?_
    rcases eq_or_ne k n with rfl | other
    · rw [Function.update_self] at stood
      subst stood
      rcases goes.filling_eq with ⟨-, rfl⟩ | ⟨before, note, other, -⟩
      · exact ⟨rfl, rfl⟩
      · cases other
    · rw [Function.update_of_ne other] at stood
      exact absurd stood (alone rfl k done other)
  have notClear : ¬ (s.record (.caller n) (some action) (s.act n action).1).IsClear :=
    fun same => clear (Option.some.inj same)
  -- A note fills the queue, also if it is refused; everything else leaves it as it is.
  by_cases schedules : ∃ note, action = .schedule note
  · obtain ⟨note, rfl⟩ := schedules
    obtain ⟨before, stood, next⟩ := goes.filling_of_schedule
    have after := Stage.instrument_act_schedule n s note
    refine accounted_fill accounted stood (part before note stood rfl) (after ▸ fills_on note _)
      notClear silent fun k done stands => ?_
    rcases eq_or_ne k n with rfl | other
    · rw [Function.update_self] at stands
      rcases next with next | gone
      · obtain rfl := Place.filling.inj (next.symm.trans stands)
        refine ⟨rfl, rfl, ?_⟩
        cases scheduled : s.instrument.schedule note with
        | ok i =>
          rw [Stage.act_schedule_ok scheduled]
          exact (fills_schedule scheduled).2
        | error fault => exact nomatch next.symm.trans ((filled note rfl).mpr ⟨fault, scheduled⟩)
      · exact nomatch gone.symm.trans stands
    · rw [Function.update_of_ne other] at stands
      exact absurd stands (alone rfl k done other)
  · have notSchedule : ∀ note, action ≠ .schedule note := fun note same => schedules ⟨note, same⟩
    obtain ⟨queue, counter⟩ := Stage.queue_act clear notSchedule n s
    refine accounted_snoc accounted notClear ?_ counter fun k done stood => ?_
    · rw [silent, queue]
      rfl
    · rcases eq_or_ne k n with rfl | other
      · rw [Function.update_self] at stood
        subst stood
        rcases goes.filling_eq with ⟨same, -⟩ | ⟨before, note, same, -⟩
        · exact absurd same clear
        · exact absurd same (notSchedule note)
      · rwa [Function.update_of_ne other] at stood

/-! ## Histories in order -/

/-- Whether some caller was the last to reset the instrument. -/
def FollowsReset (h : List (Record τ)) : Prop :=
  ∃ p c q k, h = p ++ c :: q ∧ c.IsClearBy k ∧ ∀ m ∈ q, ¬ m.IsClear

/-- What is known of a history as far as it goes. -/
structure Orderly (request : Nat → Request τ) (h : List (Record τ)) : Prop where
  apart : ∀ {n p x q y r}, h = p ++ x :: (q ++ y :: r) → x.IsCallBy n → y.IsCallBy n →
    ∀ m ∈ q, m.IsCall → m.IsCallBy n
  owned : ∀ {n p x q r}, h = p ++ x :: (q ++ r) → x.IsClearBy n → (∀ m ∈ q, ¬ m.IsClear) →
    ∃ notes, notes <+: (request n).notes ∧
      (queueAfter x.queue q ++ q.flatMap Record.played).Perm (signalsFrom 0 notes)
  /-- Nothing is played before the first reset has ended, or while another one is underway. -/
  played : ∀ {p m r}, h = p ++ m :: r → m.played ≠ [] → FollowsReset p ∧ ¬ m.IsClear ∧
    ∀ n, (∃ x ∈ p, x.IsCallBy n) → ∃ c ∈ p, c.IsClearBy n
  silencing : ∀ m ∈ h, ∀ d ∈ m.deeds, (∃ t, d.signal? = some t) ∨ IsSilence m d

omit [Quantity τ] in
/-- A history is cut in only one way at its last reset. -/
theorem cut_unique {p p' q q' : List (Record τ)} {x x' : Record τ}
    (same : p ++ x :: q = p' ++ x' :: q') (clear : x.IsClear) (clear' : x'.IsClear)
    (later : ∀ m ∈ q, ¬ m.IsClear) (later' : ∀ m ∈ q', ¬ m.IsClear) :
    p = p' ∧ x = x' ∧ q = q' := by
  rcases List.append_eq_append_iff.mp same with ⟨middle, rfl, rest⟩ | ⟨middle, rfl, rest⟩
  · cases middle with
    | nil =>
      obtain ⟨rfl, rfl⟩ := List.cons.inj rest
      exact ⟨(List.append_nil p).symm, rfl, rfl⟩
    | cons y middle =>
      obtain ⟨rfl, rfl⟩ := List.cons.inj rest
      exact absurd clear' (later x' (List.mem_append_right middle List.mem_cons_self))
  · cases middle with
    | nil =>
      obtain ⟨rfl, rfl⟩ := List.cons.inj rest
      exact ⟨List.append_nil p', rfl, rfl⟩
    | cons y middle =>
      obtain ⟨rfl, rfl⟩ := List.cons.inj rest
      exact absurd clear (later' x (List.mem_append_right middle List.mem_cons_self))

/-- The account of the queue says what the last reset owns. -/
theorem owned_of_accounted {i : Instrument τ} {m : Record τ}
    (accounted : Accounted request (h ++ [m]) i place) (queue : m.queue = i.queue)
    {p q : List (Record τ)} {x : Record τ} (cut : h ++ [m] = p ++ x :: q) (clears : x.IsClearBy n)
    (later : ∀ y ∈ q, ¬ y.IsClear) :
    ∃ notes, notes <+: (request n).notes ∧
      (queueAfter x.queue q ++ q.flatMap Record.played).Perm (signalsFrom 0 notes) := by
  have left : queueAfter x.queue q = i.queue := by
    rcases snoc_eq_cut cut with ⟨-, rfl, rfl⟩ | ⟨q', rfl, -⟩
    · exact queue
    · rw [queueAfter_snoc, queue]
  rw [left]
  cases accounted with
  | untouched noClear empty played nobody =>
    refine absurd clears.2 (noClear x ?_)
    rw [cut]
    exact List.mem_append_right p List.mem_cons_self
  | since p' x' q' k done cut' clears' later' part account filling =>
    obtain ⟨-, rfl, rfl⟩ := cut_unique (cut.symm.trans cut') clears.2 clears'.2 later later'
    have same : Party.caller n = .caller k := clears.1.symm.trans clears'.1
    obtain rfl := Party.caller.inj same
    exact ⟨done, part, account⟩

/-- A history stays in order when a record is added to it. -/
theorem orderly_snoc (orderly : Orderly request h) {i : Instrument τ} {m : Record τ}
    (apart : ∀ n, m.IsCallBy n → ∀ p x q, h = p ++ x :: q → x.IsCallBy n →
      ∀ y ∈ q, y.IsCall → y.IsCallBy n)
    (accounted : Accounted request (h ++ [m]) i place) (queue : m.queue = i.queue)
    (played : m.played ≠ [] → FollowsReset h ∧ ¬ m.IsClear ∧
      ∀ n, (∃ x ∈ h, x.IsCallBy n) → ∃ c ∈ h, c.IsClearBy n)
    (silencing : ∀ d ∈ m.deeds, (∃ t, d.signal? = some t) ∨ IsSilence m d) :
    Orderly request (h ++ [m]) := by
  constructor
  · intro n p x q y r cut calls calls' z mem isCall
    have cut' : h ++ [m] = (p ++ x :: q) ++ y :: r := by rw [cut, List.append_assoc]; rfl
    rcases snoc_eq_cut cut' with ⟨front, rfl, rfl⟩ | ⟨r', rfl, back⟩
    · exact apart n calls' p x q front.symm calls z mem isCall
    · have back' : h = p ++ x :: (q ++ y :: r') := by rw [back, List.append_assoc]; rfl
      exact orderly.apart back' calls calls' z mem isCall
  · intro n p x q r cut clears later
    -- A stretch that ends with the new record is the account; any other one is an old one.
    rcases List.eq_nil_or_concat r with rfl | ⟨r', y, same⟩
    · rw [List.append_nil] at cut
      exact owned_of_accounted accounted queue cut clears later
    · rw [List.concat_eq_append] at same
      subst same
      have cut' : h ++ [m] = (p ++ x :: (q ++ r')) ++ [y] := by
        rw [cut]
        simp only [List.append_assoc, List.cons_append]
      exact orderly.owned (List.append_inj' cut' rfl).1 clears later
  · intro p y r cut loud
    rcases snoc_eq_cut cut with ⟨rfl, rfl, -⟩ | ⟨r', -, cut'⟩
    · exact played loud
    · exact orderly.played cut' loud
  · exact List.forall_mem_append.mpr ⟨orderly.silencing, List.forall_mem_singleton.mpr silencing⟩

/-! ## The invariant -/

/-- Everybody stands somewhere, and the history up to now is in order. -/
def InTurn (request : Nat → Request τ) (h : List (Record τ)) (i : Instrument τ)
    (holder : Option Nat) (todo : Nat → Program τ) : Prop :=
  ∃ place, Locked request holder todo place ∧ Looped i place ∧ Called h holder place ∧
    Accounted request h i place ∧ Orderly request h

/-- **An action of a caller keeps the invariant.** -/
theorem inTurn_action : Stage.ActionKeeps (InTurn request) := by
  rintro h s todo n action rest ⟨place, lock, looped, called, accounted, orderly⟩ here free
  obtain ⟨b, goes, lock', others, filled⟩ := locked_act lock looped here free
  have mine : b.isInside = true ↔ (s.act n action).1.holder = some n := by
    have inside := lock'.inside n
    rwa [Function.update_self] at inside
  have part : ∀ done note, place n = .filling done → action = .schedule note →
      (done ++ [note]) <+: (request n).notes := by
    rintro done note stood rfl
    have stands := lock.stands n
    rw [here, stood] at stands
    exact stands.prefix_of_schedule
  have silent := silence_act (s := s) goes
  have accounted' := accounted_act accounted lock goes part filled
  refine ⟨Function.update place n b, lock', looped_act looped lock goes,
    called_snoc called lock goes mine others rfl rfl, accounted', ?_⟩
  refine orderly_snoc orderly ?_ accounted' rfl ?_ fun d mem => Or.inr (silent d mem)
  · rintro k ⟨same, action', did, call⟩ p x q cut calls y mem isCall
    obtain rfl := Party.caller.inj same
    obtain rfl := Option.some.inj did
    have held := (lock.inside n).mp (goes.isInside_of_isCall call)
    exact called.together n held p x q cut calls y mem isCall
  · exact fun loud => absurd (played_eq_nil silent) loud

/-- **A step of a loop keeps the invariant.** -/
theorem inTurn_step : Stage.StepKeeps (InTurn request) := by
  rintro h s s' todo n ⟨place, lock, looped, called, accounted, orderly⟩ gone
  obtain ⟨l, played, steps⟩ := Stage.exists_steps gone
  obtain ⟨deeds, did, playedAt, -⟩ := steps.deeds
  let m := s.record (.loop n) none s'
  have record : m.deeds = deeds := by
    show s'.instrument.deeds.drop s.instrument.deeds.length = deeds
    rw [did, List.drop_left]
  have heard : m.played = played := by
    unfold Record.played
    rw [record]
    exact filterMap_signal? playedAt.map_signal?
  have accounted' : Accounted request (h ++ [m]) s'.instrument place :=
    accounted_snoc accounted nofun (heard ▸ steps.queue) steps.counter fun _ _ stood => stood
  refine ⟨place, ?_, looped_step looped steps, ?_, accounted', ?_⟩
  · rw [steps.holder]
    exact lock
  · rw [steps.holder]
    exact called_loop called rfl
  · refine orderly_snoc orderly (fun k calls => absurd calls.2 (not_isCall_of_loop rfl)) accounted'
      rfl ?_ ?_
    · intro loud
      refine ⟨?_, nofun, fun k begun => ?_⟩
      · cases accounted with
        | untouched noClear empty played' nobody =>
          have nothing := steps.queue.symm.trans empty
          rw [heard] at loud
          exact absurd (List.append_eq_nil_iff.mp nothing).1 loud
        | since p x q k done cut clears later part account filling =>
          exact ⟨p, x, q, k, cut, clears, later⟩
      · rcases called.reset k (Or.inr begun) with resetting | clears
        · -- The loop that plays counts, so nobody is in the middle of a reset.
          have quiet := looped.quiet k (Place.isQuiet_of_isResetting resetting)
          rw [current_of_played looped steps (heard ▸ loud)] at quiet
          cases quiet
        · exact clears
    · intro d mem
      rw [record] at mem
      have signal := List.mem_map_of_mem (f := Deed.signal?) mem
      rw [playedAt.map_signal?] at signal
      obtain ⟨t, -, same⟩ := List.mem_map.mp signal
      exact Or.inl ⟨t, same.symm⟩

/-- Before anybody has gone, those who made a request wait, and the others are not there. -/
theorem stands_staffed (now : τ) (i : Instrument τ) (requests : List (Request τ)) (n : Nat) :
    Stands (requestOf requests n) (if n < requests.length then .waiting else .gone)
      ((Stage.staffed now i (requests.map Request.program)).todo n) := by
  unfold requestOf
  rw [Stage.todo_staffed, List.getElem?_map]
  by_cases inside : n < requests.length
  · rw [List.getElem?_eq_getElem inside, if_pos inside]
    exact .waiting
  · rw [List.getElem?_eq_none (Nat.not_lt.mp inside), if_neg inside]
    exact .gone

/-- Before anybody has gone, everything is in turn. -/
theorem inTurn_staffed {i : Instrument τ} (fresh : i.IsFresh) (now : τ)
    (requests : List (Request τ)) :
    let s := Stage.staffed now i (requests.map Request.program)
    InTurn (requestOf requests) [] s.instrument s.holder s.todo := by
  -- Nobody is inside, and there is nothing that a loop, a call or a queue could tell.
  let place (n : Nat) : Place τ := if n < requests.length then .waiting else .gone
  have outside : ∀ n, place n = .waiting ∨ place n = .gone := by
    intro n
    dsimp only [place]
    split
    · exact Or.inl rfl
    · exact Or.inr rfl
  refine ⟨place, ⟨fun n => ?_, fun n => ?_⟩, ⟨fun n quiet => fresh.current, fun n l here => ?_⟩,
    ⟨fun n _ m mem => absurd mem List.not_mem_nil, nofun, fun n begun => ?_⟩, ?_, ?_⟩
  · exact stands_staffed now i requests n
  · rcases outside n with same | same
    · rw [same]
      exact ⟨nofun, nofun⟩
    · rw [same]
      exact ⟨nofun, nofun⟩
  · change i.loops[n]? = some l at here
    rw [fresh.loops] at here
    cases here
  · rcases begun with reset | ⟨x, mem, -⟩
    · rcases outside n with same | same
      · rw [same] at reset
        cases reset
      · rw [same] at reset
        cases reset
    · cases mem
  · refine .untouched (fun m mem => absurd mem List.not_mem_nil) fresh.queue
      (fun m mem => absurd mem List.not_mem_nil) fun n done stood => ?_
    rcases outside n with same | same
    · exact nomatch same.symm.trans stood
    · exact nomatch same.symm.trans stood
  · constructor
    · intro n p x q y r cut
      exact absurd cut (by simp)
    · intro n p x q r cut
      exact absurd cut (by simp)
    · intro p m r cut
      exact absurd cut (by simp)
    · exact fun m mem => absurd mem List.not_mem_nil

omit [Quantity τ] in
theorem isCallBy_of_isClearBy {c : Record τ} (clears : c.IsClearBy n) : c.IsCallBy n :=
  ⟨clears.1, .clear, clears.2, rfl⟩

/-- Whoever has begun its session, and reset the instrument, owns the last reset, or it lies
behind. -/
theorem eq_or_length_lt (orderly : Orderly request h) {p q r p' q' : List (Record τ)}
    {x c : Record τ} {k : Nat} (cut : h = (p ++ x :: q) ++ r) (same : p ++ x :: q = p' ++ c :: q')
    (calls : x.IsCallBy n) (clears : c.IsClearBy k) (later : ∀ y ∈ q', ¬ y.IsClear)
    (reset : ∃ y ∈ p ++ x :: q, y.IsClearBy n) : k = n ∨ p.length < p'.length := by
  rcases List.append_eq_append_iff.mp same with ⟨middle, rfl, rest⟩ | ⟨middle, rfl, rest⟩
  · cases middle with
    | nil =>
      obtain ⟨rfl, -⟩ := List.cons.inj rest
      exact Or.inl (Party.caller.inj (clears.1.symm.trans calls.1))
    | cons y middle =>
      refine Or.inr ?_
      rw [List.length_append, List.length_cons]
      omega
  · cases middle with
    | nil =>
      obtain ⟨rfl, -⟩ := List.cons.inj rest
      exact Or.inl (Party.caller.inj (clears.1.symm.trans calls.1))
    | cons y middle =>
      -- The reset of the caller comes before the last one, and its call behind it.
      obtain ⟨rfl, rfl⟩ := List.cons.inj rest
      refine Or.inl ?_
      obtain ⟨y, mem, clears'⟩ := reset
      rw [same] at mem
      rcases List.mem_append.mp mem with before | after
      · obtain ⟨a, b, rfl⟩ := List.append_of_mem before
        have cut' : h = a ++ y :: ((b ++ c :: middle) ++ x :: (q ++ r)) := by
          rw [cut]
          simp only [List.append_assoc, List.cons_append]
        have mine := orderly.apart cut' (isCallBy_of_isClearBy clears') calls c
          (List.mem_append_right b List.mem_cons_self) (isCallBy_of_isClearBy clears).2
        exact Party.caller.inj (clears.1.symm.trans mine.1)
      · rcases List.mem_cons.mp after with rfl | behind
        · exact Party.caller.inj (clears.1.symm.trans clears'.1)
        · exact absurd clears'.2 (later y behind)

/-- A signal that is played belongs to the session of the last reset. -/
theorem current_of_orderly (orderly : Orderly request h) {p q r : List (Record τ)} {x m : Record τ}
    (cut : h = p ++ x :: (q ++ m :: r)) (calls : x.IsCallBy n) {t : Signal τ}
    (played : t ∈ m.played) :
    ∃ k p' c q', p ++ x :: q = p' ++ c :: q' ∧ c.IsClearBy k ∧ (∀ y ∈ q', ¬ y.IsClear) ∧
      IsSignalOf (request k) t ∧ (k = n ∨ p.length < p'.length) := by
  have cut' : h = (p ++ x :: q) ++ m :: r := by
    rw [cut, List.append_assoc]
    rfl
  obtain ⟨⟨p', c, q', k, same, clears, later⟩, notClear, resets⟩ :=
    orderly.played cut' (List.ne_nil_of_mem played)
  have reset := resets n ⟨x, List.mem_append_right p List.mem_cons_self, calls⟩
  have cut'' : h = p' ++ c :: ((q' ++ [m]) ++ r) := by
    rw [cut', same]
    simp only [List.append_assoc, List.cons_append, List.nil_append]
  have later' : ∀ y ∈ q' ++ [m], ¬ y.IsClear :=
    List.forall_mem_append.mpr ⟨later, List.forall_mem_singleton.mpr notClear⟩
  obtain ⟨notes, part, account⟩ := orderly.owned cut'' clears later'
  refine ⟨k, p', c, q', same, clears, later, ⟨notes, part, account.mem_iff.mp ?_⟩,
    eq_or_length_lt orderly cut' same calls clears later reset⟩
  rw [List.flatMap_append, List.flatMap_singleton]
  exact List.mem_append_right _ (List.mem_append_right _ played)

end Invariant

/-- **Sessions are serialised.**  Any number of callers play or stop on an instrument that is new,
and any turns are taken: the history is serialised, and it tells all that was done and what is
queued. -/
theorem sessions_serialised (requests : List (Request τ)) {i : Instrument τ} (fresh : i.IsFresh)
    (now : τ) (turns : List (Turn τ)) :
    let s := Stage.staffed now i (requests.map Request.program)
    Serialised requests (s.history turns) ∧
      (s.run turns).instrument.deeds = i.deeds ++ (s.history turns).flatMap Record.deeds ∧
      (s.run turns).instrument.queue = queueAfter i.queue (s.history turns) := by
  obtain ⟨place, -, -, -, -, orderly⟩ := Stage.history_invariant inTurn_action inTurn_step
    (inTurn_staffed fresh now requests) turns
  refine ⟨?_, Stage.history_tells _ turns⟩
  exact {
    apart := orderly.apart
    owned := orderly.owned
    current := fun cut calls t played => current_of_orderly orderly cut calls played
    silencing := orderly.silencing }

/-- A strike of one second. -/
def strike : ScheduledNote Rat := ⟨⟨.c, 0, 4⟩, 0, 1, 0.5⟩

/-- A call to play one strike. -/
def strikeOnce : Request Rat := .play [strike] ⟨.info, []⟩

/-- An instrument that was just opened on an output that loses every second message. -/
def stuttering : Instrument Rat :=
  ofSelection { attempted := some "Synth", opened := some "Synth", printed := "", notices := [] }
    .null Midi.firstChannel none fun n => n % 2 == 0

/-- A first loop has played when a stop cancels it, and somebody else waits for the lock already;
what is played after that comes from a second loop. -/
def overtaken : List (Turn Rat) :=
  [.of (.caller 0), .of (.loop 0), .of (.caller 1), .of (.caller 2), .of (.loop 0),
    .of (.caller 1), .of (.caller 2), .of (.loop 1)]

/-- Two players and one who stops between them are serialised, and something of both is played. -/
theorem sessions_serialised_overtaken :
    let s := Stage.staffed 0 stuttering
      ([strikeOnce, .stop, strikeOnce].map Request.program)
    stuttering.IsFresh ∧
      ((s.history overtaken).filter fun m => !m.played.isEmpty).map Record.party =
        [.loop 0, .loop 1] ∧
      Serialised [strikeOnce, .stop, strikeOnce] (s.history overtaken) ∧
      (s.run overtaken).instrument.deeds =
        stuttering.deeds ++ (s.history overtaken).flatMap Record.deeds ∧
      (s.run overtaken).instrument.queue = queueAfter stuttering.queue (s.history overtaken) := by
  have fresh : stuttering.IsFresh := ⟨rfl, rfl, rfl⟩
  refine ⟨fresh, ?_, sessions_serialised _ fresh 0 overtaken⟩
  decide +kernel

end Keysong
