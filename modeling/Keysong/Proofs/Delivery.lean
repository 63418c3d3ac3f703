import Keysong.Proofs.Hearing
import Keysong.Proofs.Moves
import Keysong.Proofs.Precedence
import Mathlib.Data.List.Forall2

/-!
# Every signal is delivered once

Whatever callers do and however late loops are woken, each note that is accepted puts a strike and a
release into the queue, and each of the two is sent once or still queued.  What is sent is the front
of the queue, and never before its time.  A note that is refused only because its pitch cannot be
written is delivered all the same.

## Main Definitions

* `Instrument.sent` — the signals that were played, in order
* `ScheduledNote.IsPair` — the strike and the release of a note
* `ScheduledNote.isQueued`, `ScheduledNote.isWeak` — notes that are put into the queue, and notes
  that only use up a serial number
* `Move.accepted?`, `Move.queued?` — the note that a move schedules, if it is accepted and fits a
  message, and if it is put into the queue
* `Move.PlaysFront` — a move plays the least of the queue, and not before its time
* `Delivers` — what holds up to a reset
* `Ledger` — the invariant that carries it

## Main Statements

* `ledger_act`, `ledger_step` — every action but a reset, and every step of a loop keeps the ledger
* `delivers_until_reset` — up to the first reset, all is delivered

### What a reset undoes

A reset empties the queue and counts signals from zero again.  So all that is said here is about the
moves of a run up to the first reset; a run may well go on behind it.
-/

namespace Keysong

open Quantity Instrument

variable {τ : Type}

/-- The signals that were played, in order. -/
def Instrument.sent (i : Instrument τ) : List (Signal τ) := i.deeds.filterMap Deed.signal?

/-- The instrument behind a row of moves. -/
def instrumentAfter (i : Instrument τ) (moves : List (Move τ)) : Instrument τ :=
  match moves.getLast? with
  | none => i
  | some m => m.after.instrument

@[simp] theorem instrumentAfter_snoc (i : Instrument τ) (h : List (Move τ)) (m : Move τ) :
    instrumentAfter i (h ++ [m]) = m.after.instrument := by
  unfold instrumentAfter
  rw [List.getLast?_concat]

/-- Both signals of a note. -/
def bothOf (pair : Signal τ × Signal τ) : List (Signal τ) := [pair.1, pair.2]

section Quantities

variable [Quantity τ]

/-- The strike and the release of a note that fits a message. -/
structure ScheduledNote.IsPair (n : ScheduledNote τ) (pair : Signal τ × Signal τ) : Prop where
  strikes : pair.1.isStrike = true
  releases : pair.2.isStrike = false
  starts : pair.1.time = n.start
  ends : pair.2.time = n.start + n.duration
  note : Midi.noteOf? n.pitch.number = some pair.1.note
  sameNote : pair.2.note = pair.1.note
  strength : Midi.attack n.velocity = .ok pair.1.strength
  noStrength : pair.2.strength = Midi.noStrength

/-- Whether a note is put into the queue, though it may be refused after that. -/
def ScheduledNote.isQueued (n : ScheduledNote τ) : Bool := !(n.signals 0).isEmpty

/-- Whether a note is refused for its velocity, when a serial number is used up already. -/
def ScheduledNote.isWeak (n : ScheduledNote τ) : Bool :=
  !decide (n.start < zero ∨ n.duration ≤ zero) && Midi.isNote n.pitch.number &&
    !(Midi.attack n.velocity).toBool

namespace Move

/-- The note that a move schedules, if it is accepted and fits a message. -/
def accepted? (m : Move τ) : Option (ScheduledNote τ) :=
  match m.action with
  | some (.schedule n) =>
    if Midi.isNote n.pitch.number && (m.before.instrument.schedule n).toBool then some n else none
  | _ => none

/-- The note that a move puts into the queue. -/
def queued? (m : Move τ) : Option (ScheduledNote τ) :=
  match m.action with
  | some (.schedule n) => if n.isQueued then some n else none
  | _ => none

/-- Whether a move only uses up a serial number. -/
def isWeak (m : Move τ) : Bool :=
  match m.action with
  | some (.schedule n) => n.isWeak
  | _ => false

/-- Whether a move empties the queue. -/
def isReset (m : Move τ) : Bool :=
  match m.action with
  | some .clear => true
  | _ => false

/-- A move plays the front of the queue: each signal when it is the least that is queued, and not
before its time. -/
structure PlaysFront (m : Move τ) (played : List (Signal τ)) : Prop where
  queue : m.before.instrument.queue = played ++ m.after.instrument.queue
  least : ∀ p t q, played = p ++ t :: q → ∀ u ∈ q ++ m.after.instrument.queue, t.Precedes u
  due : ∀ t ∈ played, m.before.instrument.startTime + t.time ≤ m.after.now
  deeds : ∃ deeds, m.after.instrument.deeds = m.before.instrument.deeds ++ deeds ∧
    PlayedAt m.after.now played deeds

/-- A caller sends nothing that was queued, and a loop plays the front of the queue. -/
def IsOrderly (m : Move τ) : Prop :=
  match m.party with
  | .caller _ => m.after.instrument.sent = m.before.instrument.sent
  | .loop _ => ∃ played, m.PlaysFront played

end Move

/-- Some signals are those of some notes, which arrived in order, whatever the order of the signals.
Their serial numbers are the next ones, of which some may be skipped between two notes. -/
def Accounts (counter skipped : Nat) (notes : List (ScheduledNote τ)) (signals : List (Signal τ)) :
    Prop :=
  ∃ pairs : List (Signal τ × Signal τ), List.Forall₂ ScheduledNote.IsPair notes pairs ∧
    (∀ pair ∈ pairs, pair.2.serial = pair.1.serial + 1) ∧
    List.Sublist ((pairs.flatMap bothOf).map Signal.serial)
      (List.range' counter (2 * notes.length + skipped)) ∧
    signals.Perm (pairs.flatMap bothOf)

/-- A row of moves has its first launch at a move, and nothing is scheduled behind it. -/
structure StartsAt (moves p : List (Move τ)) (m : Move τ) (q : List (Move τ)) : Prop where
  cut : moves = p ++ m :: q
  launches : m.action = some .launch
  first : ∀ x ∈ p, x.action ≠ some .launch
  last : ∀ x ∈ q, ∀ n, x.action ≠ some (.schedule n)

/-- What is delivered by a row of moves without a reset that leads from one instrument to
another. -/
structure Delivers (i : Instrument τ) (moves : List (Move τ)) (i' : Instrument τ) : Prop where
  /-- Nothing is lost and nothing comes twice: what was sent and what is queued are one strike and
  one release of each note that was put into the queue. -/
  accounts : Accounts i.counter (moves.filter Move.isWeak).length (moves.filterMap Move.queued?)
    (i'.sent ++ i'.queue)
  /-- Those are the notes that were accepted, and besides only notes that were refused because their
  pitch cannot be written. -/
  through : ∀ m ∈ moves, ∀ n, m.accepted? = some n ↔ m.queued? = some n ∧ n.pitch.IsWritten
  orderly : ∀ m ∈ moves, m.IsOrderly
  /-- If all was scheduled before the first launch, what is sent is the front of the queue that was
  there, and all of it once a loop has ended by itself. -/
  initial : ∀ p m q, StartsAt moves p m q →
    m.before.instrument.queue.Pairwise Signal.Precedes ∧
      i'.sent ++ i'.queue = m.before.instrument.queue ∧
      ∀ k l, i'.loop? k = some l → l.isEnded = true → l.cancelled = false →
        i'.sent = m.before.instrument.queue
  /-- All that was sent has reached an output that loses nothing, as long as it is open. -/
  arrives : i.CarriesAll → i'.output.isSome = true → ∀ d ∈ i'.deeds, d.reached = true

/-! ## What scheduling queues -/

/-- A note is put into the queue, as a strike and a release, or it uses up a serial number at
most. -/
theorem ScheduledNote.Scheduling.queues {n : ScheduledNote τ} {outcome : Except Fault Unit}
    {used : Nat} {told : List Notice} (scheduling : n.Scheduling outcome used told) :
    (n.isQueued = false ∧ used = n.isWeak.toNat ∧ (∀ serial, n.signals serial = []) ∧
      (outcome = .ok () → Midi.isNote n.pitch.number = false)) ∨
    (n.isQueued = true ∧ used = 2 ∧ n.isWeak = false ∧ Midi.isNote n.pitch.number = true ∧
      outcome = (n.pitch.spelling.map fun _ => ()) ∧
      ∀ serial, ∃ pair, n.IsPair pair ∧ n.signals serial = bothOf pair ∧
        pair.1.serial = serial ∧ pair.2.serial = serial + 1) := by
  unfold isQueued isWeak Midi.isNote
  cases scheduling with
  | refused fault outOfTime =>
    rw [n.signals_outOfTime outOfTime, decide_eq_true outOfTime]
    exact Or.inl ⟨rfl, rfl, n.signals_outOfTime outOfTime, nofun⟩
  | leftOut inTime outside =>
    rw [n.signals_outside outside, decide_eq_false inTime, outside]
    exact Or.inl ⟨rfl, rfl, n.signals_outside outside, fun _ => rfl⟩
  | weak fault inTime inside refused =>
    rw [n.signals_weak refused, decide_eq_false inTime, inside, refused]
    exact Or.inl ⟨rfl, rfl, n.signals_weak refused, nofun⟩
  | @queued note strength inTime inside strong =>
    have signals := n.signals_inside (not_or.mp inTime).1 (not_or.mp inTime).2 inside strong
    rw [signals, decide_eq_false inTime, inside, strong]
    exact Or.inr ⟨rfl, rfl, rfl, rfl, rfl, fun serial =>
      ⟨signalsOf serial note strength n.start n.duration,
        ⟨rfl, rfl, rfl, rfl, inside, rfl, strong, rfl⟩, signals serial, rfl, rfl⟩⟩

/-- A note is accepted if it is put into the queue and its pitch can be written. -/
theorem Move.accepted?_eq_some_iff (m : Move τ) (n : ScheduledNote τ) :
    m.accepted? = some n ↔ m.queued? = some n ∧ n.pitch.IsWritten := by
  unfold accepted? queued?
  split
  · rename_i n' _
    obtain ⟨outcome, used, told, scheduling, ran⟩ := exists_scheduling n'
    have same : (m.before.instrument.schedule n').toBool = outcome.toBool := by
      unfold schedule
      rw [ran]
      cases outcome <;> rfl
    rw [same]
    rcases scheduling.queues with ⟨left, -, -, outside⟩ | ⟨queued, -, -, inside, came, -⟩
    · rw [left]
      cases outcome with
      | error fault => simp [Except.toBool]
      | ok done => simp [outside rfl]
    · rw [queued, inside, came]
      by_cases written : n'.pitch.IsWritten
      · rw [Pitch.spelling_of_isWritten written]
        show some n' = some n ↔ some n' = some n ∧ _
        exact ⟨fun same => ⟨same, Option.some.inj same ▸ written⟩, And.left⟩
      · rw [Pitch.spelling_of_not_isWritten written]
        show none = some n ↔ some n' = some n ∧ _
        exact ⟨nofun, fun ⟨same, short⟩ => absurd (Option.some.inj same ▸ short) written⟩
  · simp

/-! ## The ledger -/

/-- What every move but a reset keeps. -/
structure Ledger (i : Instrument τ) (h : List (Move τ)) (i' : Instrument τ) : Prop where
  accounts : Accounts i.counter (h.filter Move.isWeak).length (h.filterMap Move.queued?)
    (i'.sent ++ i'.queue)
  counter : i'.counter =
    i.counter + (2 * (h.filterMap Move.queued?).length + (h.filter Move.isWeak).length)
  tidy : IsTidy i'.queue i'.counter
  orderly : ∀ m ∈ h, m.IsOrderly
  untouched : (∀ m ∈ h, m.action ≠ some .launch) → i'.loops = [] ∧ i'.sent = []
  initial : ∀ p m q, StartsAt h p m q →
    m.before.instrument.queue.Pairwise Signal.Precedes ∧
      i'.sent ++ i'.queue = m.before.instrument.queue ∧
      ∀ k l, i'.loop? k = some l → l.isEnded = true → l.cancelled = false → i'.queue = []
  losesNothing : i.CarriesAll → i'.LosesNothing
  arrives : i.CarriesAll → i'.output.isSome = true → ∀ d ∈ i'.deeds, d.reached = true

/-- What the ledger says is delivered. -/
theorem Ledger.delivers {i i' : Instrument τ} {h : List (Move τ)} (ledger : Ledger i h i') :
    Delivers i h i' where
  accounts := ledger.accounts
  through m _ := m.accepted?_eq_some_iff
  orderly := ledger.orderly
  initial p m q starts := by
    obtain ⟨sorted, same, drained⟩ := ledger.initial p m q starts
    refine ⟨sorted, same, fun k l here ended live => ?_⟩
    rw [← same, drained k l here ended live, List.append_nil]
  arrives := ledger.arrives

omit [Quantity τ] in
/-- A row with one more move starts there, or where it has started before. -/
theorem StartsAt.of_snoc {h p q : List (Move τ)} {x m : Move τ}
    (starts : StartsAt (h ++ [x]) p m q) :
    (p = h ∧ m = x ∧ q = []) ∨
      ∃ q', StartsAt h p m q' ∧ ∀ n, x.action ≠ some (.schedule n) := by
  rcases snoc_eq_cut starts.cut with here | ⟨q', rfl, cut⟩
  · exact Or.inl here
  · obtain ⟨last, latest⟩ := List.forall_mem_append.mp starts.last
    exact Or.inr ⟨q', ⟨cut, starts.launches, starts.first, last⟩,
      List.forall_mem_singleton.mp latest⟩

/-! ## Callers that neither schedule nor reset -/

/-- Between two states nothing was played or scheduled, and no loop has ended. -/
structure Rests (i i' : Instrument τ) : Prop where
  queue : i'.queue = i.queue
  counter : i'.counter = i.counter
  sent : i'.sent = i.sent
  ended : ∀ k l, i'.loop? k = some l → l.isEnded = true → l.cancelled = false →
    i.loop? k = some l
  isOpen : i'.output.isSome = true → i'.output = i.output ∧ i'.deeds = i.deeds

/-- A loop that was just launched or cancelled has not ended by itself. -/
theorem loop?_of_act (n : Nat) (s : Stage τ) (action : Action τ) {k : Nat} {l : Loop τ}
    (here : (s.act n action).1.instrument.loop? k = some l) (ended : l.isEnded = true)
    (live : l.cancelled = false) : s.instrument.loop? k = some l := by
  by_cases cancels : action = .cancel
  · subst cancels
    obtain ⟨s', goes, did, cancelling⟩ := Stage.exists_cancelling n s
    rw [did] at here
    cases cancelling with
    | idle current => exact here
    | ended current ceased => exact here
    | @live j l' current found going =>
      rcases loop?_of_set (i := s.instrument) rfl here with ⟨rfl, rfl⟩ | ⟨-, found⟩
      · cases live
      · exact found
  by_cases launches : action = .launch
  · subst launches
    rcases loop?_of_append (i := s.instrument) rfl here with old | ⟨-, rfl⟩
    · exact old
    · cases ended
  · have loops := (Stage.loops_act cancels launches n s).1
    unfold loop? at here ⊢
    rwa [loops] at here

/-- Without a launch there are no loops. -/
theorem loops_act_of_nil {s : Stage τ} {action : Action τ} (launches : action ≠ .launch)
    (none : s.instrument.loops = []) (n : Nat) : (s.act n action).1.instrument.loops = [] := by
  by_cases cancels : action = .cancel
  · subst cancels
    obtain ⟨s', goes, did, cancelling⟩ := Stage.exists_cancelling n s
    rw [did]
    cases cancelling with
    | idle current => exact none
    | ended current ceased => exact none
    | live current found going =>
      unfold loop? at found
      rw [none] at found
      cases found
  · exact (Stage.loops_act cancels launches n s).1.trans none

/-- Callers that neither schedule nor reset leave signals alone. -/
theorem rests_act {action : Action τ} (notClear : action ≠ .clear)
    (notSchedule : ∀ note, action ≠ .schedule note) (n : Nat) (s : Stage τ) :
    Rests s.instrument (s.act n action).1.instrument := by
  obtain ⟨queue, counter⟩ := Stage.queue_act notClear notSchedule n s
  have ended := fun k l => loop?_of_act (k := k) (l := l) n s action
  by_cases closes : action = .closeOutput
  · subst closes
    refine ⟨queue, counter, ?_, ended, fun isOpen => ?_⟩
    · show List.filterMap _ s.instrument.closeOutput.deeds = _
      unfold closeOutput
      cases s.instrument.output with
      | none => rfl
      | some output => exact List.filterMap_append.trans (List.append_nil _)
    · have closed : s.instrument.closeOutput.output = none := by
        unfold closeOutput
        cases here : s.instrument.output with
        | none => exact here
        | some output => rfl
      rw [show (s.act n .closeOutput).1.instrument.output = none from closed] at isOpen
      cases isOpen
  · have same := Stage.soundsAs_act notClear closes n s
    exact ⟨queue, counter, congrArg (List.filterMap Deed.signal?) same.deeds, ended,
      fun _ => ⟨same.output, same.deeds⟩⟩

/-! ## The ledger along a run -/

theorem filterMap_queued?_snoc {h : List (Move τ)} {x : Move τ} (nothing : x.queued? = none) :
    (h ++ [x]).filterMap Move.queued? = h.filterMap Move.queued? := by
  rw [List.filterMap_append, List.filterMap_cons_none nothing]
  exact List.append_nil _

theorem length_filter_isWeak_snoc (h : List (Move τ)) (x : Move τ) :
    ((h ++ [x]).filter Move.isWeak).length = (h.filter Move.isWeak).length + x.isWeak.toNat := by
  rw [List.filter_append, List.length_append]
  cases weak : x.isWeak with
  | true => rw [List.filter_cons_of_pos weak]; rfl
  | false => rw [List.filter_cons_of_neg (Bool.eq_false_iff.mp weak)]; rfl

/-- A caller that leaves signals alone keeps the ledger. -/
theorem ledger_rests {i : Instrument τ} {h : List (Move τ)} {n : Nat} {action : Action τ}
    {s s' : Stage τ} (ledger : Ledger i h s.instrument)
    (rests : Rests s.instrument s'.instrument) (notSchedule : ∀ note, action ≠ .schedule note)
    (loops : action ≠ .launch → s.instrument.loops = [] → s'.instrument.loops = []) :
    Ledger i (h ++ [⟨.caller n, some action, s, s'⟩]) s'.instrument := by
  let x : Move τ := ⟨.caller n, some action, s, s'⟩
  obtain ⟨queued, weak⟩ : x.queued? = none ∧ x.isWeak = false := by
    cases action with
    | schedule note => exact absurd rfl (notSchedule note)
    | _ => exact ⟨rfl, rfl⟩
  have skipped := length_filter_isWeak_snoc h x
  rw [weak] at skipped
  exact {
    accounts := by
      rw [filterMap_queued?_snoc queued, skipped, rests.sent, rests.queue]
      exact ledger.accounts
    counter := by
      rw [filterMap_queued?_snoc queued, skipped, rests.counter]
      exact ledger.counter
    tidy := by
      rw [rests.queue, rests.counter]
      exact ledger.tidy
    orderly := List.forall_mem_append.mpr
      ⟨ledger.orderly, List.forall_mem_singleton.mpr rests.sent⟩
    untouched := fun never => by
      obtain ⟨before, now⟩ := List.forall_mem_append.mp never
      obtain ⟨none, unsent⟩ := ledger.untouched before
      have notLaunch : action ≠ .launch := fun launches =>
        List.forall_mem_singleton.mp now (congrArg some launches)
      exact ⟨loops notLaunch none, rests.sent.trans unsent⟩
    initial := fun p m q starts => by
      rcases starts.of_snoc with ⟨rfl, rfl, rfl⟩ | ⟨q', starts', -⟩
      · -- Nothing was played before the first launch.
        obtain ⟨none, unsent⟩ := ledger.untouched starts.first
        refine ⟨ledger.tidy.sorted, ?_, fun k l here ended live => ?_⟩
        · rw [rests.sent, unsent, rests.queue]
          rfl
        · have here := rests.ended k l here ended live
          unfold loop? at here
          rw [none] at here
          cases here
      · obtain ⟨sorted, same, drained⟩ := ledger.initial p m q' starts'
        rw [rests.sent, rests.queue]
        exact ⟨sorted, same, fun k l here ended live =>
          drained k l (rests.ended k l here ended live) ended live⟩
    losesNothing := fun carries output here => by
      have isOpen : s'.instrument.output.isSome = true := by rw [here]; rfl
      rw [(rests.isOpen isOpen).1] at here
      exact ledger.losesNothing carries output here
    arrives := fun carries isOpen => by
      obtain ⟨output, deeds⟩ := rests.isOpen isOpen
      rw [output] at isOpen
      rw [deeds]
      exact ledger.arrives carries isOpen }

/-- The next serial numbers may be skipped. -/
theorem Accounts.skip {counter skipped : Nat} {notes : List (ScheduledNote τ)}
    {signals : List (Signal τ)} (accounts : Accounts counter skipped notes signals) (more : Nat) :
    Accounts counter (skipped + more) notes signals := by
  obtain ⟨pairs, arePairs, next, serials, account⟩ := accounts
  refine ⟨pairs, arePairs, next, serials.trans ?_, account⟩
  rw [← Nat.add_assoc, ← List.range'_append_1 (n := more)]
  exact List.sublist_append_left _ _

/-- One more note has one more strike and one more release. -/
theorem Accounts.snoc {counter skipped : Nat} {notes : List (ScheduledNote τ)}
    {signals signals' : List (Signal τ)} (accounts : Accounts counter skipped notes signals)
    {n : ScheduledNote τ} {pair : Signal τ × Signal τ} (isPair : n.IsPair pair)
    (first : pair.1.serial = counter + (2 * notes.length + skipped))
    (second : pair.2.serial = pair.1.serial + 1)
    (perm : signals'.Perm (signals ++ bothOf pair)) :
    Accounts counter skipped (notes ++ [n]) signals' := by
  obtain ⟨pairs, arePairs, next, serials, account⟩ := accounts
  refine ⟨pairs ++ [pair], List.rel_append arePairs (.cons isPair .nil),
    List.forall_mem_append.mpr ⟨next, List.forall_mem_singleton.mpr second⟩, ?_, ?_⟩
  · have both : (bothOf pair).map Signal.serial =
        List.range' (counter + (2 * notes.length + skipped)) 2 := by
      rw [← first]
      exact congrArg (fun serial => [pair.1.serial, serial]) second
    have more : 2 * (notes ++ [n]).length + skipped = 2 * notes.length + skipped + 2 := by
      rw [List.length_append, List.length_singleton]
      omega
    rw [List.flatMap_append, List.flatMap_singleton, List.map_append, both, more,
      ← List.range'_append_1]
    exact serials.append_right _
  · rw [List.flatMap_append, List.flatMap_singleton]
    exact perm.trans (account.append_right _)

end Quantities

section Ordered

variable {τ : Type} [OrderedQuantity τ] {i : Instrument τ} {h : List (Move τ)} {s : Stage τ}

/-- A note is entered into the ledger if it is put into the queue, whether or not it is refused. -/
theorem ledger_schedule (ledger : Ledger i h s.instrument) (n : Nat) (note : ScheduledNote τ) :
    Ledger i (h ++ [⟨.caller n, some (.schedule note), s, (s.act n (.schedule note)).1⟩])
      (s.act n (.schedule note)).1.instrument := by
  obtain ⟨outcome, used, told, scheduling, ran⟩ := exists_scheduling note
  let x : Move τ := ⟨.caller n, some (.schedule note), s, (s.act n (.schedule note)).1⟩
  have after : (s.act n (.schedule note)).1.instrument = s.instrument.taking note used told := by
    rw [Stage.instrument_act_schedule, ran]
  have entry : x.queued? = if note.isQueued then some note else none := rfl
  have skipped := length_filter_isWeak_snoc h x
  change _ = _ + note.isWeak.toNat at skipped
  have counter := ledger.counter
  rw [after]
  refine {
    accounts := ?_
    counter := ?_
    tidy := ?_
    orderly := List.forall_mem_append.mpr ⟨ledger.orderly, List.forall_mem_singleton.mpr ?_⟩
    untouched := fun never => ledger.untouched (List.forall_mem_append.mp never).1
    initial := fun p m q starts => ?_
    losesNothing := ledger.losesNothing
    arrives := ledger.arrives }
  · rcases scheduling.queues with ⟨left, -, nothing, -⟩ | ⟨queued, -, strong, -, -, signals⟩
    · rw [left] at entry
      rw [skipped, filterMap_queued?_snoc entry, taking_of_nil (nothing _)]
      exact ledger.accounts.skip _
    · obtain ⟨pair, isPair, both, first, second⟩ := signals s.instrument.counter
      rw [queued] at entry
      rw [strong] at skipped
      rw [skipped, List.filterMap_append, List.filterMap_cons_some entry]
      refine ledger.accounts.snoc isPair (first.trans counter) (second.trans (first ▸ rfl)) ?_
      show (s.instrument.sent ++ enqueueAll (note.signals s.instrument.counter) _).Perm _
      rw [both, List.append_assoc]
      exact (perm_enqueueAll _ _).append_left _
  · show s.instrument.counter + used = _
    rcases scheduling.queues with ⟨left, rfl, -, -⟩ | ⟨queued, rfl, strong, -, -, -⟩
    · rw [left] at entry
      rw [skipped, filterMap_queued?_snoc entry, counter]
      omega
    · rw [queued] at entry
      rw [strong] at skipped
      rw [skipped, List.filterMap_append, List.filterMap_cons_some entry, List.length_append]
      simp only [List.length_cons, List.length_nil, List.filterMap_nil, Bool.toNat_false]
      omega
  · show IsTidy (enqueueAll (note.signals s.instrument.counter) _) (s.instrument.counter + used)
    rcases scheduling.queues with ⟨-, -, nothing, -⟩ | ⟨-, rfl, -, -, -, signals⟩
    · rw [nothing]
      exact ledger.tidy.mono (Nat.le_add_right _ _)
    · obtain ⟨pair, -, both, first, second⟩ := signals s.instrument.counter
      have once := isTidy_enqueue (s := pair.1) (first ▸ ledger.tidy)
      have twice := isTidy_enqueue (s := pair.2) (by rwa [second, ← first])
      rw [second] at twice
      rw [both]
      exact twice
  · show (s.act n (.schedule note)).1.instrument.sent = _
    rw [after]
    rfl
  · rcases starts.of_snoc with ⟨-, rfl, -⟩ | ⟨q', -, notSchedule⟩
    · cases starts.launches
    · exact absurd rfl (notSchedule note)

/-- **Every action but a reset keeps the ledger.** -/
theorem ledger_act (ledger : Ledger i h s.instrument) {action : Action τ}
    (notClear : action ≠ .clear) (n : Nat) :
    Ledger i (h ++ [⟨.caller n, some action, s, (s.act n action).1⟩])
      (s.act n action).1.instrument := by
  by_cases schedules : ∃ note, action = .schedule note
  · obtain ⟨note, rfl⟩ := schedules
    exact ledger_schedule ledger n note
  · have notSchedule : ∀ note, action ≠ .schedule note := fun note same => schedules ⟨note, same⟩
    exact ledger_rests ledger (rests_act notClear notSchedule n s) notSchedule
      fun notLaunch none => loops_act_of_nil notLaunch none n

/-- **Every step of a loop keeps the ledger.** -/
theorem ledger_step (ledger : Ledger i h s.instrument) {n : Nat} {s' : Stage τ}
    (gone : s.go? (.loop n) = some s') :
    Ledger i (h ++ [⟨.loop n, none, s, s'⟩]) s'.instrument := by
  obtain ⟨l, played, steps⟩ := Stage.exists_steps gone
  obtain ⟨deeds, did, playedAt, reached⟩ := steps.deeds
  obtain ⟨phase, loops, -, drained⟩ := steps.loops
  have sent : s'.instrument.sent = s.instrument.sent ++ played := by
    unfold sent
    rw [did, List.filterMap_append, filterMap_signal? playedAt.map_signal?]
  -- What is played leaves the front of the queue, so sent and queued stay the same row.
  have same : s'.instrument.sent ++ s'.instrument.queue =
      s.instrument.sent ++ s.instrument.queue := by
    rw [sent, List.append_assoc, ← steps.queue]
  have keepsOutput : s.instrument.LosesNothing → s'.instrument.LosesNothing ∧
      s'.instrument.output.isSome = s.instrument.output.isSome := by
    intro sound
    obtain ⟨-, -, -, rfl⟩ := Stage.go?_loop gone
    exact losesNothing_stepLoop sound s.now n
  let x : Move τ := ⟨.loop n, none, s, s'⟩
  have nothing : x.queued? = none := rfl
  have skipped : ((h ++ [x]).filter Move.isWeak).length = (h.filter Move.isWeak).length :=
    length_filter_isWeak_snoc h x
  have sorted := ledger.tidy.sorted
  rw [steps.queue] at sorted
  have plays : x.PlaysFront played := {
    queue := steps.queue
    least := fun p t q cut u mem => by
      rw [cut, List.append_assoc, List.cons_append] at sorted
      exact (List.pairwise_cons.mp (List.pairwise_append.mp sorted).2.1).1 u mem
    due := fun t mem => of_decide_eq_true (steps.due t mem)
    deeds := ⟨deeds, did, playedAt⟩ }
  have suffix : s'.instrument.queue <:+ s.instrument.queue := ⟨played, steps.queue.symm⟩
  exact {
    accounts := by
      rw [filterMap_queued?_snoc nothing, skipped, same]
      exact ledger.accounts
    counter := by rw [filterMap_queued?_snoc nothing, skipped, steps.counter, ledger.counter]
    tidy := by
      rw [steps.counter]
      exact ledger.tidy.sublist suffix.sublist
    orderly := List.forall_mem_append.mpr
      ⟨ledger.orderly, List.forall_mem_singleton.mpr ⟨played, plays⟩⟩
    untouched := fun never => by
      have here := steps.here
      unfold loop? at here
      rw [(ledger.untouched (List.forall_mem_append.mp never).1).1] at here
      cases here
    initial := fun p m q starts => by
      rcases starts.of_snoc with ⟨-, rfl, -⟩ | ⟨q', starts', -⟩
      · cases starts.launches
      · obtain ⟨sorted, all, ended⟩ := ledger.initial p m q' starts'
        refine ⟨sorted, same.trans all, fun k l' here isEnded live => ?_⟩
        rcases loop?_of_set loops here with ⟨rfl, rfl⟩ | ⟨-, here⟩
        · exact drained live (isEnded_iff.mp isEnded)
        · exact List.suffix_nil.mp (ended k l' here isEnded live ▸ suffix)
    losesNothing := fun carries => (keepsOutput (ledger.losesNothing carries)).1
    arrives := fun carries isOpen => by
      have sound := ledger.losesNothing carries
      rw [(keepsOutput sound).2] at isOpen
      obtain ⟨output, here⟩ := Option.isSome_iff_exists.mp isOpen
      rw [did]
      exact List.forall_mem_append.mpr
        ⟨ledger.arrives carries isOpen, (reached ⟨output, here, sound output here⟩).2⟩ }

/-! ## Runs -/

/-- The ledger is kept up to each point of a row of moves before which nobody has reset. -/
def Kept (i : Instrument τ) : Stage.Condition τ := fun moves i' _ _ =>
  i' = instrumentAfter i moves ∧
    ∀ p, p <+: moves → (∀ m ∈ p, m.isReset = false) → Ledger i p (instrumentAfter i p)

/-- One more move keeps what is kept, if it keeps the ledger unless it is a reset. -/
theorem Kept.snoc {i i' : Instrument τ} {h : List (Move τ)} {holder : Option Nat}
    {todo : Nat → Program τ} (kept : Kept i h i' holder todo) (m : Move τ)
    (step : m.isReset = false → Ledger i h i' → Ledger i (h ++ [m]) m.after.instrument)
    (holder' : Option Nat) (todo' : Nat → Program τ) :
    Kept i (h ++ [m]) m.after.instrument holder' todo' := by
  obtain ⟨rfl, ledgers⟩ := kept
  refine ⟨(instrumentAfter_snoc i h m).symm, fun p front unreset => ?_⟩
  rcases List.prefix_concat_iff.mp front with rfl | front
  · obtain ⟨before, now⟩ := List.forall_mem_append.mp unreset
    rw [instrumentAfter_snoc]
    exact step (now m List.mem_cons_self) (ledgers h List.prefix_rfl before)
  · exact ledgers p front unreset

/-- Every action and every step keeps what is kept. -/
theorem kept_keeps (i : Instrument τ) : Stage.Keeps (Kept i) fun _ => Kept i where
  begins _ kept := kept
  acts {_ s _ n action _} kept _ _ _ :=
    Kept.snoc kept ⟨.caller n, some action, s, (s.act n action).1⟩
      (fun unreset ledger => ledger_act ledger (fun clears => by subst clears; cases unreset) n)
      _ _
  rests kept _ := kept
  steps {_ s s' n} kept gone :=
    Kept.snoc kept ⟨.loop n, none, s, s'⟩ (fun _ ledger => ledger_step ledger gone) _ _

/-- The ledger of a new instrument is empty. -/
theorem ledger_nil {i : Instrument τ} (new : i.IsNew) : Ledger i [] i where
  accounts := ⟨[], .nil, fun pair mem => absurd mem List.not_mem_nil, List.nil_sublist _, by
    unfold sent
    rw [new.untouched, new.queue]
    exact .nil⟩
  counter := rfl
  tidy := by
    rw [new.queue]
    exact ⟨.nil, fun t mem => absurd mem List.not_mem_nil⟩
  orderly m mem := absurd mem List.not_mem_nil
  untouched _ := ⟨new.loops, by
    unfold sent
    rw [new.untouched]
    rfl⟩
  initial p m q starts := by
    have cut := starts.cut
    cases p <;> cases cut
  losesNothing := losesNothing_of_carriesAll
  arrives _ _ := by
    rw [new.untouched]
    exact fun d mem => absurd mem List.not_mem_nil

/-- **Up to the first reset all is delivered.**  Any number of callers do anything with a new
instrument, and any turns are taken: at each point of the run before which nobody has reset, nothing
that was scheduled is lost or sent twice, and all was sent in order and not before its time. -/
theorem delivers_until_reset (programs : List (Program τ)) {i : Instrument τ} (new : i.IsNew)
    (now : τ) (turns : List (Turn τ)) {p : List (Move τ)}
    (front : p <+: (Stage.staffed now i programs).moves turns)
    (unreset : ∀ m ∈ p, m.isReset = false) : Delivers i p (instrumentAfter i p) := by
  have start : Kept i [] i none fun _ => [] := by
    refine ⟨rfl, fun p front _ => ?_⟩
    rw [List.prefix_nil.mp front]
    exact ledger_nil new
  obtain ⟨-, ledgers⟩ :=
    Stage.moves_invariant (kept_keeps i) (s := Stage.staffed now i programs) start turns
  exact (ledgers p front unreset).delivers

end Ordered

/-- Two notes of one pitch, the second one first, and a note that fits no message. -/
def backToBack : Program Rat :=
  [.schedule ⟨⟨.c, 0, 4⟩, 1, 1, 0.5⟩, .schedule ⟨⟨.c, 0, 4⟩, 0, 1, 0.5⟩,
    .schedule ⟨⟨.c, 0, 40⟩, 0, 1, 0.5⟩, .cancel, .launch]

/-- A first loop strikes a note and is cancelled by another start; a second one is woken late. -/
def restarted : List (Turn Rat) :=
  [.of (.caller 0), .of (.loop 0), .clock (1 / 2), .of (.caller 1), .of (.loop 0),
    .of (.caller 1), .of (.loop 1), .clock 7, .of (.loop 1)]

/-- Across a restart all is delivered: the note that is struck again is released first. -/
theorem delivers_until_reset_restarted :
    let moves := (Stage.staffed 0 justOpened [backToBack, Call.actions .start]).moves restarted
    justOpened.IsNew ∧ (∀ m ∈ moves, m.isReset = false) ∧
      (moves.filterMap Move.accepted?).length = 2 ∧
      ((instrumentAfter justOpened moves).sent.map fun t => (t.serial, t.isStrike)) =
        [(2, true), (3, false), (0, true), (1, false)] ∧
      Delivers justOpened moves (instrumentAfter justOpened moves) := by
  have unreset : ∀ m ∈ (Stage.staffed 0 justOpened [backToBack, Call.actions .start]).moves
      restarted, m.isReset = false := by
    decide +kernel
  refine ⟨isNew_justOpened, unreset, ?_, ?_, ?_⟩
  · decide +kernel
  · decide +kernel
  · exact delivers_until_reset [backToBack, Call.actions .start] isNew_justOpened 0 restarted
      List.prefix_rfl unreset

end Keysong
