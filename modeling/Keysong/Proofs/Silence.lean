import Keysong.Proofs.Hearing
import Keysong.Proofs.Moves

/-!
# Resets leave silence

Any number of callers schedule, start, reset and close one instrument, without a lock that keeps
them apart, while its loops play.  Still the instrument knows at any time which notes are heard to
sound, and whoever resets or closes it leaves it silent: nothing sounds, nothing is queued, and no
loop is left that could play.

## Main Definitions

* `Demand` — a call, or to close the output
* `IsWhole`, `Poised` — the programs of which a caller may stop before any action, and what it may
  have left to do while it runs
* `Watched` — a loop that may not play any more has ended, or somebody waits for it
* `Stage.IsSilent`, `Move.IsHonest` — what holds at the end of a reset, and after every move

## Main Statements

* `honest_keeps` — every action and every step keeps an instrument truthful and its loops watched
* `resets_leave_silence` — all moves of a run are honest, and the output is closed once at most

### Who is in between

A caller that has cancelled the loop that counted goes on at once, to clear the instrument or to
launch a new loop, and nobody else comes in between.  `Poised` is therefore about the caller that
runs, and `IsWhole` about all who wait: they have not begun what they have left to do, or they wait
for a loop and will cancel again.
-/

namespace Keysong

open Quantity Instrument

variable {τ : Type}

/-! ## Demands -/

/-- What a caller asks of an instrument that it drives by itself. -/
inductive Demand (τ : Type) where
  | call (call : Call τ)
  /-- Reset the instrument and close its output. -/
  | close

namespace Demand

/-- The actions of a demand. -/
def actions : Demand τ → Program τ
  | call c => c.actions
  | close => closeProgram

/-- The actions of a row of demands, one after the other. -/
def program (demands : List (Demand τ)) : Program τ := demands.flatMap actions

end Demand

/-! ## What callers have left to do -/

/-- Whether an action may stand anywhere in a program. -/
def Action.isPlain : Action τ → Bool
  | .cancel | .clear | .launch | .closeOutput => false
  | _ => true

/-- Programs that clear and launch only behind a cancelling, and close the output only behind a
clearing. -/
inductive IsWhole : Program τ → Prop where
  | nil : IsWhole []
  | plain {action : Action τ} {rest : Program τ} (plain : action.isPlain = true)
    (whole : IsWhole rest) : IsWhole (action :: rest)
  | start {rest : Program τ} (whole : IsWhole rest) : IsWhole (.cancel :: .launch :: rest)
  | reset {rest : Program τ} (whole : IsWhole rest) : IsWhole (.cancel :: .clear :: rest)
  | close {rest : Program τ} (whole : IsWhole rest) :
    IsWhole (.cancel :: .clear :: .closeOutput :: rest)

/-- What is salvaged of a whole program is whole. -/
theorem IsWhole.salvage {program : Program τ} (whole : IsWhole program) :
    IsWhole (salvage program) := by
  induction whole with
  | nil => exact .nil
  | @plain action rest plain whole ih =>
    cases action with
    | anyway => exact whole
    | cancel | clear | launch | closeOutput => cases plain
    | _ => exact ih
  | start _ ih | reset _ ih | close _ ih => exact ih

theorem isWhole_program (demands : List (Demand τ)) : IsWhole (Demand.program demands) := by
  induction demands with
  | nil => exact .nil
  | cons demand demands ih =>
    have rest : IsWhole (demands.flatMap Demand.actions) := ih
    unfold Demand.program
    rw [List.flatMap_cons]
    cases demand with
    | close => exact .close rest
    | call c =>
      cases c with
      | reset => exact .reset rest
      | schedule note => exact .plain rfl rest
      | start => exact .start rest

/-- The instrument is cleared, and nothing else was done since. -/
structure Instrument.IsCleared (i : Instrument τ) : Prop where
  queue : i.queue = []
  sounding : i.sounding = []
  muted : i.IsOver

/-- What a caller may have left to do while it runs. -/
inductive Poised (i : Instrument τ) : Program τ → Prop where
  | whole {rest : Program τ} (whole : IsWhole rest) : Poised i rest
  | launching {rest : Program τ} (idle : i.current = none) (whole : IsWhole rest) :
    Poised i (.launch :: rest)
  | clearing {rest : Program τ} (idle : i.current = none) (whole : IsWhole rest) :
    Poised i (.clear :: rest)
  | clearingToClose {rest : Program τ} (idle : i.current = none) (whole : IsWhole rest) :
    Poised i (.clear :: .closeOutput :: rest)
  | closing {rest : Program τ} (idle : i.current = none) (cleared : i.IsCleared)
    (whole : IsWhole rest) : Poised i (.closeOutput :: rest)

/-! ## Who waits for a loop -/

/-- Some caller waits for a loop. -/
def IsJoined (todo : Nat → Program τ) (k : Nat) : Prop := ∃ n rest, todo n = .join k :: rest

/-- A loop has ended, or it is the one that counts, or it is cancelled and somebody waits for it. -/
def Watched (i : Instrument τ) (todo : Nat → Program τ) : Prop :=
  ∀ k l, i.loop? k = some l → l.isEnded = true ∨ (l.cancelled = false ∧ i.current = some k) ∨
    (l.cancelled = true ∧ IsJoined todo k)

/-- Whoever waits for a loop goes on waiting when another caller gets on. -/
theorem IsJoined.update {todo : Nat → Program τ} {k n : Nat} (joined : IsJoined todo k)
    (other : ∀ rest, todo n ≠ .join k :: rest) (program : Program τ) :
    ∃ m rest, m ≠ n ∧ Function.update todo n program m = .join k :: rest := by
  obtain ⟨m, rest, here⟩ := joined
  have notSame : m ≠ n := by
    rintro rfl
    exact other rest here
  exact ⟨m, rest, notSame, by rw [Function.update_of_ne notSame, here]⟩

section Watching

variable {i i' : Instrument τ} {todo : Nat → Program τ} {n : Nat} {action : Action τ}
  {rest program : Program τ}

/-- Loops stay watched when a caller gets on that did not wait for a loop that goes on. -/
theorem Watched.update (watched : Watched i todo) (loops : i'.loops = i.loops)
    (current : i'.current = i.current) (here : todo n = action :: rest)
    (settled : ∀ k, action = .join k → i.loopEnded k = true) :
    Watched i' (Function.update todo n program) := by
  intro k l found
  have found : i.loop? k = some l := by
    unfold loop? at found ⊢
    rwa [loops] at found
  rw [current]
  rcases watched k l found with ended | counts | ⟨cancelled, joined⟩
  · exact Or.inl ended
  · exact Or.inr (Or.inl counts)
  · by_cases mine : action = .join k
    · have ended := settled k mine
      unfold loopEnded at ended
      rw [found] at ended
      exact Or.inl ended
    · have other : ∀ rest', todo n ≠ .join k :: rest' := by
        intro rest' same
        exact mine (List.cons.inj (here.symm.trans same)).1
      obtain ⟨m, rest', -, still⟩ := joined.update other program
      exact Or.inr (Or.inr ⟨cancelled, m, rest', still⟩)

/-- Launching a loop keeps the loops watched, if none counted. -/
theorem Watched.launch [Quantity τ] (watched : Watched i todo) (idle : i.current = none) (now : τ)
    (here : todo n = .launch :: rest) :
    Watched (i.launch now) (Function.update todo n program) := by
  intro k l found
  rcases loop?_of_append (i := i) rfl found with old | ⟨rfl, rfl⟩
  · rcases watched k l old with ended | ⟨-, counts⟩ | ⟨cancelled, joined⟩
    · exact Or.inl ended
    · rw [idle] at counts
      cases counts
    · have other : ∀ rest', todo n ≠ .join k :: rest' := by
        intro rest' same
        cases here.symm.trans same
      obtain ⟨m, rest', -, still⟩ := joined.update other program
      exact Or.inr (Or.inr ⟨cancelled, m, rest', still⟩)
  · exact Or.inr (Or.inl ⟨rfl, rfl⟩)

/-- Cancelling keeps the loops watched: the loop that counted is marked, and waited for. -/
theorem Watched.cancel [Quantity τ] {s s' : Stage τ} {goes : Stage.Next τ}
    (watched : Watched s.instrument todo) (here : todo n = .cancel :: rest)
    (cancelling : Stage.Cancelling s s' goes) :
    Watched s'.instrument (Function.update todo n (goes.program rest)) := by
  have notJoining : ∀ k, (Action.cancel : Action τ) = .join k → s.instrument.loopEnded k = true :=
    nofun
  cases cancelling with
  | idle current => exact watched.update rfl rfl here notJoining
  | @ended k current ceased =>
    intro j l found
    have kept : Watched s.instrument (Function.update todo n rest) :=
      watched.update rfl rfl here notJoining
    rcases kept j l found with ended | ⟨-, counts⟩ | joined
    · exact Or.inl ended
    · obtain rfl : k = j := Option.some.inj (current.symm.trans counts)
      unfold loopEnded at ceased
      rw [show s.instrument.loop? k = some l from found] at ceased
      exact Or.inl ceased
    · exact Or.inr (Or.inr joined)
  | @live k live current counting going =>
    intro j l found
    rcases loop?_of_set (i := s.instrument) rfl found with ⟨rfl, rfl⟩ | ⟨other, found⟩
    · exact Or.inr (Or.inr ⟨rfl, n, .cancel :: rest, Function.update_self n _ todo⟩)
    · have kept : Watched s.instrument
          (Function.update todo n (.join k :: .cancel :: rest)) :=
        watched.update rfl rfl here notJoining
      rcases kept j l found with ended | ⟨-, counts⟩ | joined
      · exact Or.inl ended
      · exact absurd (Option.some.inj (counts.symm.trans current)) other
      · exact Or.inr (Or.inr joined)

/-- A step of a loop keeps the loops watched: a cancelled loop ends. -/
theorem Watched.steps [Quantity τ] {s s' : Stage τ} {l : Loop τ} {played : List (Signal τ)}
    (watched : Watched s.instrument todo) (steps : Stage.Steps n l played s s') :
    Watched s'.instrument todo := by
  intro k l' found
  rw [steps.current]
  obtain ⟨phase, loops, ends, -⟩ := steps.loops
  rcases loop?_of_set loops found with ⟨rfl, rfl⟩ | ⟨-, found⟩
  · rcases watched k l steps.here with ended | counts | ⟨cancelled, -⟩
    · rw [steps.going] at ended
      cases ended
    · exact Or.inr (Or.inl counts)
    · exact Or.inl (isEnded_iff.mpr (ends cancelled))
  · exact watched k l' found

end Watching

/-! ## Silence -/

/-- Nothing sounds, nothing is queued and nobody can play: what a party leaves behind that resets
an instrument. -/
structure Stage.IsSilent (s : Stage τ) (party : Party) : Prop where
  sounding : s.instrument.sounding = []
  queue : s.instrument.queue = []
  current : s.instrument.current = none
  /-- A loop that has not ended is cancelled, and another caller waits for it. -/
  loops : ∀ k l, s.instrument.loop? k = some l → l.isEnded = true ∨
    l.cancelled = true ∧ ∃ n rest, .caller n ≠ party ∧ s.todo n = .join k :: rest
  /-- Every note that was ever touched was released last. -/
  released : ∀ note, Midi.touches note s.instrument.heard ≠ [] →
    (Midi.touches note s.instrument.heard).getLast? = some false
  allOff : s.instrument.heard.getLast? =
    some (.control s.instrument.channel Midi.allNotesOff Midi.noStrength)

/-- What holds after every move. -/
structure Move.IsHonest (m : Move τ) : Prop where
  /-- As long as the output is open, the notes that sound are those that were struck last. -/
  sounds : m.after.instrument.output.isSome = true → ∀ note,
    note ∈ m.after.instrument.sounding ↔
      (Midi.touches note m.after.instrument.heard).getLast? = some true
  /-- A reset leaves silence. -/
  cleared : m.action = some .clear → m.after.IsSilent m.party
  /-- So does closing, and the output is closed. -/
  closed : m.action = some .closeOutput →
    m.after.IsSilent m.party ∧ m.after.instrument.output = none

theorem Instrument.IsOver.released_of_ne_nil {i : Instrument τ} (muted : i.IsOver)
    {note : Midi.Data} (touched : Midi.touches note i.heard ≠ []) :
    (Midi.touches note i.heard).getLast? = some false := by
  cases last : (Midi.touches note i.heard).getLast? with
  | none => exact absurd (List.getLast?_eq_none_iff.mp last) touched
  | some struck =>
    cases struck with
    | false => rfl
    | true => exact absurd last (muted.released note)

/-- What is cleared is silent, if its loops were watched and the caller that cleared it waited for
none. -/
theorem isSilent_of_isCleared {i : Instrument τ} {todo : Nat → Program τ} {s : Stage τ} {n : Nat}
    {action : Action τ} {rest : Program τ} (watched : Watched i todo) (idle : i.current = none)
    (here : todo n = action :: rest) (notJoining : ∀ k, action ≠ .join k)
    (others : ∀ k, k ≠ n → s.todo k = todo k) (cleared : s.instrument.IsCleared)
    (loops : s.instrument.loops = i.loops) (current : s.instrument.current = i.current) :
    s.IsSilent (.caller n) where
  sounding := cleared.sounding
  queue := cleared.queue
  current := current.trans idle
  released _ touched := cleared.muted.released_of_ne_nil touched
  allOff := cleared.muted.allOff
  loops := by
    intro k l found
    have found : i.loop? k = some l := by
      unfold loop? at found ⊢
      rwa [loops] at found
    rcases watched k l found with ended | ⟨-, counts⟩ | ⟨cancelled, m, rest', waits⟩
    · exact Or.inl ended
    · rw [idle] at counts
      cases counts
    · have other : m ≠ n := by
        rintro rfl
        exact notJoining k (List.cons.inj (here.symm.trans waits)).1
      exact Or.inr ⟨cancelled, m, rest', fun same => other (Party.caller.inj same),
        (others m other).trans waits⟩

/-! ## The invariant -/

variable [Quantity τ]

section Invariant

variable {s : Stage τ} {todo : Nat → Program τ} {n : Nat} {action : Action τ} {rest : Program τ}

/-- Whatever neither clears nor closes keeps an instrument truthful. -/
theorem isTruthful_act (truthful : s.instrument.IsTruthful) (action : Action τ)
    (notClear : action ≠ .clear) (notClose : action ≠ .closeOutput) (n : Nat) :
    (s.act n action).1.instrument.IsTruthful := by
  have same := Stage.soundsAs_act notClear notClose n s
  exact truthful.quietly
    (Tells.quietly truthful.losesNothing same.channel same.output same.deeds) same.sounding

/-- Behind an action that may stand anywhere, what is left to do is whole. -/
theorem isWhole_act (plain : action.isPlain = true) (whole : IsWhole rest) (n : Nat) :
    IsWhole ((s.act n action).2.program rest) := by
  cases action with
  | cancel => cases plain
  | clear => cases plain
  | launch => cases plain
  | closeOutput => cases plain
  | attend =>
    dsimp only [Stage.act]
    split
    · exact whole
    · split
      · exact whole
      · exact .plain rfl whole
  | schedule note =>
    rcases Stage.program_act_schedule n s note rest with same | same
    · rwa [same]
    · rw [same]
      exact whole.salvage
  | _ => exact whole

omit [Quantity τ] in
/-- Behind a cancelling that goes on no loop counts. -/
theorem poised_cancel {s' : Stage τ} {goes : Stage.Next τ}
    (cancelling : Stage.Cancelling s s' goes) (whole : IsWhole (.cancel :: rest))
    (onward : s'.instrument.current = none → Poised s'.instrument rest) :
    Poised s'.instrument (goes.program rest) := by
  cases cancelling with
  | idle current => exact onward current
  | ended current ceased => exact onward rfl
  | live current here going => exact .whole (.plain rfl whole)

/-- What holds between turns: the instrument is truthful and its loops are watched, everybody waits
where it may, and all moves up to now were honest. -/
def Honest : Stage.Condition τ := fun moves i _ todo =>
  i.IsTruthful ∧ Watched i todo ∧ (∀ n, IsWhole (todo n)) ∧ ∀ m ∈ moves, m.IsHonest

/-- What holds while a caller runs. -/
def HonestAmid (n : Nat) : Stage.Condition τ := fun moves i _ todo =>
  i.IsTruthful ∧ Watched i todo ∧ (∀ k, k ≠ n → IsWhole (todo k)) ∧ Poised i (todo n) ∧
    ∀ m ∈ moves, m.IsHonest

omit [Quantity τ] in
/-- A move that neither clears nor closes is honest if it leaves the instrument truthful. -/
theorem isHonest_of_isTruthful {m : Move τ} (truthful : m.after.instrument.IsTruthful)
    (notClear : m.action ≠ some .clear) (notClose : m.action ≠ some .closeOutput) :
    m.IsHonest where
  sounds := truthful.sounds
  cleared clears := absurd clears notClear
  closed closes := absurd closes notClose

/-- What an action of a caller leaves behind, in terms of the stage after it. -/
structure Acts (n : Nat) (s : Stage τ) (action : Action τ) (todo : Nat → Program τ)
    (rest : Program τ) : Prop where
  truthful : (s.act n action).1.instrument.IsTruthful
  watched : Watched (s.act n action).1.instrument
    (Function.update todo n ((s.act n action).2.program rest))
  poised : Poised (s.act n action).1.instrument ((s.act n action).2.program rest)
  honest : (⟨.caller n, some action, s, (s.act n action).1⟩ : Move τ).IsHonest

variable (truthful : s.instrument.IsTruthful) (watched : Watched s.instrument todo)
  (others : ∀ k, k ≠ n → s.todo k = todo k) (here : todo n = action :: rest)

include truthful watched here

theorem acts_plain (plain : action.isPlain = true) (whole : IsWhole rest)
    (free : s.blocks action = false) : Acts n s action todo rest := by
  have notCancel : action ≠ .cancel := by
    rintro rfl
    cases plain
  have notLaunch : action ≠ .launch := by
    rintro rfl
    cases plain
  have notClear : action ≠ .clear := by
    rintro rfl
    cases plain
  have notClose : action ≠ .closeOutput := by
    rintro rfl
    cases plain
  have truthful' := isTruthful_act truthful action notClear notClose n
  obtain ⟨loops, current⟩ := Stage.loops_act notCancel notLaunch n s
  refine ⟨truthful', watched.update loops current here fun k joins => ?_,
    .whole (isWhole_act plain whole n), isHonest_of_isTruthful truthful'
      (fun clears => notClear (Option.some.inj clears))
      fun closes => notClose (Option.some.inj closes)⟩
  -- Who waits for a loop goes on only if it has ended.
  subst joins
  exact (Bool.not_eq_false' _).mp free

omit here in
theorem acts_cancel (here : todo n = .cancel :: rest) (whole : IsWhole (.cancel :: rest))
    (onward : ∀ i : Instrument τ, i.current = none → Poised i rest) :
    Acts n s .cancel todo rest := by
  have cancelling := Stage.cancelling_act n s
  have truthful' : (s.act n .cancel).1.instrument.IsTruthful :=
    isTruthful_act truthful .cancel nofun nofun n
  exact ⟨truthful', watched.cancel here cancelling,
    poised_cancel cancelling whole fun idle => onward _ idle,
    isHonest_of_isTruthful truthful' nofun nofun⟩

omit here in
theorem acts_launch (here : todo n = .launch :: rest) (idle : s.instrument.current = none)
    (whole : IsWhole rest) : Acts n s .launch todo rest := by
  have truthful' : (s.act n .launch).1.instrument.IsTruthful :=
    isTruthful_act truthful .launch nofun nofun n
  exact ⟨truthful', watched.launch idle s.now here, .whole whole,
    isHonest_of_isTruthful truthful' nofun nofun⟩

omit here in
include others in
theorem acts_clear (here : todo n = .clear :: rest) (idle : s.instrument.current = none)
    (onward : (s.instrument.clear s.now).current = none →
      (s.instrument.clear s.now).IsCleared → Poised (s.instrument.clear s.now) rest) :
    Acts n s .clear todo rest := by
  obtain ⟨truthful', sounding, muted⟩ := isTruthful_clear truthful s.now
  obtain ⟨deeds, sent, -⟩ := sends_clear s.now s.instrument
  have cleared : (s.instrument.clear s.now).IsCleared := ⟨sent.queue, sounding, muted⟩
  have silent : (s.act n .clear).1.IsSilent (.caller n) :=
    isSilent_of_isCleared watched idle here (fun _ => nofun)
      (fun k other => (congrFun (Stage.todo_act n s .clear) k).trans (others k other)) cleared
      sent.loops sent.current
  exact ⟨truthful', watched.update sent.loops sent.current here (fun _ => nofun),
    onward (sent.current.trans idle) cleared, truthful'.sounds, fun _ => silent, nofun⟩

omit here in
include others in
theorem acts_closeOutput (here : todo n = .closeOutput :: rest)
    (idle : s.instrument.current = none) (cleared : s.instrument.IsCleared)
    (whole : IsWhole rest) : Acts n s .closeOutput todo rest := by
  obtain ⟨truthful', muted, closed⟩ := isTruthful_closeOutput truthful cleared.muted
  have notCancel : (Action.closeOutput : Action τ) ≠ .cancel := nofun
  have notLaunch : (Action.closeOutput : Action τ) ≠ .launch := nofun
  have notClear : (Action.closeOutput : Action τ) ≠ .clear := nofun
  have notSchedule : ∀ note, (Action.closeOutput : Action τ) ≠ .schedule note := fun _ => nofun
  have same : s.instrument.closeOutput.loops = s.instrument.loops ∧
      s.instrument.closeOutput.current = s.instrument.current :=
    Stage.loops_act notCancel notLaunch n s
  have queue : s.instrument.closeOutput.queue = s.instrument.queue :=
    (Stage.queue_act notClear notSchedule n s).1
  have sounding : s.instrument.closeOutput.sounding = s.instrument.sounding := by
    unfold closeOutput
    split <;> rfl
  have cleared' : s.instrument.closeOutput.IsCleared :=
    ⟨queue.trans cleared.queue, sounding.trans cleared.sounding, muted⟩
  have silent : (s.act n .closeOutput).1.IsSilent (.caller n) :=
    isSilent_of_isCleared watched idle here (fun _ => nofun)
      (fun k other => (congrFun (Stage.todo_act n s .closeOutput) k).trans (others k other))
      cleared' same.1 same.2
  exact ⟨truthful', watched.update same.1 same.2 here (fun _ => nofun), .whole whole,
    truthful'.sounds, nofun, fun _ => ⟨silent, closed⟩⟩

include others in
/-- **Every action of a caller that is poised leaves it poised**, and is honest. -/
theorem acts_of_poised (poised : Poised s.instrument (todo n)) (free : s.blocks action = false) :
    Acts n s action todo rest := by
  have left := here
  generalize todo n = program at poised left
  cases poised with
  | whole whole =>
    subst left
    cases whole with
    | plain plain whole => exact acts_plain truthful watched here plain whole free
    | start whole =>
      exact acts_cancel truthful watched here (.start whole) fun _ idle => .launching idle whole
    | reset whole =>
      exact acts_cancel truthful watched here (.reset whole) fun _ idle => .clearing idle whole
    | close whole =>
      exact acts_cancel truthful watched here (.close whole) fun _ idle =>
        .clearingToClose idle whole
  | launching idle whole =>
    obtain ⟨rfl, rfl⟩ := List.cons.inj left
    exact acts_launch truthful watched here idle whole
  | clearing idle whole =>
    obtain ⟨rfl, rfl⟩ := List.cons.inj left
    exact acts_clear truthful watched others here idle fun _ _ => .whole whole
  | clearingToClose idle whole =>
    obtain ⟨rfl, rfl⟩ := List.cons.inj left
    exact acts_clear truthful watched others here idle fun idle cleared =>
      .closing idle cleared whole
  | closing idle cleared whole =>
    obtain ⟨rfl, rfl⟩ := List.cons.inj left
    exact acts_closeOutput truthful watched others here idle cleared whole

end Invariant

/-- **Every action and every step keeps an instrument truthful and its loops watched.** -/
theorem honest_keeps : Stage.Keeps (τ := τ) Honest HonestAmid where
  begins n holds := by
    obtain ⟨truthful, watched, whole, honest⟩ := holds
    exact ⟨truthful, watched, fun k _ => whole k, .whole (whole n), honest⟩
  acts := by
    rintro h s todo n action rest ⟨truthful, watched, whole, poised, honest⟩ others here free
    have acts := acts_of_poised truthful watched others here poised free
    refine ⟨acts.truthful, acts.watched, fun k other => ?_, ?_,
      List.forall_mem_append.mpr ⟨honest, List.forall_mem_singleton.mpr acts.honest⟩⟩
    · rw [Function.update_of_ne other]
      exact whole k other
    · rw [Function.update_self]
      exact acts.poised
  rests := by
    rintro h s todo n ⟨truthful, watched, whole, poised, honest⟩ stuck
    refine ⟨truthful, watched, fun k => ?_, honest⟩
    rcases eq_or_ne k n with rfl | other
    · -- A caller is never stopped before it clears, launches or closes.
      generalize left : todo k = program at poised
      cases poised with
      | whole whole => exact whole
      | launching idle whole => cases stuck _ _ left
      | clearing idle whole => cases stuck _ _ left
      | clearingToClose idle whole => cases stuck _ _ left
      | closing idle cleared whole => cases stuck _ _ left
    · exact whole k other
  steps := by
    rintro h s s' n ⟨truthful, watched, whole, honest⟩ gone
    obtain ⟨l, played, steps⟩ := Stage.exists_steps gone
    have truthful' : s'.instrument.IsTruthful := by
      obtain ⟨l, here, ready, rfl⟩ := Stage.go?_loop gone
      exact isTruthful_stepLoop truthful s.now n
    exact ⟨truthful', watched.steps steps, whole, List.forall_mem_append.mpr ⟨honest,
      List.forall_mem_singleton.mpr (isHonest_of_isTruthful truthful' nofun nofun)⟩⟩

omit [Quantity τ] in
/-- A new instrument on an output that loses nothing is truthful. -/
theorem Instrument.IsNew.isTruthful {i : Instrument τ} (new : i.IsNew) (carries : i.CarriesAll) :
    i.IsTruthful := by
  have nothing : i.heard = [] := by
    unfold heard
    rw [new.untouched]
    rfl
  have losesNothing := losesNothing_of_carriesAll carries
  obtain ⟨output, isOpen, -⟩ := carries
  refine ⟨losesNothing, ?_, fun _ note => ?_, fun closed => ?_, Or.inl ⟨?_, ?_⟩⟩
  · rw [new.silent]
    exact List.Pairwise.nil
  · rw [new.silent, nothing]
    exact ⟨fun mem => absurd mem List.not_mem_nil, nofun⟩
  · cases isOpen.symm.trans closed
  · rw [isOpen]
    rfl
  · rw [new.untouched]
    exact fun d mem => absurd mem List.not_mem_nil

/-- **Resets leave silence.**  Any number of callers schedule, start, reset and close a new
instrument on an output that loses nothing, and any turns are taken: after every move the notes
that sound are those that are heard, every reset and every closing leaves silence, and the output is
closed at most once and nothing is heard since. -/
theorem resets_leave_silence (demands : List (List (Demand τ))) {i : Instrument τ} (new : i.IsNew)
    (carries : i.CarriesAll) (now : τ) (turns : List (Turn τ)) :
    let s := Stage.staffed now i (demands.map Demand.program)
    (∀ m ∈ s.moves turns, m.IsHonest) ∧ (s.run turns).instrument.ClosesOnce := by
  intro s
  have whole : ∀ n, IsWhole (s.todo n) := by
    intro n
    show IsWhole ((Stage.staffed now i (demands.map Demand.program)).todo n)
    rw [Stage.todo_staffed, List.getElem?_map]
    cases demands[n]? with
    | none => exact .nil
    | some row => exact isWhole_program row
  have watched : Watched s.instrument s.todo := by
    intro k l found
    change i.loops[k]? = some l at found
    rw [new.loops] at found
    cases found
  have start : Honest [] s.instrument s.holder s.todo :=
    ⟨new.isTruthful carries, watched, whole, fun m mem => absurd mem List.not_mem_nil⟩
  obtain ⟨truthful, -, -, honest⟩ := Stage.moves_invariant honest_keeps start turns
  exact ⟨honest, truthful.closesOnce⟩

/-- A player whose notes overlap, one who resets and closes twice, and two who play on. -/
def quarrel : List (List (Demand Rat)) :=
  let note : ScheduledNote Rat := ⟨⟨.c, 0, 4⟩, 0, 1, 0.5⟩
  [[.call (.schedule note), .call (.schedule note), .call .start],
    [.call .reset, .close, .close],
    [.call (.schedule note), .call .start],
    [.call (.schedule note), .call .start]]

/-- A first loop has struck when a reset cancels it; a second one is launched meanwhile and
cancelled as well, and a third one plays on the closed output. -/
def interleaved : List (Turn Rat) :=
  [.of (.caller 0), .of (.loop 0), .of (.caller 1), .of (.caller 2), .of (.loop 0),
    .of (.caller 1), .of (.loop 1), .of (.caller 1), .of (.caller 3), .of (.loop 2)]

/-- The quarrel ends in silence: a note that was struck twice is released once, and the output is
closed once though it was asked for twice. -/
theorem resets_leave_silence_quarrel :
    let s := Stage.staffed 0 justOpened (quarrel.map Demand.program)
    (justOpened.IsNew ∧ justOpened.CarriesAll) ∧
      Midi.touches 60 (s.run interleaved).instrument.heard = [true, true, false] ∧
      (s.run interleaved).instrument.output.isNone = true ∧
      (∀ m ∈ s.moves interleaved, m.IsHonest) ∧ (s.run interleaved).instrument.ClosesOnce := by
  refine ⟨⟨isNew_justOpened, carriesAll_justOpened⟩, ?_, ?_, ?_⟩
  · decide +kernel
  · decide +kernel
  · exact resets_leave_silence quarrel isNew_justOpened carriesAll_justOpened 0 interleaved

end Keysong
