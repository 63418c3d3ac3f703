import Keysong.Proofs.Hearing
import Keysong.Proofs.Incidents
import Keysong.Proofs.Moves

/-!
# Strikes and releases in turn

A melody that is played on an instrument of its own may be interrupted at any moment.  Still, what
reaches the output strikes and releases each note in turn, a strike first and a release last.

## Main Definitions

* `Alternates` — a row of touches that strike and release in turn
* `Instrument.IsBalanced` — what was heard of each note and what is queued of it alternates
* `Leaves` — a caller that will clear the instrument and close its output
* `Parting` — what holds from the first turn of a performance on
* `Departs` — a caller goes on like one that leaves

## Main Statements

* `alternates_inOrder` — the cues of a row of events alternate, in the order in which they go out
* `parting_keeps` — every action and every step keeps what is heard and queued balanced
* `notes_alternate` — whenever a performance is over, each note was struck and released in turn

### Why ties do no harm

A note that is struck again at once is released at the position at which it is struck.  Releases go
out before strikes there, so the cues of a note are in order as they arrive, whatever else is struck
and released at the same time.

A melody may also be refused in the middle, for a pitch that is too long to be written, and then a
part of it is queued.  No loop has been launched by then, so nothing of that part is heard, and the
queue is emptied on the way out.
-/

namespace Keysong

open Quantity Instrument

/-! ## Alternation -/

/-- A row of touches that strike and release in turn; it leads from whether a note sounds to whether
it sounds in the end. -/
inductive Alternates : Bool → List Bool → Bool → Prop where
  | nil (sounds : Bool) : Alternates sounds [] sounds
  | cons {sounds ends : Bool} {rest : List Bool} (others : Alternates (!sounds) rest ends) :
    Alternates sounds ((!sounds) :: rest) ends

namespace Alternates

theorem append {a b c : Bool} {first others : List Bool} (h : Alternates a first b)
    (h' : Alternates b others c) : Alternates a (first ++ others) c := by
  induction h with
  | nil => exact h'
  | cons _ ih => exact (ih h').cons

/-- A front part alternates as well. -/
theorem exists_front {a c : Bool} {first others : List Bool}
    (h : Alternates a (first ++ others) c) : ∃ b, Alternates a first b := by
  induction first generalizing a with
  | nil => exact ⟨a, .nil a⟩
  | cons touch rest ih =>
    cases h with
    | cons h =>
      obtain ⟨b, h'⟩ := ih h
      exact ⟨b, h'.cons⟩

/-- Whether a note sounds in the end is told by what touched it last. -/
theorem getLast? {a b : Bool} {touches : List Bool} (h : Alternates a touches b) :
    touches.getLast?.getD a = b := by
  induction h with
  | nil => rfl
  | @cons sounds ends rest others ih =>
    rw [List.getLast?_cons, Option.getD_some]
    exact ih

theorem exists_replicate_aux {a b : Bool} {touches : List Bool} (h : Alternates a touches b)
    (silent : b = false) :
    ∃ k, (if a then true :: touches else touches) = (List.replicate k [true, false]).flatten := by
  induction h with
  | nil sounds =>
    subst silent
    exact ⟨0, rfl⟩
  | @cons sounds ends rest others ih =>
    obtain ⟨k, same⟩ := ih silent
    cases sounds with
    | false => exact ⟨k, same⟩
    | true =>
      refine ⟨k + 1, ?_⟩
      rw [List.replicate_succ, List.flatten_cons, ← same]
      rfl

/-- From silence to silence a note is struck and released some number of times. -/
theorem exists_replicate {touches : List Bool} (h : Alternates false touches false) :
    ∃ k, touches = (List.replicate k [true, false]).flatten :=
  exists_replicate_aux h rfl

end Alternates

/-! ## The cues of a note -/

theorem eq_of_noteOf? {m n : Int} {note : Midi.Data} (first : Midi.noteOf? m = some note)
    (second : Midi.noteOf? n = some note) : m = n := by
  unfold Midi.noteOf? at first second
  split at first
  · split at second
    · have same := (Option.some.inj first).trans (Option.some.inj second).symm
      have value := congrArg Fin.val same
      dsimp only at value
      omega
    · cases second
  · cases first

/-- The notes of an event that strikes every number at most once are different. -/
theorem Event.nodup_keys {e : Event} (distinct : (e.pitches.map Pitch.number).Nodup) :
    e.keys.Nodup := by
  unfold Event.keys
  have once := distinct.filterMap (f := Midi.noteOf?) fun _ _ _ first second =>
    eq_of_noteOf? first second
  rwa [List.filterMap_map] at once

/-- Of notes that are struck together, each has one strike and one release. -/
theorem filter_cuesOf (start stop : Nat) (strength : Midi.Data) (serial : Nat)
    {notes : List Midi.Data} (distinct : notes.Nodup) (note : Midi.Data) :
    (cuesOf start stop strength serial notes).filter (fun c => c.note = note) = [] ∨
      ∃ k, (cuesOf start stop strength serial notes).filter (fun c => c.note = note) =
        [{ position := start, isStrike := true, serial := k, note, strength },
          { position := stop, isStrike := false, serial := k + 1, note
            strength := Midi.noStrength }] := by
  induction notes generalizing serial with
  | nil => exact Or.inl rfl
  | cons n rest ih =>
    obtain ⟨unseen, distinct'⟩ := List.nodup_cons.mp distinct
    rw [cuesOf, List.filter_cons, List.filter_cons]
    by_cases same : n = note
    · subst same
      -- The note does not come again.
      have others : (cuesOf start stop strength (serial + 2) rest).filter (fun c => c.note = n) =
          [] := by
        refine List.filter_eq_nil_iff.mpr fun c mem => ?_
        have other : c.note ≠ n := fun same => unseen (same ▸ (of_mem_cuesOf mem).1)
        simpa using other
      rw [others]
      exact Or.inr ⟨serial, by simp⟩
    · simpa [same] using ih (serial + 2) distinct'

/-- **The cues of a note alternate, in the order in which they arrive, and that is the order in
which they go out.** -/
theorem filter_cuesFrom {events : List Event}
    (distinct : ∀ e ∈ events, (e.pitches.map Pitch.number).Nodup) (position serial : Nat)
    (note : Midi.Data) :
    Alternates false
        (((cuesFrom position serial events).filter fun c => c.note = note).map Cue.isStrike) false ∧
      ((cuesFrom position serial events).filter fun c => c.note = note).Pairwise
        fun a b => a.key ≤ b.key := by
  induction events generalizing position serial with
  | nil => exact ⟨.nil false, .nil⟩
  | cons e rest ih =>
    obtain ⟨alternates, sorted⟩ := ih (fun e' mem => distinct e' (List.mem_cons_of_mem e mem))
      (position + e.duration.units) (serial + 2 * e.keys.length)
    have once := Event.nodup_keys (distinct e List.mem_cons_self)
    rw [cuesFrom, List.filter_append, List.map_append]
    rcases filter_cuesOf position (position + e.duration.units) e.strength serial once note with
      none | ⟨k, pair⟩
    · rw [none]
      exact ⟨alternates, sorted⟩
    · rw [pair]
      have long := e.duration.units_pos
      refine ⟨Alternates.append (.cons (.cons (.nil false))) alternates, ?_⟩
      refine List.pairwise_cons.mpr ⟨fun c mem => ?_,
        List.pairwise_cons.mpr ⟨fun c mem => ?_, sorted⟩⟩
      · -- Everything else lies behind the strike.
        refine Cue.key_le_of_position_lt (show position < c.position from ?_)
        rcases List.mem_cons.mp mem with rfl | mem
        · show position < position + e.duration.units
          omega
        · rcases of_mem_cuesFrom (List.mem_filter.mp mem).1 with behind | ⟨there, -⟩ <;> omega
      · rcases of_mem_cuesFrom (List.mem_filter.mp mem).1 with behind | ⟨there, strikes⟩
        · exact Cue.key_le_of_position_lt behind
        · exact Cue.key_le_of_isStrike there rfl strikes

/-- Some cues of a row that are in order already keep their order when the row is put in order. -/
theorem filter_inOrder {cues : List Cue} (distinct : (cues.map Cue.serial).Nodup)
    {p : Cue → Bool} (sorted : (cues.filter p).Pairwise fun a b => a.key ≤ b.key) :
    (inOrder cues).filter p = cues.filter p := by
  have perm : (inOrder cues).Perm cues := List.mergeSort_perm cues _
  exact eq_of_sorted (distinct.sublist (List.filter_sublist.map Cue.serial)) (perm.filter p)
    ((pairwise_inOrder cues).sublist List.filter_sublist) sorted

/-- **What goes out alternates.** -/
theorem alternates_inOrder {events : List Event}
    (distinct : ∀ e ∈ events, (e.pitches.map Pitch.number).Nodup) (note : Midi.Data) :
    Alternates false
      (((inOrder (cuesFrom 0 0 events)).filter fun c => c.note = note).map Cue.isStrike) false := by
  obtain ⟨alternates, sorted⟩ := filter_cuesFrom distinct 0 0 note
  rw [filter_inOrder (nodup_serials_cuesFrom 0 0 events) sorted]
  exact alternates

/-- What the signals of cues do to a note. -/
theorem touches_signals (secondsPerBeat : Rat) (channel : Midi.Channel) (cues : List Cue)
    (note : Midi.Data) :
    Midi.touches note ((cues.map (Cue.signal secondsPerBeat)).map (Signal.message channel)) =
      (cues.filter fun c => c.note = note).map Cue.isStrike := by
  rw [touches_messages, List.filter_map, List.map_map]
  rfl

/-! ## Balanced instruments -/

section Balance

variable {τ : Type}

/-- What was heard of each note and what is queued of it, together, is strikes and releases in
turn, from silence to silence. -/
def Instrument.IsBalanced (i : Instrument τ) : Prop :=
  ∀ note, Alternates false
    (Midi.touches note (i.heard ++ i.queue.map (Signal.message i.channel))) false

/-- Only what is heard and what is queued matters. -/
theorem Instrument.IsBalanced.congr {i i' : Instrument τ} (balanced : i.IsBalanced)
    (channel : i'.channel = i.channel) (heard : i'.heard = i.heard) (queue : i'.queue = i.queue) :
    i'.IsBalanced := by
  intro note
  rw [heard, queue, channel]
  exact balanced note

/-- On an instrument without a queue, what was heard alternates. -/
theorem Instrument.IsBalanced.alternates {i : Instrument τ} (balanced : i.IsBalanced)
    (empty : i.queue = []) (note : Midi.Data) :
    Alternates false (Midi.touches note i.heard) false := by
  have all := balanced note
  rw [empty, List.map_nil, List.append_nil] at all
  exact all

variable [Quantity τ]

/-- What was cut short by clearing an instrument is released. -/
theorem isBalanced_clear {i : Instrument τ} (truthful : i.IsTruthful) (balanced : i.IsBalanced)
    (isOpen : i.output.isSome = true) (now : τ) :
    (i.clear now).IsBalanced ∧ (i.clear now).output.isSome = true ∧ (i.clear now).queue = [] := by
  obtain ⟨deeds, cleared, -⟩ := sends_clear now i
  have empty : (i.clear now).queue = [] := cleared.queue
  let j : Instrument τ := { i with running := false, queue := [], counter := 0, startTime := zero }
  have sent : Tells i.silencing j (i.clear now) := tells_silence (i := j) truthful.losesNothing now
  have heard : (i.clear now).heard = i.heard ++ i.silencing := by
    rw [sent.heard, if_pos isOpen]
    rfl
  refine ⟨fun note => ?_, sent.isOpen.trans isOpen, empty⟩
  have all := balanced note
  rw [Midi.touches_append] at all
  obtain ⟨sounds, front⟩ := all.exists_front
  rw [empty, List.map_nil, List.append_nil, heard, Midi.touches_append,
    touches_silencing truthful.ascending]
  -- The note sounds exactly if it was struck last, and then it is released once.
  have last := front.getLast?
  refine front.append ?_
  by_cases struck : note ∈ i.sounding
  · have struckLast := (truthful.sounds isOpen note).mp struck
    rw [struckLast] at last
    subst last
    rw [if_pos struck]
    exact .cons (.nil false)
  · have released : sounds = false := by
      rw [Bool.eq_false_iff]
      rintro rfl
      cases touched : (Midi.touches note i.heard).getLast? with
      | none =>
        rw [touched] at last
        cases last
      | some b =>
        rw [touched] at last
        exact struck ((truthful.sounds isOpen note).mpr (touched.trans (congrArg some last)))
    rw [if_neg struck, released]
    exact .nil false

omit [Quantity τ] in
theorem heard_closeOutput (i : Instrument τ) : i.closeOutput.heard = i.heard := by
  unfold closeOutput heard
  cases i.output with
  | none => rfl
  | some output => exact List.filterMap_append.trans (List.append_nil _)

/-- A loop hands on what is queued, unless it goes to a closed output. -/
theorem isBalanced_step {s s' : Stage τ} {n : Nat} (gone : s.go? (.loop n) = some s')
    (sound : s.instrument.LosesNothing) (balanced : s.instrument.IsBalanced)
    (heeded : s.instrument.output.isSome = true ∨ s.instrument.queue = []) :
    s'.instrument.IsBalanced := by
  obtain ⟨l, here, ready, rfl⟩ := Stage.go?_loop gone
  cases cancelled : l.cancelled with
  | true =>
    refine balanced.congr ?_ ?_ ?_ <;> rw [stepLoop_cancelled here cancelled] <;> rfl
  | false =>
    have sent := tells_stepLoop sound here cancelled s.now
    obtain ⟨phase, deeds, did, -, -⟩ := stepLoop_live here cancelled s.now
    have queue : (s.instrument.stepLoop s.now n).1.queue =
        s.instrument.queue.dropWhile (s.instrument.isDue (actTime s.now l)) := did.queue
    intro note
    show Alternates false (Midi.touches note ((s.instrument.stepLoop s.now n).1.heard ++
      (s.instrument.stepLoop s.now n).1.queue.map
        (Signal.message (s.instrument.stepLoop s.now n).1.channel))) false
    rw [sent.heard, sent.channel, queue]
    rcases heeded with isOpen | empty
    · rw [if_pos isOpen, List.append_assoc, ← List.map_append, List.takeWhile_append_dropWhile]
      exact balanced note
    · have all := balanced note
      rw [empty] at all ⊢
      rw [List.takeWhile_nil, List.dropWhile_nil, List.map_nil, ite_self, List.append_nil]
      exact all

end Balance

/-! ## Programs that close the output -/

section Parting

variable {τ : Type}

/-- Whether an action may stand before the last two of a program that closes the output. -/
def Action.isTame : Action τ → Bool
  | .schedule _ | .closeOutput => false
  | _ => true

/-- What a caller has left to do that will clear the instrument and close its output, or that has
done so. -/
inductive Leaves (i : Instrument τ) : Program τ → Prop where
  | leaving {before : Program τ} (isOpen : i.output.isSome = true)
    (tame : ∀ action ∈ before, action.isTame = true) : Leaves i (before ++ [.clear, .closeOutput])
  | gone (closed : i.output = none) (empty : i.queue = []) : Leaves i []

variable [Quantity τ]

/-- What holds between turns: the instrument is truthful and balanced, and its only caller is about
to leave. -/
def Parting : Stage.Condition τ := fun _ i _ todo =>
  i.IsTruthful ∧ i.IsBalanced ∧ (∀ k, k ≠ 0 → todo k = []) ∧ Leaves i (todo 0)

/-- What holds while a caller runs: it may have cleared the instrument, and not closed the output
yet. -/
def PartingAmid (n : Nat) : Stage.Condition τ := fun _ i _ todo =>
  i.IsTruthful ∧ i.IsBalanced ∧ (∀ k, k ≠ 0 → todo k = []) ∧
    (Leaves i (todo 0) ∨
      n = 0 ∧ todo 0 = [.closeOutput] ∧ i.queue = [] ∧ i.IsOver)

/-- Behind a tame action there is still the end of the program, with tame actions before it. -/
theorem exists_tame {action : Action τ} (tame : action.isTame = true) (n : Nat) (s : Stage τ)
    {before : Program τ} (others : ∀ a ∈ before, a.isTame = true) (ending : Program τ) :
    ∃ before', (s.act n action).2.program (before ++ ending) = before' ++ ending ∧
      ∀ a ∈ before', a.isTame = true := by
  cases action with
  | schedule note => cases tame
  | closeOutput => cases tame
  | cancel =>
    obtain ⟨s', goes, did, cancelling⟩ := Stage.exists_cancelling n s
    rw [did]
    cases cancelling with
    | idle current => exact ⟨before, rfl, others⟩
    | ended current ceased => exact ⟨before, rfl, others⟩
    | @live k l current here going =>
      exact ⟨.join k :: .cancel :: before, rfl,
        List.forall_mem_cons.mpr ⟨rfl, List.forall_mem_cons.mpr ⟨rfl, others⟩⟩⟩
  | attend =>
    dsimp only [Stage.act]
    cases s.instrument.current with
    | none => exact ⟨before, rfl, others⟩
    | some l =>
      dsimp only
      split
      · exact ⟨before, rfl, others⟩
      · exact ⟨.linger l :: before, rfl, List.forall_mem_cons.mpr ⟨rfl, others⟩⟩
  | _ => exact ⟨before, rfl, others⟩

/-- A tame action keeps an instrument truthful and balanced, and its output open. -/
theorem tame_act {s : Stage τ} {action : Action τ} (tame : action.isTame = true)
    (truthful : s.instrument.IsTruthful) (balanced : s.instrument.IsBalanced)
    (isOpen : s.instrument.output.isSome = true) (n : Nat) :
    (s.act n action).1.instrument.IsTruthful ∧ (s.act n action).1.instrument.IsBalanced ∧
      (s.act n action).1.instrument.output.isSome = true := by
  by_cases clears : action = .clear
  · subst clears
    obtain ⟨balanced', isOpen', -⟩ := isBalanced_clear truthful balanced isOpen s.now
    exact ⟨(isTruthful_clear truthful s.now).1, balanced', isOpen'⟩
  · have notClose : action ≠ .closeOutput := by
      rintro rfl
      cases tame
    have notSchedule : ∀ note, action ≠ .schedule note := by
      rintro note rfl
      cases tame
    have same := Stage.soundsAs_act clears notClose n s
    have queue := (Stage.queue_act clears notSchedule n s).1
    have quiet := Tells.quietly truthful.losesNothing same.channel same.output same.deeds
    have heard : (s.act n action).1.instrument.heard = s.instrument.heard := by
      rw [quiet.heard, ite_self, List.append_nil]
    refine ⟨truthful.quietly quiet same.sounding, balanced.congr same.channel heard queue, ?_⟩
    rw [same.output]
    exact isOpen

omit [Quantity τ] in
/-- Closing the output of an instrument that was cleared keeps it truthful and balanced. -/
theorem parting_closeOutput {i : Instrument τ} (truthful : i.IsTruthful) (balanced : i.IsBalanced)
    (empty : i.queue = []) (silent : i.IsOver) :
    i.closeOutput.IsTruthful ∧ i.closeOutput.IsBalanced ∧ Leaves i.closeOutput [] := by
  obtain ⟨truthful', -, closed⟩ := isTruthful_closeOutput truthful silent
  have same : i.closeOutput.channel = i.channel ∧ i.closeOutput.queue = i.queue := by
    unfold closeOutput
    cases i.output with
    | none => exact ⟨rfl, rfl⟩
    | some output => exact ⟨rfl, rfl⟩
  exact ⟨truthful', balanced.congr same.1 (heard_closeOutput i) same.2,
    .gone closed (same.2.trans empty)⟩

/-- **Every action and every step keeps what is heard and queued balanced.** -/
theorem parting_keeps : Stage.Keeps (τ := τ) Parting PartingAmid where
  begins _ holds := by
    obtain ⟨truthful, balanced, alone, leaves⟩ := holds
    exact ⟨truthful, balanced, alone, Or.inl leaves⟩
  acts := by
    rintro h s todo n action rest ⟨truthful, balanced, alone, stands⟩ - here free
    -- Nobody but the first caller has anything to do.
    obtain rfl : n = 0 := by
      by_contra other
      rw [alone n other] at here
      cases here
    have alone' : ∀ program k, k ≠ 0 → Function.update todo 0 program k = [] :=
      fun program k other => (Function.update_of_ne other program todo).trans (alone k other)
    show _ ∧ _ ∧ _ ∧
      (Leaves _ (Function.update todo 0 _ 0) ∨ _ ∧ Function.update todo 0 _ 0 = _ ∧ _)
    rw [Function.update_self]
    rcases stands with leaves | ⟨-, left, empty, silent⟩
    · rw [here] at leaves
      generalize left : action :: rest = program at leaves
      cases leaves with
      | gone closed empty => cases left
      | @leaving before isOpen tame =>
        cases before with
        | nil =>
          obtain ⟨rfl, rfl⟩ := List.cons.inj left
          obtain ⟨balanced', -, empty⟩ := isBalanced_clear truthful balanced isOpen s.now
          obtain ⟨truthful', -, silent⟩ := isTruthful_clear truthful s.now
          exact ⟨truthful', balanced', alone' _, Or.inr ⟨rfl, rfl, empty, silent⟩⟩
        | cons first before =>
          have left : action :: rest = first :: (before ++ [.clear, .closeOutput]) := left
          obtain ⟨rfl, rfl⟩ := List.cons.inj left
          obtain ⟨tame, others⟩ := List.forall_mem_cons.mp tame
          obtain ⟨truthful', balanced', isOpen'⟩ := tame_act tame truthful balanced isOpen 0
          obtain ⟨before', same, tame'⟩ := exists_tame tame 0 s others [.clear, .closeOutput]
          rw [same]
          exact ⟨truthful', balanced', alone' _, Or.inl (.leaving isOpen' tame')⟩
    · rw [left] at here
      obtain ⟨rfl, rfl⟩ := List.cons.inj here
      obtain ⟨truthful', balanced', gone⟩ := parting_closeOutput truthful balanced empty silent
      exact ⟨truthful', balanced', alone' _, Or.inl gone⟩
  rests := by
    rintro h s todo n ⟨truthful, balanced, alone, stands⟩ stuck
    refine ⟨truthful, balanced, alone, stands.resolve_right ?_⟩
    rintro ⟨rfl, left, -⟩
    cases stuck _ _ left
  steps := by
    rintro h s s' n ⟨truthful, balanced, alone, leaves⟩ gone
    obtain ⟨truthful', isOpen'⟩ : s'.instrument.IsTruthful ∧
        s'.instrument.output.isSome = s.instrument.output.isSome := by
      obtain ⟨-, -, -, rfl⟩ := Stage.go?_loop gone
      exact ⟨isTruthful_stepLoop truthful s.now n,
        (losesNothing_stepLoop truthful.losesNothing s.now n).2⟩
    have step := isBalanced_step gone truthful.losesNothing balanced
    obtain ⟨l, played, steps⟩ := Stage.exists_steps gone
    have kept : s'.instrument.IsBalanced ∧ Leaves s'.instrument (s.todo 0) := by
      generalize s.todo 0 = program at leaves ⊢
      cases leaves with
      | leaving isOpen tame =>
        exact ⟨step (Or.inl isOpen), .leaving (isOpen'.trans isOpen) tame⟩
      | gone closed empty =>
        have closed' := (output_eq_none_iff isOpen').mpr closed
        have empty' := (List.append_eq_nil_iff.mp (steps.queue.symm.trans empty)).2
        exact ⟨step (Or.inr empty), .gone closed' empty'⟩
    exact ⟨truthful', kept.1, alone, kept.2⟩

/-! ## Performances -/

omit [Quantity τ] in
/-- Those who are interrupted still clear the instrument and close its output. -/
theorem Leaves.interrupt {i : Instrument τ} {program : Program τ} (leaves : Leaves i program) :
    Leaves i (program.dropWhile Stage.isLinger) := by
  cases leaves with
  | gone closed empty => exact .gone closed empty
  | @leaving before isOpen tame =>
    have fewer : (before ++ [Action.clear, Action.closeOutput]).dropWhile Stage.isLinger =
        before.dropWhile Stage.isLinger ++ [.clear, .closeOutput] := by
      rw [List.dropWhile_append]
      split
      · rename_i none
        rw [List.isEmpty_iff.mp none]
        rfl
      · rfl
    rw [fewer]
    exact .leaving isOpen fun action mem =>
      tame action ((List.dropWhile_suffix Stage.isLinger).subset mem)

omit [Quantity τ] in
theorem Stage.todo_interrupt (s : Stage τ) (n : Nat) :
    s.interrupt.todo n = (s.todo n).dropWhile isLinger := by
  unfold interrupt todo
  dsimp only
  rw [List.getElem?_map]
  cases s.callers[n]? with
  | none => rfl
  | some c => rfl

/-- What a melody does once it is being played: it is waited for and stopped, and the instrument is
closed. -/
def leaving : Program τ :=
  [.attend, .anyway, .acquire, .cancel, .clear, .release, .cancel] ++ [.clear, .closeOutput]

theorem Melody.program_eq (m : Melody) :
    (m.program : Program τ) = playProgram m.notes m.playNotice ++ leaving :=
  List.append_assoc _ _ _

omit [Quantity τ] in
theorem isTame_leaving : ∀ action ∈
    ([.attend, .anyway, .acquire, .cancel, .clear, .release, .cancel] : Program τ),
    action.isTame = true := by
  simp [Action.isTame]

omit [Quantity τ] in
/-- Nothing about notes is heard of deeds that only release all notes. -/
theorem touches_quiet {channel : Midi.Channel} {lead : List (Deed τ)}
    (quiet : ∀ d ∈ lead, d.IsQuiet channel) (note : Midi.Data) :
    Midi.touches note (lead.filterMap (Deed.arrived? channel)) = [] := by
  unfold Midi.touches
  rw [List.filterMap_filterMap, List.filterMap_eq_nil_iff]
  intro d mem
  obtain ⟨time, reached, rfl⟩ := quiet d mem
  cases reached
  · rfl
  · rfl

omit [Quantity τ] in
/-- A new instrument is truthful as long as it is hushed, and no note was heard. -/
theorem Instrument.Hushed.isTruthful {i i' : Instrument τ} {lead : List (Deed τ)}
    (hushed : Hushed i i' lead) (new : i.IsNew) (carries : i.CarriesAll) :
    i'.IsTruthful ∧ (∀ note, Midi.touches note i'.heard = []) ∧ i'.output.isSome = true := by
  have carries' := (hushed.arrives carries).1
  have deeds : i'.deeds = lead := by rw [hushed.deeds, new.untouched, List.nil_append]
  have untouched : ∀ note, Midi.touches note i'.heard = [] := by
    intro note
    unfold heard
    rw [deeds, hushed.channel]
    exact touches_quiet hushed.quiet note
  have isOpen : i'.output.isSome = true := by
    obtain ⟨output, here, -⟩ := carries'
    rw [here]
    rfl
  refine ⟨⟨losesNothing_of_carriesAll carries', ?_, fun _ note => ?_, fun closed => ?_,
    Or.inl ⟨isOpen, ?_⟩⟩, untouched, isOpen⟩
  · rw [hushed.sounding]
    exact List.Pairwise.nil
  · rw [hushed.sounding, untouched]
    exact ⟨fun mem => absurd mem List.not_mem_nil, nofun⟩
  · rw [closed] at isOpen
    cases isOpen
  · intro d mem
    rw [deeds] at mem
    obtain ⟨time, reached, rfl⟩ := hushed.quiet d mem
    rfl

/-- The only caller goes on like one that leaves a truthful and balanced instrument; it may have
given up before. -/
def Departs (program : Program τ) (s : Stage τ) : Prop :=
  ∃ left before s', s'.callers = s.callers ∧
    Stage.runCaller 0 program s =
      ((Stage.runCaller 0 left s').1, (Stage.runCaller 0 left s').2.resume before) ∧
    s'.instrument.IsTruthful ∧ s'.instrument.IsBalanced ∧ Leaves s'.instrument left

/-- Who is refused a note departs: of what is queued by then nothing was heard, and it is cleared on
the way out. -/
theorem departs_of_refused {s : Stage τ} (free : s.holder = none) (new : s.instrument.IsNew)
    (carries : s.instrument.CarriesAll) {notes : List (ScheduledNote τ)} {fault : Fault}
    (refused : (clear s.now { s.instrument with current := none }).scheduleAll notes =
      .error fault) (notice : Notice) :
    Departs (playProgram notes notice ++ leaving) s := by
  have ended : ∀ l ∈ s.instrument.loops, l.isEnded = true :=
    fun l mem => absurd (new.loops ▸ mem) List.not_mem_nil
  let s₁ : Stage τ := { s with
    holder := some 0
    instrument := clear s.now { s.instrument with current := none } }
  obtain ⟨i, signals, fills, ran⟩ := Stage.runCaller_schedules_refused (s := s₁) refused 0
    ([.cancel, .launch, .release, .report notice] ++ leaving)
  obtain ⟨lead, hushed⟩ := exists_hushed new.silent s.now
  have filled := hushed.fills fills
  have ran := ran { s with holder := none, instrument := i } (if_pos rfl)
  -- The lock is free again, and the first session on the way out clears what is queued.
  have ended' : ∀ l ∈ i.loops, l.isEnded = true := by
    obtain ⟨deeds, sent, -⟩ := sends_clear s.now { s.instrument with current := none }
    have loops : i.loops = s.instrument.loops := fills.loops.trans sent.loops
    rwa [loops]
  let s₂ : Stage τ := { s with
    holder := some 0
    instrument := clear s.now { i with current := none } }
  have opens : Stage.runCaller 0 (salvage ([.cancel, .launch, .release, .report notice] ++ leaving))
      { s with holder := none, instrument := i } =
      Stage.runCaller 0 ([.release, .cancel] ++ [.clear, .closeOutput]) s₂ :=
    Stage.runCaller_opening (s := { s with holder := none, instrument := i }) rfl ended' 0 _
  rw [opens] at ran
  obtain ⟨lead', hushed'⟩ := exists_hushed filled.sounding s.now
  obtain ⟨truthful, untouched, isOpen⟩ := (filled.trans hushed').isTruthful new carries
  obtain ⟨deeds, sent, -⟩ := sends_clear s.now { i with current := none }
  have empty : s₂.instrument.queue = [] := sent.queue
  have tame : ∀ action ∈ ([.release, .cancel] : Program τ), action.isTame = true := by
    simp [Action.isTame]
  refine ⟨_, some fault, s₂, rfl, ?_, truthful, fun note => ?_, .leaving isOpen tame⟩
  · rw [Stage.playProgram_eq, List.cons_append, List.cons_append, List.cons_append,
      List.append_assoc, Stage.runCaller_opening free ended]
    exact ran
  · rw [empty, List.map_nil, List.append_nil, untouched note]
    exact .nil false

end Parting

section Performance

variable {m : Melody} {i : Instrument Rat}

/-- A melody that gets through departs: its queue is filled, and what is queued alternates. -/
theorem departs_of_taken (playable : ∀ e ∈ m.events, e.IsPlayable)
    (distinct : ∀ e ∈ m.events, (e.pitches.map Pitch.number).Nodup)
    (taken : ∀ n ∈ (m.notes : List (ScheduledNote Rat)), n.IsTaken) {s : Stage Rat}
    (free : s.holder = none) (new : s.instrument.IsNew) (carries : s.instrument.CarriesAll) :
    Departs m.program s := by
  have idle : s.instrument.IsIdle :=
    ⟨fun l mem => absurd (new.loops ▸ mem) List.not_mem_nil, new.silent⟩
  obtain ⟨filled, lead, started, ran⟩ :=
    Stage.runCaller_playProgram free idle taken m.playNotice 0
  obtain ⟨truthful, untouched, isOpen⟩ := started.toHushed.isTruthful new carries
  have balanced : filled.IsBalanced := by
    intro note
    have queue : filled.queue =
        (inOrder (cuesFrom 0 0 m.events)).map (Cue.signal m.tempo.secondsPerBeat) :=
      started.queue.trans (queue_timeline m.tempo playable)
    rw [Midi.touches_append, untouched, queue, touches_signals]
    exact alternates_inOrder distinct note
  -- The caller goes on at once to wait for the loop that it has launched.
  refine ⟨leaving, none, { s with instrument := filled, holder := none }, rfl, ?_, truthful,
    balanced, .leaving isOpen isTame_leaving⟩
  rw [Melody.program_eq, Caller.resume_none]
  exact Stage.runCaller_append ran leaving

/-- Whether or not a note is refused, the caller of a performance departs. -/
theorem departs_program (playable : ∀ e ∈ m.events, e.IsPlayable)
    (distinct : ∀ e ∈ m.events, (e.pitches.map Pitch.number).Nodup) {s : Stage Rat}
    (free : s.holder = none) (new : s.instrument.IsNew) (carries : s.instrument.CarriesAll) :
    Departs m.program s := by
  cases scheduled : (clear s.now { s.instrument with current := none }).scheduleAll m.notes with
  | ok filled =>
    have accepted : ∀ n ∈ (m.notes : List (ScheduledNote Rat)), n.IsAccepted :=
      isAccepted_timeline fun e mem => (playable e mem).unit
    exact departs_of_taken playable distinct
      (fun n mem => ⟨accepted n mem, isWritten_of_scheduleAll scheduled n mem⟩) free new carries
  | error fault =>
    rw [Melody.program_eq]
    exact departs_of_refused free new carries scheduled m.playNotice

/-- From the first turn of a performance on its caller is parting. -/
theorem parting_first (playable : ∀ e ∈ m.events, e.IsPlayable)
    (distinct : ∀ e ∈ m.events, (e.pitches.map Pitch.number).Nodup) (new : i.IsNew)
    (carries : i.CarriesAll) (now : Rat) {s' : Stage Rat}
    (gone : (Stage.alone now i m.program).go? (.caller 0) = some s') :
    Parting [] s'.instrument s'.holder s'.todo := by
  let s := Stage.alone now i m.program
  obtain ⟨left, before, s₁, same, onward, truthful, balanced, leaves⟩ :=
    departs_program (s := s) playable distinct rfl new carries
  have others : ∀ k, k ≠ 0 → s.todo k = [] := by
    intro k other
    obtain ⟨k, rfl⟩ := Nat.exists_eq_succ_of_ne_zero other
    rfl
  have others₁ : ∀ k, k ≠ 0 → s₁.todo k = [] := by
    intro k other
    unfold Stage.todo
    rw [same]
    exact others k other
  let todo : Nat → Program Rat := Function.update s₁.todo 0 left
  have mine : todo 0 = left := Function.update_self ..
  have theirs : ∀ k, k ≠ 0 → todo k = s₁.todo k := fun k other => Function.update_of_ne other ..
  have amid : PartingAmid 0 [] s₁.instrument s₁.holder todo := by
    refine ⟨truthful, balanced, fun k other => (theirs k other).trans (others₁ k other), ?_⟩
    rw [mine]
    exact Or.inl leaves
  obtain ⟨truthful', balanced', -, leaves'⟩ :=
    Stage.runCaller_keeps parting_keeps amid (fun k other => (theirs k other).symm) mine
  rw [Function.update_self] at leaves'
  obtain ⟨c, here, rfl⟩ := Stage.go?_caller gone
  obtain rfl : _ = c := Option.some.inj here
  have todo' := Stage.todo_set (s := (Stage.runCaller 0 left s₁).1)
    (by rw [Stage.callers_runCaller, same]; exact here)
    ((Stage.runCaller 0 left s₁).2.resume before)
  rw [onward, Caller.resume_none, todo']
  refine ⟨truthful', balanced', fun k other => ?_, ?_⟩
  · rw [Function.update_of_ne other]
    unfold Stage.todo
    rw [Stage.callers_runCaller]
    exact others₁ k other
  · rw [Function.update_self]
    exact leaves'

/-- What holds at every stage of a performance: its caller waits for the first turn, or it is
parting. -/
def Performs (m : Melody) (i : Instrument Rat) (s : Stage Rat) : Prop :=
  (∃ now, s = Stage.alone now i m.program) ∨ Parting [] s.instrument s.holder s.todo

theorem performs_turn (playable : ∀ e ∈ m.events, e.IsPlayable)
    (distinct : ∀ e ∈ m.events, (e.pitches.map Pitch.number).Nodup) (new : i.IsNew)
    (carries : i.CarriesAll) {s s' : Stage Rat} {t : Turn Rat} (performs : Performs m i s)
    (gone : s.turn? t = some s') : Performs m i s' := by
  rcases performs with ⟨now, rfl⟩ | parting
  · cases t with
    | clock time => exact Or.inl ⟨time, Stage.eq_of_clock gone⟩
    | of party =>
      change (Stage.alone now i m.program).go? party = some s' at gone
      cases party with
      | loop n =>
        obtain ⟨l, here, -⟩ := Stage.go?_loop gone
        change i.loops[n]? = some l at here
        rw [new.loops] at here
        cases here
      | caller n =>
        cases n with
        | zero => exact Or.inr (parting_first playable distinct new carries now gone)
        | succ n =>
          obtain ⟨c, here, -⟩ := Stage.go?_caller gone
          exact nomatch here
  · exact Or.inr (Stage.turn_keeps (h := []) parting_keeps parting gone)

theorem performs_interrupt {s : Stage Rat} (performs : Performs m i s) :
    Performs m i s.interrupt := by
  rcases performs with ⟨now, rfl⟩ | ⟨truthful, balanced, alone, leaves⟩
  · -- Nobody waits for the music before it has begun.
    exact Or.inl ⟨now, rfl⟩
  · refine Or.inr ⟨truthful, balanced, fun k other => ?_, ?_⟩
    · rw [Stage.todo_interrupt, alone k other]
      rfl
    · rw [Stage.todo_interrupt]
      exact leaves.interrupt

/-- The output is closed, and what has reached it strikes and releases each note in turn, a strike
first and a release last. -/
def Instrument.IsResolved (i : Instrument Rat) : Prop :=
  i.output = none ∧
    ∀ note, ∃ k, Midi.touches note i.heard = (List.replicate k [true, false]).flatten

theorem isResolved_of_performs {s : Stage Rat} (performs : Performs m i s)
    (finished : s.isDone = true) : s.instrument.IsResolved := by
  have nothing : s.todo 0 = [] := by
    unfold Stage.todo
    cases here : s.callers[0]? with
    | none => rfl
    | some c =>
      exact List.isEmpty_iff.mp (List.all_eq_true.mp finished c (List.mem_of_getElem? here))
  rcases performs with ⟨now, rfl⟩ | ⟨-, balanced, -, leaves⟩
  · cases nothing
  · rw [nothing] at leaves
    generalize left : ([] : Program Rat) = program at leaves
    cases leaves with
    | gone closed empty =>
      exact ⟨closed, fun note => (balanced.alternates empty note).exists_replicate⟩
    | @leaving before isOpen tame => cases before <;> cases left

/-- **Each note is struck and released in turn.**  A melody is played on a new instrument of its own
whose output loses nothing, and any turns and interruptions come: once its caller is done, the
output is closed, and what has reached it strikes and releases each note in turn, a strike first and
a release last.  This holds in particular of a performance, whether or not it is interrupted. -/
theorem notes_alternate (playable : ∀ e ∈ m.events, e.IsPlayable)
    (distinct : ∀ e ∈ m.events, (e.pitches.map Pitch.number).Nodup) (new : i.IsNew)
    (carries : i.CarriesAll) :
    (∀ now s, (Stage.alone now i m.program).Reaches s → s.isDone = true →
      s.instrument.IsResolved) ∧
    ∀ stopAt, (m.perform i stopAt).isDone = true → (m.perform i stopAt).instrument.IsResolved := by
  have reached : ∀ now s, (Stage.alone now i m.program).Reaches s → s.isDone = true →
      s.instrument.IsResolved := by
    rintro now s ⟨incidents, rfl⟩ finished
    have performs : Performs m i ((Stage.alone now i m.program).meets incidents) :=
      Stage.meets_invariant
        (fun s t s' performs gone => performs_turn playable distinct new carries performs gone)
        (fun s performs => performs_interrupt performs) (Or.inl ⟨now, rfl⟩) incidents
    exact isResolved_of_performs performs finished
  exact ⟨reached, fun stopAt => reached _ _ (m.reaches_perform i stopAt)⟩

/-- The phrase, at a moderate tempo. -/
def phraseMelody : Melody := ⟨"", Tempo.moderate, .null, phrase⟩

/-- The phrase strikes one note twice without a rest, and it is over in the end, also if it is
interrupted in the middle of its chord. -/
theorem notes_alternate_phrase :
    ((∀ e ∈ phraseMelody.events, e.IsPlayable) ∧
      (∀ e ∈ phraseMelody.events, (e.pitches.map Pitch.number).Nodup) ∧
      justOpened.IsNew ∧ justOpened.CarriesAll) ∧
    ((phraseMelody.perform justOpened none).isDone = true ∧
      (phraseMelody.perform justOpened (some 1)).isDone = true) ∧
    Midi.touches 60 (phraseMelody.perform justOpened none).instrument.heard =
      [true, false, true, false] ∧
    (phraseMelody.perform justOpened none).instrument.IsResolved ∧
    (phraseMelody.perform justOpened (some 1)).instrument.IsResolved := by
  have distinct : ∀ e ∈ phraseMelody.events, (e.pitches.map Pitch.number).Nodup := by
    decide +kernel
  have finished : (phraseMelody.perform justOpened none).isDone = true := by decide +kernel
  have interrupted : (phraseMelody.perform justOpened (some 1)).isDone = true := by decide +kernel
  have resolved :=
    (notes_alternate (m := phraseMelody) isPlayable_of_mem_phrase distinct isNew_justOpened
      carriesAll_justOpened).2
  refine ⟨⟨isPlayable_of_mem_phrase, distinct, isNew_justOpened, carriesAll_justOpened⟩,
    ⟨finished, interrupted⟩, ?_, resolved none finished, resolved (some 1) interrupted⟩
  decide +kernel

end Performance

end Keysong
