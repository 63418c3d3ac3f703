import Keysong.Proofs.Operations
import Mathlib.Order.Fin.Basic

/-!
# What reaches an output

An instrument knows which notes sound, and whoever listens to its output knows it as well: a note
sounds if the last message about it was a strike.  This module shows that the two agree, on an
output that loses nothing, whatever an instrument does.

## Main Definitions

* `Midi.touches` — what a row of messages does to a note
* `Instrument.heard` — the messages that reached the output
* `Tells` — two states of an instrument between which some messages were sent, and the output was
  not closed
* `Instrument.IsTruthful` — the notes that an instrument takes to sound are those that are heard

## Main Statements

* `tells_perform`, `tells_silence`, `tells_stepLoop` — what is sent by playing, silencing and by a
  loop
* `isTruthful_perform`, `isTruthful_clear`, `isTruthful_closeOutput` — every operation keeps an
  instrument truthful

### Closed outputs

Once the output is closed, an instrument goes on taking notes to sound that nobody hears.  So a
truthful instrument without an output is only asked that nothing sounded when it was closed, and
that nothing was heard since.
-/

namespace Keysong

open Quantity Instrument

variable {τ : Type}

/-! ## Touches -/

namespace Midi

/-- What a message does to a note: `true` if it strikes the note, `false` if it releases it. -/
def Message.touch? (note : Data) : Message → Option Bool
  | .noteOn _ n _ => if n = note then some true else none
  | .noteOff _ n _ => if n = note then some false else none
  | _ => none

/-- What a row of messages does to a note, in order. -/
def touches (note : Data) (messages : List Message) : List Bool :=
  messages.filterMap (Message.touch? note)

@[simp] theorem touches_nil (note : Data) : touches note [] = [] := rfl

@[simp] theorem touches_append (note : Data) (first others : List Message) :
    touches note (first ++ others) = touches note first ++ touches note others :=
  List.filterMap_append

/-- The releases of some notes touch each of them. -/
theorem touches_releases (note : Data) (channel : Channel) (notes : List Data) :
    touches note (notes.map fun n => .noteOff channel n noStrength) =
      (notes.filter fun n => n = note).map fun _ => false := by
  induction notes with
  | nil => rfl
  | cons n rest ih =>
    unfold touches at ih ⊢
    by_cases same : n = note
    · simp [Message.touch?, same, ih]
    · simp [Message.touch?, same, ih]

end Midi

namespace Instrument

theorem touch?_message (note : Midi.Data) (channel : Midi.Channel) (s : Signal τ) :
    (s.message channel).touch? note = if s.note = note then some s.isStrike else none := by
  unfold Signal.message
  cases s.isStrike
  · rfl
  · rfl

/-- What a row of signals does to a note: those that are for it strike and release it in turn. -/
theorem touches_messages (note : Midi.Data) (channel : Midi.Channel) (signals : List (Signal τ)) :
    Midi.touches note (signals.map (Signal.message channel)) =
      (signals.filter fun s => s.note = note).map Signal.isStrike := by
  induction signals with
  | nil => rfl
  | cons s rest ih =>
    unfold Midi.touches at ih ⊢
    rw [List.map_cons, List.filterMap_cons, touch?_message, ih]
    by_cases same : s.note = note
    · simp [same]
    · simp [same]

/-! ## What is heard -/

namespace Deed

/-- The message that was sent, if it got through. -/
def arrived? (channel : Midi.Channel) (d : Deed τ) : Option Midi.Message :=
  if d.reached then d.message? channel else none

/-- Whether the output was closed. -/
def isClosing : Deed τ → Bool
  | closed _ => true
  | _ => false

end Deed

/-- The messages that reached the output. -/
def heard (i : Instrument τ) : List Midi.Message := i.deeds.filterMap (Deed.arrived? i.channel)

/-- Whether an instrument loses nothing, as long as its output is open. -/
def LosesNothing (i : Instrument τ) : Prop :=
  ∀ output, i.output = some output → ∀ k, output.carries k = true

theorem losesNothing_of_carriesAll {i : Instrument τ} (carries : i.CarriesAll) :
    i.LosesNothing := by
  obtain ⟨output, here, all⟩ := carries
  intro output' here'
  obtain rfl : output = output' := Option.some.inj (here.symm.trans here')
  exact all

theorem output_eq_none_iff {i i' : Instrument τ}
    (isOpen : i'.output.isSome = i.output.isSome) : i'.output = none ↔ i.output = none := by
  rw [← Option.not_isSome_iff_eq_none, ← Option.not_isSome_iff_eq_none, isOpen]

/-- Between two states the output was not closed, and if it is open, some messages were heard. -/
structure Tells (messages : List Midi.Message) (i i' : Instrument τ) : Prop where
  channel : i'.channel = i.channel
  isOpen : i'.output.isSome = i.output.isSome
  losesNothing : i'.LosesNothing
  deeds : ∃ done, i'.deeds = i.deeds ++ done ∧ (∀ d ∈ done, d.isClosing = false) ∧
    done.filterMap (Deed.arrived? i.channel) = if i.output.isSome then messages else []

namespace Tells

theorem trans {messages others : List Midi.Message} {i i' i'' : Instrument τ}
    (h : Tells messages i i') (h' : Tells others i' i'') : Tells (messages ++ others) i i'' where
  channel := h'.channel.trans h.channel
  isOpen := h'.isOpen.trans h.isOpen
  losesNothing := h'.losesNothing
  deeds := by
    obtain ⟨done, same, still, arrived⟩ := h.deeds
    obtain ⟨done', same', still', arrived'⟩ := h'.deeds
    refine ⟨done ++ done', by rw [same', same, List.append_assoc],
      List.forall_mem_append.mpr ⟨still, still'⟩, ?_⟩
    rw [h.channel, h.isOpen] at arrived'
    rw [List.filterMap_append, arrived, arrived']
    split <;> rfl

/-- What is heard besides the channel, the output and the deeds does not matter. -/
theorem quietly {i i' : Instrument τ} (sound : i.LosesNothing) (channel : i'.channel = i.channel)
    (output : i'.output = i.output) (deeds : i'.deeds = i.deeds) : Tells [] i i' where
  channel := channel
  isOpen := by rw [output]
  losesNothing := by
    unfold LosesNothing
    rw [output]
    exact sound
  deeds := ⟨[], by rw [deeds, List.append_nil], fun d mem => absurd mem List.not_mem_nil,
    (ite_self _).symm⟩

/-- What comes after is not heard, if it leaves the channel, the output and the deeds alone. -/
theorem andQuietly {messages : List Midi.Message} {i i' i'' : Instrument τ}
    (h : Tells messages i i') (channel : i''.channel = i'.channel)
    (output : i''.output = i'.output) (deeds : i''.deeds = i'.deeds) : Tells messages i i'' := by
  have all := h.trans (quietly h.losesNothing channel output deeds)
  rwa [List.append_nil] at all

theorem heard {messages : List Midi.Message} {i i' : Instrument τ} (h : Tells messages i i') :
    i'.heard = i.heard ++ if i.output.isSome then messages else [] := by
  obtain ⟨done, same, -, arrived⟩ := h.deeds
  rw [Instrument.heard, Instrument.heard, h.channel, same, List.filterMap_append, arrived]

end Tells

/-- What a sent message is recorded as: a deed that closes nothing, and the message is heard if it
gets through. -/
structure Deed.IsOf (channel : Midi.Channel) (message : Midi.Message) (deed : Bool → Deed τ) :
    Prop where
  still : ∀ r, (deed r).isClosing = false
  arrives : ∀ r, (deed r).arrived? channel = if r then some message else none

theorem tells_send {i : Instrument τ} (sound : i.LosesNothing) {deed : Bool → Deed τ}
    {message : Midi.Message} (recorded : Deed.IsOf i.channel message deed) :
    Tells [message] i { i.send.1 with deeds := i.send.1.deeds ++ [deed i.send.2] } := by
  unfold send
  cases here : i.output with
  | none =>
    refine ⟨rfl, by rw [here], fun output there => ?_, [deed false], rfl, ?_, ?_⟩
    · cases here.symm.trans there
    · exact List.forall_mem_singleton.mpr (recorded.still false)
    · rw [here, List.filterMap_cons_none (recorded.arrives false)]
      rfl
  | some output =>
    have carries := sound output here
    refine ⟨rfl, by rw [here]; rfl, fun output' there => ?_, [deed true], ?_, ?_, ?_⟩
    · obtain rfl := Option.some.inj there
      exact carries
    · dsimp only
      rw [carries]
    · exact List.forall_mem_singleton.mpr (recorded.still true)
    · rw [here, List.filterMap_cons_some (recorded.arrives true)]
      rfl

/-! ## Playing -/

theorem isOf_played (now : τ) (s : Signal τ) (channel : Midi.Channel) :
    Deed.IsOf channel (s.message channel) (.played now s) where
  still _ := rfl
  arrives r := by cases r <;> rfl

theorem isOf_silenced (now : τ) (message : Midi.Message) (channel : Midi.Channel) :
    Deed.IsOf channel message (.silenced now message) where
  still _ := rfl
  arrives r := by cases r <;> rfl

/-- Playing a signal sends its message. -/
theorem tells_perform {i : Instrument τ} (sound : i.LosesNothing) (now : τ) (s : Signal τ) :
    Tells [s.message i.channel] i (perform now i s) ∧
      (perform now i s).sounding = soundingAfter i.sounding s := by
  let j : Instrument τ := { i with sounding := soundingAfter i.sounding s }
  have quiet : Tells [] i j := Tells.quietly sound rfl rfl rfl
  have sent := quiet.trans (tells_send (i := j) sound (isOf_played now s i.channel))
  have same : j.send.1.sounding = soundingAfter i.sounding s := sounding_send j
  unfold perform
  dsimp only
  split
  · exact ⟨sent.andQuietly rfl rfl rfl, same⟩
  · exact ⟨sent, same⟩

theorem tells_foldl_perform (now : τ) (signals : List (Signal τ)) {i : Instrument τ}
    (sound : i.LosesNothing) :
    Tells (signals.map (Signal.message i.channel)) i (signals.foldl (perform now) i) ∧
      (signals.foldl (perform now) i).sounding = signals.foldl soundingAfter i.sounding := by
  induction signals generalizing i with
  | nil => exact ⟨Tells.quietly sound rfl rfl rfl, rfl⟩
  | cons s rest ih =>
    obtain ⟨first, sounding⟩ := tells_perform sound now s
    obtain ⟨others, sounding'⟩ := ih first.losesNothing
    rw [first.channel] at others
    refine ⟨first.trans others, ?_⟩
    rw [List.foldl_cons, List.foldl_cons, sounding', sounding]

/-! ## Silencing -/

/-- On an open output that loses nothing, all messages that silence an instrument are sent. -/
theorem tells_sendAll (now : τ) (messages : List Midi.Message) {i : Instrument τ}
    (sound : i.LosesNothing) (isOpen : i.output.isSome = true) :
    Tells messages i (sendAll now i messages) := by
  induction messages generalizing i with
  | nil => exact Tells.quietly sound rfl rfl rfl
  | cons message rest ih =>
    have sent := tells_send sound (isOf_silenced now message i.channel)
    have reached : i.send.2 = true := by
      obtain ⟨output, here⟩ := Option.isSome_iff_exists.mp isOpen
      unfold send
      rw [here]
      exact sound output here _
    have others := ih sent.losesNothing (sent.isOpen.trans isOpen)
    unfold sendAll
    dsimp only
    rw [if_pos reached]
    exact sent.trans others

/-- Silencing releases what sounds, and sends all notes off. -/
theorem tells_silence {i : Instrument τ} (sound : i.LosesNothing) (now : τ) :
    Tells i.silencing i (silence now i) := by
  have quiet : Tells [] i { i with sounding := [] } := Tells.quietly sound rfl rfl rfl
  unfold silence
  dsimp only
  cases isOpen : i.output.isSome with
  | true =>
    rw [if_pos rfl]
    exact quiet.trans (tells_sendAll (i := { i with sounding := [] }) now i.silencing sound isOpen)
  | false =>
    rw [if_neg Bool.false_ne_true]
    refine ⟨rfl, rfl, quiet.losesNothing, [], (List.append_nil _).symm, ?_, ?_⟩
    · exact fun d mem => absurd mem List.not_mem_nil
    · rw [isOpen]
      rfl

/-! ## Which notes sound -/

theorem mem_insertNote {n note : Midi.Data} {sounding : List Midi.Data} :
    n ∈ insertNote note sounding ↔ n = note ∨ n ∈ sounding := by
  induction sounding with
  | nil => exact List.mem_cons
  | cons first rest ih =>
    unfold insertNote
    split
    · exact List.mem_cons
    · split
      · rename_i same
        subst same
        exact ⟨Or.inr, fun mem => mem.elim (fun same => same ▸ List.mem_cons_self) id⟩
      · rw [List.mem_cons, ih, List.mem_cons, or_left_comm]

theorem ascending_insertNote (note : Midi.Data) {sounding : List Midi.Data}
    (ascending : sounding.Pairwise (· < ·)) : (insertNote note sounding).Pairwise (· < ·) := by
  induction sounding with
  | nil => exact List.pairwise_singleton _ note
  | cons first rest ih =>
    obtain ⟨least, ascending'⟩ := List.pairwise_cons.mp ascending
    unfold insertNote
    split
    · rename_i less
      refine List.pairwise_cons.mpr ⟨fun n mem => ?_, ascending⟩
      rcases List.mem_cons.mp mem with rfl | mem
      · exact less
      · exact less.trans (least n mem)
    · split
      · exact ascending
      · rename_i notLess other
        refine List.pairwise_cons.mpr ⟨fun n mem => ?_, ih ascending'⟩
        rcases mem_insertNote.mp mem with rfl | mem
        · exact lt_of_le_of_ne (not_lt.mp notLess) (Ne.symm other)
        · exact least n mem

/-- A strike makes its note sound, a release silences it, and other notes are left alone. -/
theorem mem_soundingAfter {n : Midi.Data} {sounding : List Midi.Data} {s : Signal τ} :
    n ∈ soundingAfter sounding s ↔
      if n = s.note then s.isStrike = true else n ∈ sounding := by
  unfold soundingAfter
  cases s.isStrike with
  | true =>
    rw [if_pos rfl, mem_insertNote]
    split <;> simp [*]
  | false =>
    rw [if_neg Bool.false_ne_true, List.mem_filter]
    split <;> simp [*]

theorem ascending_soundingAfter (s : Signal τ) {sounding : List Midi.Data}
    (ascending : sounding.Pairwise (· < ·)) : (soundingAfter sounding s).Pairwise (· < ·) := by
  unfold soundingAfter
  split
  · exact ascending_insertNote s.note ascending
  · exact ascending.sublist List.filter_sublist

/-- What silencing does to a note: it is released once if it sounds, and not touched if it does
not. -/
theorem touches_silencing {i : Instrument τ} (ascending : i.sounding.Pairwise (· < ·))
    (note : Midi.Data) :
    Midi.touches note i.silencing = if note ∈ i.sounding then [false] else [] := by
  have once : i.sounding.Nodup := ascending.imp fun less => ne_of_lt less
  have control : Midi.touches note
      [.control i.channel Midi.allNotesOff Midi.noStrength] = [] := rfl
  rw [silencing, Midi.touches_append, Midi.touches_releases, control, List.append_nil]
  have found : (i.sounding.filter fun n => n = note) =
      if note ∈ i.sounding then [note] else [] := by
    rw [List.filter_eq, once.count]
    split <;> rfl
  rw [found]
  split <;> rfl

/-! ## Truthful instruments -/

/-- The message that releases all notes of the channel of an instrument. -/
def allOff (i : Instrument τ) : Midi.Message :=
  .control i.channel Midi.allNotesOff Midi.noStrength

/-- The output is open and was never closed, or it was closed once and nothing was heard since. -/
def ClosesOnce (i : Instrument τ) : Prop :=
  (i.output.isSome = true ∧ ∀ d ∈ i.deeds, d.isClosing = false) ∨
    i.output = none ∧ ∃ first name others, i.deeds = first ++ .closed name :: others ∧
      (∀ d ∈ first, d.isClosing = false) ∧ (∀ d ∈ others, d.isClosing = false) ∧
      others.filterMap (Deed.arrived? i.channel) = []

/-- Whether all that is heard of an instrument is over: no note was struck last, and the end is a
release of all notes. -/
structure IsOver (i : Instrument τ) : Prop where
  released : ∀ note, (Midi.touches note i.heard).getLast? ≠ some true
  allOff : i.heard.getLast? = some i.allOff

/-- The notes that an instrument takes to sound are those that are heard to sound. -/
structure IsTruthful (i : Instrument τ) : Prop where
  losesNothing : i.LosesNothing
  ascending : i.sounding.Pairwise (· < ·)
  sounds : i.output.isSome = true →
    ∀ note, note ∈ i.sounding ↔ (Midi.touches note i.heard).getLast? = some true
  muted : i.output = none → i.IsOver
  closesOnce : i.ClosesOnce

/-- What is not sent to the output does not close it. -/
theorem Tells.closesOnce {messages : List Midi.Message} {i i' : Instrument τ}
    (h : Tells messages i i') (once : i.ClosesOnce) : i'.ClosesOnce := by
  obtain ⟨done, same, still, arrived⟩ := h.deeds
  rcases once with ⟨isOpen, never⟩ | ⟨closed, first, name, others, cut, before, behind, nothing⟩
  · refine Or.inl ⟨h.isOpen.trans isOpen, ?_⟩
    rw [same]
    exact List.forall_mem_append.mpr ⟨never, still⟩
  · have closed' := (output_eq_none_iff h.isOpen).mpr closed
    rw [closed] at arrived
    refine Or.inr ⟨closed', first, name, others ++ done, ?_, before,
      List.forall_mem_append.mpr ⟨behind, still⟩, ?_⟩
    · rw [same, cut, List.append_assoc, List.cons_append]
    · rw [h.channel, List.filterMap_append, nothing, arrived]
      rfl

/-- Nothing is heard any more once the output is closed. -/
theorem Tells.muted {messages : List Midi.Message} {i i' : Instrument τ}
    (h : Tells messages i i') (muted : i.output = none → i.IsOver) :
    i'.output = none → i'.IsOver := by
  intro closed'
  have closed := (output_eq_none_iff h.isOpen).mp closed'
  have same : i'.heard = i.heard := by
    rw [h.heard, closed]
    exact List.append_nil _
  obtain ⟨released, last⟩ := muted closed
  constructor
  · rw [same]
    exact released
  · rw [same, Instrument.allOff, h.channel]
    exact last

/-- Whatever is not heard keeps an instrument truthful, as long as the same notes sound. -/
theorem IsTruthful.quietly {i i' : Instrument τ} (truthful : i.IsTruthful) (h : Tells [] i i')
    (sounding : i'.sounding = i.sounding) : i'.IsTruthful where
  losesNothing := h.losesNothing
  ascending := by
    rw [sounding]
    exact truthful.ascending
  sounds isOpen note := by
    rw [sounding, h.heard, ite_self, List.append_nil]
    exact truthful.sounds (h.isOpen.symm.trans isOpen) note
  muted := h.muted truthful.muted
  closesOnce := h.closesOnce truthful.closesOnce

/-- Playing a signal keeps an instrument truthful. -/
theorem isTruthful_perform {i : Instrument τ} (truthful : i.IsTruthful) (now : τ)
    (s : Signal τ) : (perform now i s).IsTruthful := by
  obtain ⟨sent, sounding⟩ := tells_perform truthful.losesNothing now s
  refine ⟨sent.losesNothing, ?_, fun isOpen note => ?_, sent.muted truthful.muted,
    sent.closesOnce truthful.closesOnce⟩
  · rw [sounding]
    exact ascending_soundingAfter s truthful.ascending
  · have isOpen : i.output.isSome = true := sent.isOpen.symm.trans isOpen
    have touched : Midi.touches note [s.message i.channel] =
        if s.note = note then [s.isStrike] else [] := by
      have mine := touches_messages note i.channel [s]
      rw [List.map_singleton] at mine
      rw [mine]
      by_cases same : s.note = note
      · simp [same]
      · simp [same]
    rw [sounding, mem_soundingAfter, sent.heard, if_pos isOpen, Midi.touches_append, touched]
    -- The message decides about its own note, and about no other.
    by_cases same : note = s.note
    · rw [if_pos same, if_pos same.symm, List.getLast?_concat, Option.some.injEq]
    · rw [if_neg same, if_neg (Ne.symm same), List.append_nil]
      exact truthful.sounds isOpen note

theorem isTruthful_foldl_perform (now : τ) (signals : List (Signal τ)) {i : Instrument τ}
    (truthful : i.IsTruthful) : (signals.foldl (perform now) i).IsTruthful := by
  induction signals generalizing i with
  | nil => exact truthful
  | cons s rest ih => exact ih (isTruthful_perform truthful now s)

/-- Silencing keeps an instrument truthful, and all that is heard of it is over. -/
theorem isTruthful_silence {i : Instrument τ} (truthful : i.IsTruthful) (now : τ) :
    (silence now i).IsTruthful ∧ (silence now i).sounding = [] ∧ (silence now i).IsOver := by
  have sent := tells_silence truthful.losesNothing now
  have sounding := sounding_silence now i
  have muted : (silence now i).IsOver := by
    by_cases closed : i.output = none
    · exact sent.muted truthful.muted ((output_eq_none_iff sent.isOpen).mpr closed)
    · have isOpen : i.output.isSome = true := Option.isSome_iff_ne_none.mpr closed
      have heard := sent.heard
      rw [if_pos isOpen] at heard
      constructor
      · intro note
        rw [heard, Midi.touches_append, touches_silencing truthful.ascending]
        split
        · rw [List.getLast?_concat]
          nofun
        · rename_i silent
          rw [List.append_nil]
          exact fun struck => silent ((truthful.sounds isOpen note).mpr struck)
      · rw [heard, silencing, ← List.append_assoc, List.getLast?_concat, allOff, sent.channel]
  refine ⟨⟨sent.losesNothing, ?_, fun _ note => ?_, fun _ => muted,
    sent.closesOnce truthful.closesOnce⟩, sounding, muted⟩
  · rw [sounding]
    exact List.Pairwise.nil
  · rw [sounding]
    exact ⟨fun mem => absurd mem List.not_mem_nil,
      fun struck => absurd struck (muted.released note)⟩

/-- Closing the output keeps an instrument truthful, if all that is heard of it is over. -/
theorem isTruthful_closeOutput {i : Instrument τ} (truthful : i.IsTruthful) (muted : i.IsOver) :
    i.closeOutput.IsTruthful ∧ i.closeOutput.IsOver ∧ i.closeOutput.output = none := by
  unfold closeOutput
  cases here : i.output with
  | none =>
    have quiet : Tells [] i (i.report [⟨.info, "Sound engine closed"⟩]) :=
      Tells.quietly truthful.losesNothing rfl rfl rfl
    exact ⟨truthful.quietly quiet rfl, quiet.muted truthful.muted here, here⟩
  | some output =>
    have never : ∀ d ∈ i.deeds, d.isClosing = false := by
      rcases truthful.closesOnce with ⟨-, never⟩ | ⟨closed, -⟩
      · exact never
      · cases here.symm.trans closed
    have same : (i.deeds ++ [Deed.closed output.name]).filterMap (Deed.arrived? i.channel) =
        i.heard := by
      rw [List.filterMap_append]
      exact List.append_nil _
    let j : Instrument τ := report
      { i with output := none, deeds := i.deeds ++ [.closed output.name] }
      [⟨.info, "Sound engine closed"⟩]
    have heard : j.heard = i.heard := same
    have muted' : j.IsOver := by
      constructor
      · rw [heard]
        exact muted.released
      · rw [heard]
        exact muted.allOff
    refine ⟨⟨nofun, truthful.ascending, nofun, fun _ => muted', Or.inr ⟨rfl, i.deeds, output.name,
      [], rfl, never, fun d mem => absurd mem List.not_mem_nil, rfl⟩⟩, muted', rfl⟩

variable [Quantity τ]

/-- Clearing keeps an instrument truthful, and all that is heard of it is over. -/
theorem isTruthful_clear {i : Instrument τ} (truthful : i.IsTruthful) (now : τ) :
    (i.clear now).IsTruthful ∧ (i.clear now).sounding = [] ∧ (i.clear now).IsOver := by
  let j : Instrument τ := { i with running := false, queue := [], counter := 0, startTime := zero }
  have quiet : Tells [] i j := Tells.quietly truthful.losesNothing rfl rfl rfl
  exact isTruthful_silence (truthful.quietly quiet rfl) now

/-- A loop that is woken sends the messages of the signals whose time has come, unless it is
cancelled. -/
theorem tells_stepLoop {i : Instrument τ} (sound : i.LosesNothing) {n : Nat} {l : Loop τ}
    (here : i.loop? n = some l) (live : l.cancelled = false) (now : τ) :
    Tells ((i.queue.takeWhile (i.isDue (actTime now l))).map (Signal.message i.channel)) i
      (i.stepLoop now n).1 := by
  let j : Instrument τ := { i with queue := i.queue.dropWhile (i.isDue (actTime now l)) }
  have quiet : Tells [] i j := Tells.quietly sound rfl rfl rfl
  have sent : Tells ((i.queue.takeWhile (i.isDue (actTime now l))).map (Signal.message i.channel))
      i (playDue (actTime now l) i) :=
    quiet.trans (tells_foldl_perform (actTime now l) _ quiet.losesNothing).1
  unfold stepLoop
  rw [here]
  simp only [live, Bool.false_eq_true, if_false]
  split
  · exact sent.andQuietly rfl rfl rfl
  · exact sent.andQuietly rfl rfl rfl

/-- A step of a loop does not close the output. -/
theorem losesNothing_stepLoop {i : Instrument τ} (sound : i.LosesNothing) (now : τ) (n : Nat) :
    (i.stepLoop now n).1.LosesNothing ∧ (i.stepLoop now n).1.output.isSome = i.output.isSome := by
  cases here : i.loop? n with
  | none =>
    unfold stepLoop
    rw [here]
    exact ⟨sound, rfl⟩
  | some l =>
    cases cancelled : l.cancelled with
    | true =>
      rw [stepLoop_cancelled here cancelled]
      exact ⟨sound, rfl⟩
    | false =>
      have sent := tells_stepLoop sound here cancelled now
      exact ⟨sent.losesNothing, sent.isOpen⟩

/-- A step of a loop keeps an instrument truthful. -/
theorem isTruthful_stepLoop {i : Instrument τ} (truthful : i.IsTruthful) (now : τ) (n : Nat) :
    (i.stepLoop now n).1.IsTruthful := by
  unfold stepLoop
  cases here : i.loop? n with
  | none => exact truthful
  | some l =>
    dsimp only
    split
    · exact truthful.quietly (Tells.quietly truthful.losesNothing rfl rfl rfl) rfl
    · have played : (playDue (actTime now l) i).IsTruthful :=
        isTruthful_foldl_perform (actTime now l) _
          (truthful.quietly (Tells.quietly truthful.losesNothing rfl rfl rfl) rfl)
      split
      · exact played.quietly (Tells.quietly played.losesNothing rfl rfl rfl) rfl
      · exact played.quietly (Tells.quietly played.losesNothing rfl rfl rfl) rfl

end Instrument

end Keysong
