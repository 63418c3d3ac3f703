import Keysong.Proofs.Compiling
import Keysong.Proofs.MachineClock
import Keysong.Proofs.Performance

/-!
# The compass of a text

On the standard keyboard a text reaches from B2 to F6 and no further.  An instrument and a track
check the range of a note each in their own way, one leaves a note out and the other gives up; this
module shows that no note of a text ever meets either check, so both keep the same notes.

## Main Definitions

* `Pitch.InCompass` — the pitches that the standard keyboard leads to
* `Event.messages` — the messages of an event in order of arrival
* `Instrument.Takes` — an instrument takes a note as a whole

## Main Statements

* `Compiler.reaches_of_mem_scan` — a letter sounds as its key, moved by a semitone at most
* `Compiler.exists_struck_of_mem_events` — every pitch of an event was such a letter
* `messages_signalsFrom`, `messages_cuesFrom` — an instrument and a track put down the same messages
* `keeps_every_note` — so every note of a text is played and exported

### Why markers do not add up

A marker belongs to the letter directly before it, and with it the scan goes on behind the marker.
A second marker therefore stands on its own; since no marker is a key, it is skipped, and a run of
markers moves a letter as far as its first one does.
-/

namespace Keysong

open Instrument

/-- The pitches that the standard keyboard leads to: from B2 to F6, with one accidental at most. -/
structure Pitch.InCompass (p : Pitch) : Prop where
  lowest : 47 ≤ p.number
  highest : p.number ≤ 89
  flat : -1 ≤ p.accidental
  sharp : p.accidental ≤ 1

/-- The pitches of the compass are not too long to be written. -/
theorem Pitch.InCompass.isWritten {p : Pitch} (inside : p.InCompass) : p.IsWritten := by
  obtain ⟨low, high, flat, sharp⟩ := inside
  have letter : 0 ≤ p.letter.semitones ∧ p.letter.semitones ≤ 11 := by
    cases p.letter <;> decide
  unfold number at low high
  constructor
  · exact Decimal.isWritable_of_natAbs_le (by unfold Decimal.digitLimit; omega)
  · exact Decimal.isWritable_of_natAbs_le (by unfold Decimal.digitLimit; omega)

theorem Pitch.InCompass.inRange {p : Pitch} (inside : p.InCompass) :
    0 ≤ p.number ∧ p.number ≤ 127 :=
  ⟨(by decide : (0 : Int) ≤ 47).trans inside.lowest, inside.highest.trans (by decide)⟩

/-- The keys of the standard keyboard are natural notes from C3 to E6. -/
theorem Keyboard.natural_of_resolve {x : Char} {p : Pitch}
    (found : Keyboard.letters.resolve x = some p) :
    p.accidental = 0 ∧ 48 ≤ p.number ∧ p.number ≤ 88 := by
  have table : ∀ entry ∈ Keyboard.letters.table,
      entry.2.accidental = 0 ∧ 48 ≤ entry.2.number ∧ entry.2.number ≤ 88 := by decide
  obtain ⟨before, behind, split, -⟩ := List.lookup_eq_some_iff.mp found
  apply table (Text.small x, p)
  rw [split]
  exact List.mem_append_right before List.mem_cons_self

/-- A natural note of the standard keyboard stays in its compass when it is moved by a semitone. -/
theorem Pitch.inCompass_shifted {p : Pitch}
    (natural : p.accidental = 0 ∧ 48 ≤ p.number ∧ p.number ≤ 88) {semitones : Int}
    (near : -1 ≤ semitones ∧ semitones ≤ 1) : (p.shifted semitones).InCompass := by
  obtain ⟨plain, low, high⟩ := natural
  have accidental : (p.shifted semitones).accidental = p.accidental + semitones := rfl
  have number := number_shifted p semitones
  refine ⟨?_, ?_, ?_, ?_⟩ <;> omega

/-! ## Where the pitches of events come from -/

theorem mem_of_mem_firstStrikes {p : Pitch} {ps : List Pitch} (mem : p ∈ firstStrikes ps) :
    p ∈ ps := by
  induction ps with
  | nil => exact mem
  | cons q ps ih =>
    rcases List.mem_cons.mp mem with rfl | behind
    · exact List.mem_cons_self
    · exact List.mem_cons_of_mem q (ih (List.mem_of_mem_filter behind))

theorem exists_strike_of_mem_struckChord {duration : NoteValue} {strikes : Strikes} {e : Event}
    (mem : e ∈ strikes.struckChord duration) {p : Pitch} (sounds : p ∈ e.pitches) :
    ∃ v, (p, v) ∈ strikes := by
  cases strikes with
  | nil => exact absurd mem List.not_mem_nil
  | cons first rest =>
    obtain rfl := List.mem_singleton.mp mem
    obtain ⟨strike, inside, rfl⟩ := List.mem_map.mp (mem_of_mem_firstStrikes sounds)
    exact ⟨strike.2, inside⟩

/-- Every pitch of a chord was struck before or is a letter of the member. -/
theorem exists_struck_of_mem_chordsFrom {duration : NoteValue} {pending : Strikes}
    {items : List Item} {e : Event} (mem : e ∈ chordsFrom duration pending items) {p : Pitch}
    (sounds : p ∈ e.pitches) : ∃ v, (p, v) ∈ pending ∨ Item.struck p v ∈ items := by
  induction items generalizing pending with
  | nil =>
    obtain ⟨v, here⟩ := exists_strike_of_mem_struckChord mem sounds
    exact ⟨v, Or.inl here⟩
  | cons item items ih =>
    cases item with
    | rest d =>
      rcases List.mem_append.mp mem with before | mem
      · obtain ⟨v, here⟩ := exists_strike_of_mem_struckChord before sounds
        exact ⟨v, Or.inl here⟩
      rcases List.mem_cons.mp mem with rfl | behind
      · exact absurd sounds List.not_mem_nil
      obtain ⟨v, here | later⟩ := ih behind
      · exact absurd here List.not_mem_nil
      · exact ⟨v, Or.inr (List.mem_cons_of_mem _ later)⟩
    | struck pitch velocity =>
      obtain ⟨v, here | later⟩ := ih mem
      · rcases List.mem_append.mp here with earlier | last
        · exact ⟨v, Or.inl earlier⟩
        · obtain ⟨rfl, rfl⟩ := Prod.mk.inj (List.mem_singleton.mp last)
          exact ⟨v, Or.inr List.mem_cons_self⟩
      · exact ⟨v, Or.inr (List.mem_cons_of_mem _ later)⟩
    | skipped x =>
      obtain ⟨v, here | later⟩ := ih mem
      · exact ⟨v, Or.inl here⟩
      · exact ⟨v, Or.inr (List.mem_cons_of_mem _ later)⟩

namespace Compiler

/-- The pitches that letters can sound as: those of keys, moved by a semitone at most. -/
def Reaches (c : Compiler) (p : Pitch) : Prop :=
  ∃ x key, c.keyboard.resolve x = some key ∧
    ∃ semitones, (-1 ≤ semitones ∧ semitones ≤ 1) ∧ p = key.shifted semitones

/-- A key without a marker. -/
theorem reaches_key {c : Compiler} {x : Char} {key : Pitch}
    (found : c.keyboard.resolve x = some key) : c.Reaches key :=
  ⟨x, key, found, 0, by decide, by simp [Pitch.shifted]⟩

/-- **A letter sounds as its key, moved by a semitone at most**, whatever follows it. -/
theorem reaches_of_mem_scan (c : Compiler) (word : List Char) :
    ∀ item ∈ c.scan word, ∀ p v, item = .struck p v → c.Reaches p := by
  fun_induction c.scan word with
  | case1 => simp
  | case2 x rest d found ih =>
    refine List.forall_mem_cons.mpr ⟨?_, ih⟩
    rintro p v ⟨⟩
  | case3 x rest noRest noPitch ih =>
    refine List.forall_mem_cons.mpr ⟨?_, ih⟩
    rintro p v ⟨⟩
  | case4 x noRest key found =>
    refine List.forall_mem_cons.mpr ⟨?_, List.forall_mem_nil _⟩
    rintro p v ⟨⟩
    exact reaches_key found
  | case5 x noRest key found m behind raised ih =>
    refine List.forall_mem_cons.mpr ⟨?_, ih⟩
    rintro p v ⟨⟩
    exact ⟨x, key, found, 1, by decide, rfl⟩
  | case6 x noRest key found m behind notRaised lowered ih =>
    refine List.forall_mem_cons.mpr ⟨?_, ih⟩
    rintro p v ⟨⟩
    exact ⟨x, key, found, -1, by decide, rfl⟩
  | case7 x noRest key found m behind notRaised notLowered ih =>
    refine List.forall_mem_cons.mpr ⟨?_, ih⟩
    rintro p v ⟨⟩
    exact reaches_key found

/-- Every pitch of an event of a text was a letter of one of its words. -/
theorem exists_struck_of_mem_events (c : Compiler) (text : List Char) {e : Event}
    (mem : e ∈ c.events text) {p : Pitch} (sounds : p ∈ e.pitches) :
    ∃ word v, Item.struck p v ∈ c.scan word := by
  obtain ⟨t, -, mem⟩ := List.mem_flatMap.mp mem
  cases t with
  | word letters =>
    obtain ⟨item, inside, found⟩ := List.mem_filterMap.mp mem
    cases item with
    | rest d =>
      cases found
      exact absurd sounds List.not_mem_nil
    | struck pitch velocity =>
      cases found
      obtain rfl := List.mem_singleton.mp sounds
      exact ⟨letters, velocity, inside⟩
    | skipped x => cases found
  | group members =>
    obtain ⟨member, -, mem⟩ := List.mem_flatMap.mp mem
    obtain ⟨v, nothing | inside⟩ := exists_struck_of_mem_chordsFrom mem sounds
    · exact absurd nothing List.not_mem_nil
    · exact ⟨member, v, inside⟩

/-- On the standard keyboard, the pitches of a text are in its compass. -/
theorem inCompass_of_mem_events {c : Compiler} (standard : c.keyboard = .letters)
    (text : List Char) : ∀ e ∈ c.events text, ∀ p ∈ e.pitches, p.InCompass := by
  intro e mem p sounds
  obtain ⟨word, v, struck⟩ := c.exists_struck_of_mem_events text mem sounds
  obtain ⟨x, key, found, semitones, near, rfl⟩ := c.reaches_of_mem_scan word _ struck p v rfl
  rw [standard] at found
  exact Pitch.inCompass_shifted (Keyboard.natural_of_resolve found) near

/-- On the standard keyboard, an instrument and a track take every event of a text. -/
theorem isPlayable_of_mem_events {c : Compiler} (standard : c.keyboard = .letters)
    (text : List Char) : ∀ e ∈ c.events text, e.IsPlayable := by
  intro e mem
  have inRange : ∀ p ∈ e.pitches, 0 ≤ p.number ∧ p.number ≤ 127 := fun p sounds =>
    (inCompass_of_mem_events standard text e mem p sounds).inRange
  obtain ⟨t, -, mem⟩ := List.mem_flatMap.mp mem
  have emits := c.emits_of_mem_eventsOf t e mem
  cases e with
  | rest d => exact Event.isPlayable_rest d
  | note p d v =>
    exact Event.isPlayable_of_velocity rfl (List.cons_ne_nil p []) inRange emits.2.2
  | chord ps d v => exact Event.isPlayable_of_velocity rfl emits.2.1 inRange emits.1.2.2

end Compiler

/-! ## The same messages twice -/

/-- The messages of an event in order of arrival: each of its notes is struck and released. -/
def Event.messages (channel : Midi.Channel) (e : Event) : List Midi.Message :=
  e.keys.flatMap fun note =>
    [.noteOn channel note e.strength, .noteOff channel note Midi.noStrength]

theorem messages_cuesOf (channel : Midi.Channel) (start stop : Nat) (strength : Midi.Data)
    (serial : Nat) (notes : List Midi.Data) :
    ((cuesOf start stop strength serial notes).map (Cue.placed channel)).map
        Midi.Placed.message =
      notes.flatMap fun note =>
        [.noteOn channel note strength, .noteOff channel note Midi.noStrength] := by
  induction notes generalizing serial with
  | nil => rfl
  | cons note rest ih =>
    rw [cuesOf, List.map_cons, List.map_cons, List.map_cons, List.map_cons, ih, List.flatMap_cons]
    rfl

/-- **A track puts down the messages of its events**, one event after the other. -/
theorem messages_cuesFrom (channel : Midi.Channel) (position serial : Nat)
    (events : List Event) :
    ((cuesFrom position serial events).map (Cue.placed channel)).map Midi.Placed.message =
      events.flatMap (Event.messages channel) := by
  induction events generalizing position serial with
  | nil => rfl
  | cons e rest ih =>
    rw [cuesFrom, List.map_append, List.map_append, messages_cuesOf, ih, List.flatMap_cons]
    rfl

/-! ### The walk of an instrument -/

section Playing

variable {τ : Type} [Quantity τ]

/-- An accepted note puts its strike and its release into a queue, if it fits a message. -/
theorem messages_signals {n : ScheduledNote τ} (accepted : n.IsAccepted)
    (unit : 0 ≤ n.velocity ∧ n.velocity ≤ 1) (channel : Midi.Channel) (serial : Nat) :
    (n.signals serial).map (Signal.message channel) =
      (Midi.noteOf? n.pitch.number).toList.flatMap fun note =>
        [.noteOn channel note (Midi.strengthAt n.velocity),
          .noteOff channel note Midi.noStrength] := by
  cases inside : Midi.noteOf? n.pitch.number with
  | none =>
    rw [ScheduledNote.signals_outside inside]
    rfl
  | some note =>
    rw [ScheduledNote.signals_inside accepted.notEarly accepted.notShort inside
      (Midi.attack_eq unit.1 unit.2)]
    rfl

theorem pitch_notesAt (e : Event) (secondsPerBeat cursor : τ) :
    (e.notesAt secondsPerBeat cursor).map ScheduledNote.pitch = e.pitches := by
  cases e with
  | rest d => rfl
  | note p d v => rfl
  | chord ps d v => simp [Event.notesAt, Event.strikes, Event.pitches, Function.comp_def]

theorem messages_signalsFrom_struck {notes : List (ScheduledNote τ)} {velocity : Float}
    (accepted : ∀ n ∈ notes, n.IsAccepted) (unit : 0 ≤ velocity ∧ velocity ≤ 1)
    (alike : ∀ n ∈ notes, n.velocity = velocity) (channel : Midi.Channel) (serial : Nat) :
    (signalsFrom serial notes).map (Signal.message channel) =
      ((notes.map ScheduledNote.pitch).filterMap fun p => Midi.noteOf? p.number).flatMap
        fun note => [.noteOn channel note (Midi.strengthAt velocity),
          .noteOff channel note Midi.noStrength] := by
  induction notes generalizing serial with
  | nil => rfl
  | cons n rest ih =>
    obtain ⟨here, behind⟩ := List.forall_mem_cons.mp accepted
    obtain ⟨rfl, alike⟩ := List.forall_mem_cons.mp alike
    rw [signalsFrom, List.map_append, messages_signals here unit, ih behind alike, List.map_cons,
      List.filterMap_cons]
    cases Midi.noteOf? n.pitch.number with
    | none => rfl
    | some note => rfl

/-- The notes of an event put its messages into a queue. -/
theorem messages_notesAt {e : Event} (unit : ∀ v ∈ e.velocity?, 0 ≤ v ∧ v ≤ 1)
    {secondsPerBeat cursor : τ}
    (accepted : ∀ n ∈ e.notesAt secondsPerBeat cursor, n.IsAccepted) (channel : Midi.Channel)
    (serial : Nat) :
    (signalsFrom serial (e.notesAt secondsPerBeat cursor)).map (Signal.message channel) =
      e.messages channel := by
  cases struck : e.velocity? with
  | none =>
    cases e with
    | rest d => rfl
    | note p d v => cases struck
    | chord ps d v => cases struck
  | some velocity =>
    have alike : ∀ n ∈ e.notesAt secondsPerBeat cursor, n.velocity = velocity := by
      intro n mem
      obtain ⟨-, -, same, -⟩ := of_mem_notesAt mem
      rw [struck] at same
      exact (Option.some.inj same).symm
    rw [messages_signalsFrom_struck accepted (unit velocity struck) alike, pitch_notesAt]
    unfold Event.messages Event.strength
    rw [struck]
    rfl

/-- **An instrument queues the messages of its events**, one event after the other. -/
theorem messages_signalsFrom {events : List Event}
    (unit : ∀ e ∈ events, ∀ v ∈ e.velocity?, 0 ≤ v ∧ v ≤ 1) {secondsPerBeat cursor : τ}
    (accepted : ∀ n ∈ timelineFrom secondsPerBeat cursor events, n.IsAccepted)
    (channel : Midi.Channel) (serial : Nat) :
    (signalsFrom serial (timelineFrom secondsPerBeat cursor events)).map (Signal.message channel) =
      events.flatMap (Event.messages channel) := by
  induction events generalizing cursor serial with
  | nil => rfl
  | cons e rest ih =>
    obtain ⟨here, behind⟩ := List.forall_mem_append.mp accepted
    obtain ⟨unitHere, unitBehind⟩ := List.forall_mem_cons.mp unit
    rw [timelineFrom, signalsFrom_append, List.map_append, messages_notesAt unitHere here,
      ih unitBehind behind, List.flatMap_cons]

/-- Every note of a timeline is a pitch of one of the events. -/
theorem exists_event_of_mem_timelineFrom {events : List Event} {secondsPerBeat cursor : τ}
    {n : ScheduledNote τ} (mem : n ∈ timelineFrom secondsPerBeat cursor events) :
    ∃ e ∈ events, n.pitch ∈ e.pitches := by
  induction events generalizing cursor with
  | nil => exact absurd mem List.not_mem_nil
  | cons e rest ih =>
    rcases List.mem_append.mp mem with here | later
    · exact ⟨e, List.mem_cons_self, (of_mem_notesAt here).2.2.2⟩
    · obtain ⟨e', inside, sounds⟩ := ih later
      exact ⟨e', List.mem_cons_of_mem e inside, sounds⟩

/-- Notes that are accepted and fit a message put two signals each into a queue. -/
theorem length_signalsFrom {notes : List (ScheduledNote τ)}
    (accepted : ∀ n ∈ notes, n.IsAccepted)
    (inRange : ∀ n ∈ notes, 0 ≤ n.pitch.number ∧ n.pitch.number ≤ 127) (serial : Nat) :
    (signalsFrom serial notes).length = 2 * notes.length := by
  induction notes generalizing serial with
  | nil => rfl
  | cons n rest ih =>
    obtain ⟨here, behind⟩ := List.forall_mem_cons.mp accepted
    obtain ⟨fits, others⟩ := List.forall_mem_cons.mp inRange
    obtain ⟨note, inside⟩ := Midi.Track.exists_noteOf? fits
    obtain ⟨strength, strong⟩ := here.strong
    rw [signalsFrom, List.length_append, ih behind others,
      ScheduledNote.signals_inside here.notEarly here.notShort inside strong]
    simp only [List.length_cons, List.length_nil]
    omega

namespace Instrument

/-- An instrument takes a note as a whole: its strike and its release are all that is queued, and
no warning is given. -/
structure Takes (i : Instrument τ) (n : ScheduledNote τ) (i' : Instrument τ) : Prop where
  scheduled : i.schedule n = .ok i'
  queued : ∃ note strength, (note.val : Int) = n.pitch.number ∧ i'.queue.Perm
    ((signalsOf i.counter note strength n.start n.duration).1 ::
      (signalsOf i.counter note strength n.start n.duration).2 :: i.queue)
  counted : i'.counter = i.counter + 2
  noWarning : ∃ text, i'.notices = i.notices ++ [⟨.debug, text⟩]

theorem exists_takes {n : ScheduledNote τ} (taken : n.IsTaken)
    (inRange : 0 ≤ n.pitch.number ∧ n.pitch.number ≤ 127) (i : Instrument τ) :
    ∃ i', i.Takes n i' := by
  obtain ⟨strength, strong⟩ := taken.strong
  have inside : Midi.noteOf? n.pitch.number = some ⟨n.pitch.number.toNat, by omega⟩ :=
    dif_pos inRange
  have signals := n.signals_inside taken.notEarly taken.notShort inside strong i.counter
  refine ⟨_, schedule_inside taken inside i, ⟨⟨n.pitch.number.toNat, by omega⟩, strength,
    Int.toNat_of_nonneg inRange.1, ?_⟩, rfl, _, rfl⟩
  show (enqueueAll (n.signals i.counter) i.queue).Perm _
  rw [signals]
  exact (perm_enqueueAll _ _).trans List.perm_append_comm

end Instrument

end Playing

/-! ## Both keep all notes -/

/-- Playback and export keep the same notes: an instrument takes every note of the timeline as a
whole, in whatever state it is; a track takes all events; and what all notes together put into a
queue are the messages of the track, two for each note. -/
structure KeepsNotes (events : List Event) (tempo : Tempo) : Prop where
  takes : ∀ n ∈ timeline (τ := Float) tempo events, ∀ i, ∃ i', Instrument.Takes i n i'
  exports : ∀ name, ∃ track, Midi.Track.ofEvents tempo name events = .ok track ∧
    ∀ i : Instrument Float, ∃ i' signals, i.scheduleAll (timeline tempo events) = .ok i' ∧
      i'.queue.Perm (i.queue ++ signals) ∧
      signals.length = 2 * (timeline (τ := Float) tempo events).length ∧
      signals.map (Signal.message track.channel) = track.placed.map Midi.Placed.message

/-- Both keep the notes of playable events whose pitches can be written. -/
theorem keepsNotes_of_isPlayable {events : List Event} (playable : ∀ e ∈ events, e.IsPlayable)
    (spelled : ∀ e ∈ events, e.IsSpelled) (tempo : Tempo) : KeepsNotes events tempo := by
  have unit : ∀ e ∈ events, ∀ v ∈ e.velocity?, 0 ≤ v ∧ v ≤ 1 := fun e mem => (playable e mem).unit
  have accepted := isAccepted_timeline_float unit tempo
  have taken : ∀ n ∈ timeline (τ := Float) tempo events, n.IsTaken := fun n mem =>
    ⟨accepted n mem, isWritten_timelineFrom spelled _ _ n mem⟩
  have inRange : ∀ n ∈ timeline (τ := Float) tempo events,
      0 ≤ n.pitch.number ∧ n.pitch.number ≤ 127 := by
    intro n mem
    obtain ⟨e, inside, sounds⟩ := exists_event_of_mem_timelineFrom mem
    exact (playable e inside).inRange n.pitch sounds
  refine ⟨fun n mem => exists_takes (taken n mem) (inRange n mem), fun name => ?_⟩
  obtain ⟨cursor, added⟩ :=
    Midi.exists_ofEvents (fun e mem => (playable e mem).isWritable) tempo name
  refine ⟨_, added, fun i => ?_⟩
  obtain ⟨i', scheduled⟩ := scheduleAll_of_isTaken taken i
  obtain ⟨fills, -⟩ := fills_scheduleAll scheduled
  refine ⟨i', _, scheduled, ?_, length_signalsFrom accepted inRange i.counter, ?_⟩
  · rw [fills.queue]
    exact perm_enqueueAll _ _
  · exact (messages_signalsFrom unit accepted _ _).trans (messages_cuesFrom _ 0 0 events).symm

/-- **Every note of a text is played and exported.**  Whatever the grammar, the pacing, the rests
and the text, on the standard keyboard the pitches of a compiled text lie between 47 and 89 with one
accidental at most; so at every tempo playback and export keep the same notes, which are all. -/
theorem keeps_every_note (c : Compiler) (standard : c.keyboard = .letters) (text : List Char) :
    ∃ events, c.compile text = .ok events ∧ (∀ e ∈ events, ∀ p ∈ e.pitches, p.InCompass) ∧
      ∀ tempo, KeepsNotes events tempo :=
  ⟨c.events text, c.compile_eq text, Compiler.inCompass_of_mem_events standard text,
    keepsNotes_of_isPlayable (Compiler.isPlayable_of_mem_events standard text)
      fun e mem p sounds =>
        (Compiler.inCompass_of_mem_events standard text e mem p sounds).isWritten⟩

/-- The lowest and the highest note of the keyboard, with more markers than count. -/
theorem keeps_every_note_extremes :
    Compiler.standard.keyboard = .letters ∧
      ((Compiler.standard.events "z,,P''".toList).flatMap Event.pitches).map Pitch.number =
        [47, 89] ∧
      ∃ events, Compiler.standard.compile "z,,P''".toList = .ok events ∧
        (∀ e ∈ events, ∀ p ∈ e.pitches, p.InCompass) ∧ ∀ tempo, KeepsNotes events tempo :=
  ⟨rfl, by decide +kernel, keeps_every_note .standard rfl _⟩

end Keysong
