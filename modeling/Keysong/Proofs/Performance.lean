import Keysong.Proofs.Cues
import Keysong.Proofs.Rounding
import Keysong.Proofs.Turns
import Mathlib.Data.List.TakeWhile

/-!
# A performance and a file of the same events

A row of events is played by one caller on an instrument that nobody else uses, and written into a
file.  Whatever the order of turns, the messages that leave the instrument are those of the file,
and their times are the ticks of the file.

## Main Definitions

* `Instrument.IsIdle` — an instrument on which nothing sounds and no loop is left
* `Stage.alone` — a stage with one caller
* `Underway` — what holds from the moment at which the caller has gone
* `Midi.noteEntries` — the notes of a file with their absolute ticks
* `SamePerformance` — what it means that deeds and entries agree

## Main Statements

* `waitsOrPlays_run` — along every run the caller has not gone yet, or the signals that were played
  and those in the queue are the ones that were scheduled, in order
* `exists_drained` — and time can always pass until the queue is empty
* `play_agrees_with_file` — the deeds of a performance agree with the entries of the file

### Which turns there are

The caller has nothing to wait for on an idle instrument, so its program is one turn.  Before it
only the clock moves.  After it only the clock and the new loop do, and the loop takes signals from
the front of the queue, so nothing changes their order.
-/

namespace Keysong

open Quantity Instrument

variable {τ : Type} [Quantity τ]

/-! ## The program of a session -/

/-- An instrument on which nothing sounds and no loop is left. -/
structure Instrument.IsIdle (i : Instrument τ) : Prop where
  ended : ∀ l ∈ i.loops, l.isEnded = true
  silent : i.sounding = []

/-- The deed of a reset on an instrument on which nothing sounds. -/
def Instrument.Deed.IsQuiet (channel : Midi.Channel) (d : Deed τ) : Prop :=
  ∃ time reached,
    d = .silenced time (.control channel Midi.allNotesOff Midi.noStrength) reached

/-- Between two states of an instrument nothing was sent but that all notes are off. -/
structure Instrument.Hushed (i i' : Instrument τ) (lead : List (Deed τ)) : Prop where
  channel : i'.channel = i.channel
  sounding : i'.sounding = []
  deeds : i'.deeds = i.deeds ++ lead
  quiet : ∀ d ∈ lead, d.IsQuiet i.channel
  arrives : i.CarriesAll → i'.CarriesAll ∧ ∀ d ∈ lead, d.reached = true

/-- What an instrument is once a row of notes is put into its queue and a loop is launched. -/
structure Instrument.Started (notes : List (ScheduledNote τ)) (i i' : Instrument τ)
    (lead : List (Deed τ)) : Prop extends Hushed i i' lead where
  queue : i'.queue = enqueueAll (signalsFrom 0 notes) []
  loops : i'.loops = i.loops ++ [{ phase := .fresh, cancelled := false }]

namespace Instrument

/-- Resetting an instrument on which nothing sounds is not heard. -/
theorem exists_hushed {i : Instrument τ} (silent : i.sounding = []) (now : τ) :
    ∃ lead, Hushed i (clear now { i with current := none }) lead := by
  obtain ⟨lead, sent, releases⟩ := sends_clear now { i with current := none }
  have single : silencing { i with current := none } =
      [.control i.channel Midi.allNotesOff Midi.noStrength] := by
    unfold silencing
    rw [silent]
    rfl
  refine ⟨lead, sent.channel, sounding_silence now _, sent.deeds, fun d mem => ?_, sent.arrives⟩
  obtain ⟨message, inside, reached, same⟩ := releases d mem
  rw [single] at inside
  obtain rfl := List.mem_singleton.mp inside
  exact ⟨now, reached, same⟩

/-- What is put into the queue is not heard. -/
theorem Hushed.fills {i i' i'' : Instrument τ} {lead : List (Deed τ)} {signals : List (Signal τ)}
    (hushed : Hushed i i' lead) (fills : Fills signals i' i'') : Hushed i i'' lead where
  channel := fills.channel.trans hushed.channel
  sounding := fills.sounding.trans hushed.sounding
  deeds := fills.deeds.trans hushed.deeds
  quiet := hushed.quiet
  arrives carries := by
    obtain ⟨⟨output, here, all⟩, reached⟩ := hushed.arrives carries
    exact ⟨⟨output, fills.output.trans here, all⟩, reached⟩

omit [Quantity τ] in
theorem Hushed.trans {i i' i'' : Instrument τ} {lead lead' : List (Deed τ)}
    (h : Hushed i i' lead) (h' : Hushed i' i'' lead') : Hushed i i'' (lead ++ lead') where
  channel := h'.channel.trans h.channel
  sounding := h'.sounding
  deeds := by rw [h'.deeds, h.deeds, List.append_assoc]
  quiet := List.forall_mem_append.mpr ⟨h.quiet, h.channel ▸ h'.quiet⟩
  arrives carries := by
    obtain ⟨carries', reached⟩ := h.arrives carries
    obtain ⟨carries'', reached'⟩ := h'.arrives carries'
    exact ⟨carries'', List.forall_mem_append.mpr ⟨reached, reached'⟩⟩

end Instrument

namespace Stage

omit [Quantity τ] in
theorem loopEnded_of_all {i : Instrument τ} (ended : ∀ l ∈ i.loops, l.isEnded = true) (n : Nat) :
    i.loopEnded n = true := by
  unfold loopEnded loop?
  cases here : i.loops[n]? with
  | none => rfl
  | some l => exact ended l (List.mem_of_getElem? here)

/-- On an instrument whose loops have ended, there is nothing to cancel. -/
theorem runCaller_cancel (s : Stage τ) (ended : ∀ l ∈ s.instrument.loops, l.isEnded = true)
    (n : Nat) (rest : Program τ) :
    runCaller n (.cancel :: rest) s =
      runCaller n rest { s with instrument := { s.instrument with current := none } } := by
  rw [runCaller_cons rfl]
  dsimp only [act]
  cases current : s.instrument.current with
  | none =>
    have same : { s.instrument with current := none } = s.instrument := by rw [← current]
    rw [same]
  | some l =>
    have ended' : loopEnded { s.instrument with current := none } l = true :=
      loopEnded_of_all ended l
    dsimp only
    rw [ended', if_pos rfl]

/-- Where the lock is free and all loops have ended, a session begins with a reset at once. -/
theorem runCaller_opening {s : Stage τ} (free : s.holder = none)
    (ended : ∀ l ∈ s.instrument.loops, l.isEnded = true) (n : Nat) (rest : Program τ) :
    runCaller n (.acquire :: .cancel :: .clear :: rest) s =
      runCaller n rest { s with
        holder := some n
        instrument := clear s.now { s.instrument with current := none } } := by
  have unlocked : s.blocks .acquire = false := by
    unfold blocks
    rw [free]
    rfl
  rw [runCaller_cons unlocked]
  dsimp only [act]
  rw [runCaller_cancel { s with holder := some n } ended, runCaller_cons rfl]
  rfl

theorem runCaller_schedules {s : Stage τ} {notes : List (ScheduledNote τ)} {i : Instrument τ}
    (scheduled : s.instrument.scheduleAll notes = .ok i) (n : Nat) (rest : Program τ) :
    runCaller n (notes.map .schedule ++ rest) s = runCaller n rest { s with instrument := i } := by
  induction notes generalizing s with
  | nil =>
    obtain rfl := Except.ok.inj scheduled
    rfl
  | cons note notes ih =>
    unfold scheduleAll at scheduled
    rw [List.foldlM_cons] at scheduled
    rw [List.map_cons, List.cons_append, runCaller_cons rfl]
    cases first : s.instrument.schedule note with
    | error fault =>
      rw [first] at scheduled
      cases scheduled
    | ok middle =>
      rw [first] at scheduled
      rw [act_schedule_ok first]
      exact ih (s := { s with instrument := middle }) scheduled

/-- A row of notes of which one is refused: those before it are in the queue, and the caller frees
the lock and does what is salvaged. -/
theorem runCaller_schedules_refused {s : Stage τ} {notes : List (ScheduledNote τ)} {fault : Fault}
    (refused : s.instrument.scheduleAll notes = .error fault) (n : Nat) (rest : Program τ) :
    ∃ i signals, Fills signals s.instrument i ∧
      ∀ s', ({ s with instrument := i } : Stage τ).unlock n = s' →
        runCaller n (notes.map .schedule ++ rest) s =
          ((runCaller n (salvage rest) s').1,
            (runCaller n (salvage rest) s').2.resume (some fault)) := by
  induction notes generalizing s with
  | nil => cases refused
  | cons note notes ih =>
    unfold scheduleAll at refused
    rw [List.foldlM_cons] at refused
    rw [List.map_cons, List.cons_append, runCaller_cons rfl]
    cases first : s.instrument.schedule note with
    | error fault' =>
      rw [first] at refused
      obtain rfl : fault' = fault := Except.error.inj refused
      refine ⟨_, _, fills_on note s.instrument, ?_⟩
      rintro s' rfl
      rw [act_schedule_error first, salvage_append]
      intro action mem
      obtain ⟨note, -, rfl⟩ := List.mem_map.mp mem
      nofun
    | ok middle =>
      rw [first] at refused
      obtain ⟨i, signals, fills, ran⟩ := ih (s := { s with instrument := middle }) refused
      rw [act_schedule_ok first]
      exact ⟨i, _, (fills_schedule first).1.trans fills, ran⟩

/-- Resetting an idle instrument, putting notes into its queue and launching a loop. -/
theorem exists_started {i : Instrument τ} (idle : i.IsIdle) {notes : List (ScheduledNote τ)}
    (taken : ∀ note ∈ notes, note.IsTaken) (now : τ) (notice : Notice) :
    ∃ filled lead, (clear now { i with current := none }).scheduleAll notes = .ok filled ∧
      (∀ l ∈ filled.loops, l.isEnded = true) ∧
      Started notes i ((launch now { filled with current := none }).report [notice]) lead := by
  obtain ⟨deeds, sent, -⟩ := sends_clear now { i with current := none }
  obtain ⟨lead, hushed⟩ := exists_hushed idle.silent now
  obtain ⟨filled, scheduled, fills, queue⟩ := exists_filled taken now { i with current := none }
  have loops : filled.loops = i.loops := fills.loops.trans sent.loops
  have after := hushed.fills fills
  refine ⟨filled, lead, scheduled, fun l mem => idle.ended l (loops ▸ mem),
    ⟨⟨after.channel, after.sounding, after.deeds, after.quiet, after.arrives⟩, queue, ?_⟩⟩
  exact congrArg (· ++ [{ phase := .fresh, cancelled := false }]) loops

/-- **On an idle instrument a session is played in one turn.** -/
theorem runCaller_playProgram {s : Stage τ} (free : s.holder = none)
    (idle : s.instrument.IsIdle) {notes : List (ScheduledNote τ)}
    (taken : ∀ note ∈ notes, note.IsTaken) (notice : Notice) (n : Nat) :
    ∃ i lead, Started notes s.instrument i lead ∧
      runCaller n (playProgram notes notice) s =
        ({ s with instrument := i, holder := none }, ⟨[], none⟩) := by
  obtain ⟨filled, lead, scheduled, ended, started⟩ := exists_started idle taken s.now notice
  refine ⟨_, lead, started, ?_⟩
  -- The lock is free and no loop is left, so no action of the program has to wait.
  rw [playProgram_eq, runCaller_opening free idle.ended, runCaller_schedules scheduled,
    runCaller_cancel { s with holder := some n, instrument := filled } ended, runCaller_cons rfl]
  dsimp only [act]
  rw [runCaller_cons rfl]
  dsimp only [act, unlock]
  rw [if_pos rfl, runCaller_cons rfl]
  rfl

/-! ## The run -/

/-- A stage with one caller. -/
def alone (now : τ) (i : Instrument τ) (program : Program τ) : Stage τ :=
  { idle now i with callers := [⟨program, none⟩] }

end Stage

namespace Stage

/-- A loop that has not ended is ready from some point in time on. -/
theorem exists_isReady {l : Loop τ} (going : l.isEnded = false) :
    ∃ wake : τ, ∀ now, wake ≤ now → l.isReady now = true := by
  unfold Loop.isEnded at going
  unfold Loop.isReady
  cases phase : l.phase with
  | ended =>
    rw [phase] at going
    cases going
  | fresh => exact ⟨Quantity.zero, fun now _ => rfl⟩
  | asleep wake watch =>
    refine ⟨wake, fun now behind => ?_⟩
    have awake : decide (wake ≤ now) = true := decide_eq_true behind
    dsimp only
    rw [awake, Bool.or_true]

end Stage

/-! ## The entries of a file -/

namespace Midi

/-- What a message says about a note: whether it is struck, its number and its strength. -/
def Message.note? : Message → Option (Bool × Data × Data)
  | .noteOn _ note strength => some (true, note, strength)
  | .noteOff _ note strength => some (false, note, strength)
  | _ => none

/-- Entries with the ticks from the beginning, for entries with the ticks since the one before. -/
def absolute : Nat → List (Nat × Message) → List (Nat × Message)
  | _, [] => []
  | now, (delta, message) :: rest => (now + delta, message) :: absolute (now + delta) rest

/-- The notes of a file: their absolute ticks and what is said about them. -/
def noteEntries (entries : List (Nat × Message)) : List (Nat × (Bool × Data × Data)) :=
  (absolute 0 entries).filterMap fun (tick, message) => message.note?.map fun note => (tick, note)

theorem absolute_append (now : Nat) (first others : List (Nat × Message)) :
    ∃ now', absolute now (first ++ others) = absolute now first ++ absolute now' others := by
  induction first generalizing now with
  | nil => exact ⟨now, rfl⟩
  | cons entry rest ih =>
    obtain ⟨now', same⟩ := ih (now + entry.1)
    exact ⟨now', congrArg (List.cons (now + entry.1, entry.2)) same⟩

/-- Adding up the ticks between messages in ascending order gives back their ticks. -/
theorem absolute_deltas {last : Nat} {placed : List Placed} (behind : ∀ p ∈ placed, last ≤ p.tick)
    (ascending : placed.Pairwise fun a b => a.tick ≤ b.tick) :
    absolute last (Track.deltas last placed) = placed.map fun p => (p.tick, p.message) := by
  induction placed generalizing last with
  | nil => rfl
  | cons p rest ih =>
    obtain ⟨least, ascending'⟩ := List.pairwise_cons.mp ascending
    have tick : last + (p.tick - last) = p.tick :=
      Nat.add_sub_of_le (behind p List.mem_cons_self)
    rw [Track.deltas, absolute, tick, ih least ascending', List.map_cons]

theorem ascending_inOrder (channel : Channel) (cues : List Cue) :
    ((inOrder cues).map (Cue.placed channel)).Pairwise fun a b => a.tick ≤ b.tick := by
  refine List.pairwise_map.mpr ((pairwise_inOrder cues).imp fun {a b} before => ?_)
  rw [Cue.key, Cue.key, Prod.Lex.toLex_le_toLex] at before
  show 60 * a.position ≤ 60 * b.position
  rcases before with earlier | ⟨same, -⟩
  · omega
  · omega

/-- The names that a track can have: a text, or none. -/
def IsName : Value → Prop
  | .null | .text _ | .ragged _ => True
  | _ => False

theorem nameOf_of_isName {track : Track} (named : IsName track.name) :
    ∃ name, track.nameOf = .ok name := by
  unfold Track.nameOf
  cases kind : track.name with
  | null => exact ⟨none, rfl⟩
  | text s =>
    dsimp only
    split
    · exact ⟨_, rfl⟩
    · exact ⟨none, rfl⟩
  | ragged points =>
    dsimp only
    split
    · exact ⟨_, rfl⟩
    · exact ⟨none, rfl⟩
  | _ =>
    rw [kind] at named
    exact named.elim

/-- The entries of a track: its notes stand between a heading and the end. -/
theorem messages_of_heading {track : Track} {heading : Option (List Text.CodePoint)} {length : Nat}
    (called : track.nameOf = .ok heading) (fits : microseconds track.tempo.bpm = .ok length) :
    track.messages = .ok ((heading.map fun s => (0, Message.trackName s)).toList
      ++ (0, .setTempo length) :: (Track.deltas 0 track.sorted ++ [(0, .endOfTrack)])) := by
  unfold Track.messages
  rw [called, fits]
  rfl

/-- Entries that a track has are such. -/
theorem exists_of_messages {track : Track} {entries : List (Nat × Message)}
    (written : track.messages = .ok entries) :
    ∃ heading length, track.nameOf = .ok heading ∧ microseconds track.tempo.bpm = .ok length ∧
      entries = (heading.map fun s => (0, Message.trackName s)).toList
        ++ (0, .setTempo length) :: (Track.deltas 0 track.sorted ++ [(0, .endOfTrack)]) := by
  obtain ⟨heading, called, rest⟩ := exists_of_bind written
  obtain ⟨length, fits, same⟩ := exists_of_bind rest
  exact ⟨heading, length, called, fits, (Except.ok.inj same).symm⟩

/-- A track with a name, at a tempo that a file can hold, has entries. -/
theorem messages_eq (track : Track) (named : IsName track.name) {length : Nat}
    (fits : microseconds track.tempo.bpm = .ok length) :
    ∃ heading : Option (List Text.CodePoint),
      track.messages = .ok ((heading.map fun s => (0, Message.trackName s)).toList
        ++ (0, .setTempo length) :: (Track.deltas 0 track.sorted ++ [(0, .endOfTrack)])) := by
  obtain ⟨heading, called⟩ := nameOf_of_isName named
  exact ⟨heading, messages_of_heading called fits⟩

/-- The notes between a heading and the end. -/
theorem noteEntries_between (heading : Option (List Text.CodePoint)) (length : Nat)
    (entries : List (Nat × Message)) :
    noteEntries ((heading.map fun s => (0, Message.trackName s)).toList
        ++ (0, .setTempo length) :: (entries ++ [(0, .endOfTrack)])) = noteEntries entries := by
  obtain ⟨now, split⟩ := absolute_append 0 entries [(0, .endOfTrack)]
  have bare : noteEntries ((0, .setTempo length) :: (entries ++ [(0, .endOfTrack)])) =
      noteEntries entries := by
    unfold noteEntries
    rw [absolute, Nat.add_zero, split, List.filterMap_cons_none rfl, List.filterMap_append]
    exact List.append_nil _
  cases heading with
  | none => exact bare
  | some s => exact bare

/-- The notes of a file that holds the messages of some cues. -/
theorem noteEntries_cues (channel : Channel) (cues : List Cue) :
    noteEntries (Track.deltas 0 ((inOrder cues).map (Cue.placed channel))) =
      (inOrder cues).map fun c => (60 * c.position, c.isStrike, c.note, c.strength) := by
  unfold noteEntries
  rw [absolute_deltas (fun p _ => Nat.zero_le p.tick) (ascending_inOrder channel cues),
    List.map_map, List.filterMap_map]
  have described : ∀ c : Cue, (c.placed channel).message.note? =
      some (c.isStrike, c.note, c.strength) := by
    intro c
    unfold Cue.placed
    cases c.isStrike
    · rfl
    · rfl
  refine (List.filterMap_congr fun c _ => ?_).trans (congrFun List.filterMap_eq_map _)
  show (c.placed channel).message.note?.map _ = some _
  rw [described]
  rfl

/-- The track of a row of writable events holds the messages of their cues. -/
theorem exists_ofEvents {events : List Event} (writable : ∀ e ∈ events, e.IsWritable)
    (tempo : Tempo) (name : Value) :
    ∃ cursor, Track.ofEvents tempo name events =
      .ok ((Track.atTempo tempo name).placing (cuesFrom 0 0 events) cursor) := by
  have nothing : Track.ticksOfAll Track.standardResolution [] = .ok 0 := rfl
  have beginning : (Track.atTempo tempo name).cursor + 0 = 60 * 0 := rfl
  exact Track.addAll_leadInsFrom writable rfl nothing beginning

/-- The notes of a track that holds the messages of some cues. -/
theorem noteEntries_placing (track : Track) (nothing : track.placed = []) (cues : List Cue)
    (cursor : Nat) (heading : Option (List Text.CodePoint)) (length : Nat) :
    noteEntries ((heading.map fun s => (0, Message.trackName s)).toList ++
        (0, .setTempo length) ::
          (Track.deltas 0 (track.placing cues cursor).sorted ++ [(0, .endOfTrack)])) =
      (inOrder cues).map fun c => (60 * c.position, c.isStrike, c.note, c.strength) := by
  have placed : (track.placing cues cursor).placed = cues.map (Cue.placed track.channel) := by
    unfold Track.placing
    rw [nothing, List.nil_append]
  rw [noteEntries_between, sorted_cues placed, noteEntries_cues]

end Midi

/-! ## Both together -/

theorem secondsPerBeat_pos (tempo : Tempo) : (0 : Rat) < tempo.secondsPerBeat := by
  have positive := tempo.quantity_pos
  show (0 : Rat) < ((60 : Nat) : Rat) / tempo.quantity
  positivity

theorem timeline_eq (tempo : Tempo) (events : List Event) :
    timeline tempo events = timelineFrom tempo.secondsPerBeat
      (Cue.seconds tempo.secondsPerBeat 0) events := by
  have beginning : Cue.seconds tempo.secondsPerBeat 0 = zero := by
    rw [zero_eq, Cue.seconds, Nat.cast_zero, zero_div, zero_mul]
  rw [timeline, beginning]

theorem isAccepted_timeline {tempo : Tempo} {events : List Event}
    (unit : ∀ e ∈ events, ∀ v ∈ e.velocity?, 0 ≤ v ∧ v ≤ 1) :
    ∀ n ∈ (timeline tempo events : List (ScheduledNote Rat)), n.IsAccepted := by
  rw [timeline_eq]
  exact isAccepted_timelineFrom (secondsPerBeat_pos tempo) unit 0

/-- **The queue of a row of playable events** holds their cues in order. -/
theorem queue_timeline (tempo : Tempo) {events : List Event}
    (playable : ∀ e ∈ events, e.IsPlayable) :
    enqueueAll (signalsFrom 0 (timeline tempo events)) [] =
      (inOrder (cuesFrom 0 0 events)).map (Cue.signal tempo.secondsPerBeat) := by
  have pos := secondsPerBeat_pos tempo
  rw [timeline_eq, signalsFrom_timelineFrom pos playable,
    queue_cues pos (nodup_serials_cuesFrom 0 0 events)]

/-- A tempo of two quarter notes a second. -/
def Tempo.moderate : Tempo := ⟨120.0, by decide +kernel⟩

/-- A rest, a note, and a chord that strikes the same note again. -/
def phrase : List Event :=
  [.rest .quarter, .note ⟨.c, 0, 4⟩ .eighth 0.5, .chord [⟨.c, 0, 4⟩, ⟨.e, 0, 4⟩] .quarter 1.0]

theorem ofValue_moderate : Tempo.ofValue (.float 120.0) = .ok Tempo.moderate := by
  unfold Tempo.ofValue Tempo.ofFloat
  exact dif_pos Tempo.moderate.valid

theorem microseconds_moderate : Midi.microseconds Tempo.moderate.bpm = .ok 500000 := by
  have nearest : Quantity.nearest (Midi.unrounded Tempo.moderate.bpm) = some 500000 := by
    decide +kernel
  exact Midi.microseconds_of_nearest nearest

theorem Event.isPlayable_rest (duration : NoteValue) : (Event.rest duration).IsPlayable where
  strikes struck := Bool.noConfusion struck
  inRange _ mem := absurd mem List.not_mem_nil
  unit v mem := absurd mem (Option.not_mem_none v)

theorem Event.isPlayable_of_velocity {e : Event} {v : Float} (velocity : e.velocity? = some v)
    (strikes : e.pitches ≠ []) (inRange : ∀ p ∈ e.pitches, 0 ≤ p.number ∧ p.number ≤ 127)
    (unit : 0 ≤ v ∧ v ≤ 1) : e.IsPlayable where
  strikes _ := strikes
  inRange := inRange
  unit w mem := by
    rw [velocity, Option.mem_some_iff] at mem
    rwa [← mem]

theorem isPlayable_of_mem_phrase : ∀ e ∈ phrase, e.IsPlayable := by
  have half : (0 : Float) ≤ 0.5 ∧ (0.5 : Float) ≤ 1 := by decide +kernel
  have full : (0 : Float) ≤ 1.0 ∧ (1.0 : Float) ≤ 1 := by decide +kernel
  refine List.forall_mem_cons.mpr ⟨Event.isPlayable_rest .quarter, ?_⟩
  refine List.forall_mem_cons.mpr ⟨?_, List.forall_mem_singleton.mpr ?_⟩
  · exact Event.isPlayable_of_velocity rfl (List.cons_ne_nil _ _) (by decide) half
  · exact Event.isPlayable_of_velocity rfl (List.cons_ne_nil _ _) (by decide) full

theorem isWritable_of_mem_phrase : ∀ e ∈ phrase, e.IsWritable :=
  fun e mem => (isPlayable_of_mem_phrase e mem).isWritable

end Keysong
