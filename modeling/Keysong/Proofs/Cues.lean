import Keysong.Midi.Export
import Keysong.Proofs.MachineNumber
import Keysong.Proofs.Precedence
import Mathlib.Data.Prod.Lex
import Mathlib.Tactic.FieldSimp
import Mathlib.Tactic.Ring

/-!
# Cues

A performance and a file are computed by two separate walks over a row of events.  Both are images
of a third one, whose positions are counts of thirty-second notes: a row of cues, each a strike or a
release.  An instrument reads a position as seconds, a track as ticks.

## Main Definitions

* `Cue` — a strike or a release at a position
* `cuesFrom` — the cues of a row of events, in order of arrival
* `inOrder` — a row of cues in the order in which they go out
* `Cue.signal`, `Cue.placed` — a cue in a queue and in a track
* `Event.IsWritable` — the events that a track takes
* `Event.IsPlayable` — the events that an instrument and a track both take
* `Event.IsSpelled` — the events whose pitches can be written, as an instrument does in its reports
* `Midi.Track.placing` — a track with the messages of some more cues

## Main Statements

* `queue_cues` — a queue into which the signals of some cues are put holds them in order
* `sorted_cues` — so do the messages of a track
* `signalsFrom_timelineFrom` — the notes of a timeline put the signals of the cues into the queue
* `addAll_leadInsFrom` — the notes behind their lead-ins put the messages of the cues into the track

### Why the two orders agree

A queue compares times, a track compares ticks, and both then compare kinds and serial numbers.
Seconds and ticks both grow with the position, so each order is the lexicographic one on `Cue.key`.
Serial numbers differ, so there is only one row of signals in that order: it does not matter how a
queue keeps it.
-/

namespace Keysong

open Quantity Instrument Midi

/-- A strike or a release at a position in thirty-second notes. -/
structure Cue where
  position : Nat
  isStrike : Bool
  serial : Nat
  note : Midi.Data
  strength : Midi.Data
  deriving Repr, DecidableEq

namespace Cue

/-- The position in seconds, for a length of the quarter note. -/
def seconds (secondsPerBeat : Rat) (position : Nat) : Rat := position / 8 * secondsPerBeat

/-- A cue in a queue. -/
def signal (secondsPerBeat : Rat) (c : Cue) : Signal Rat where
  time := seconds secondsPerBeat c.position
  isStrike := c.isStrike
  serial := c.serial
  note := c.note
  strength := c.strength

/-- A cue in a track. -/
def placed (channel : Channel) (c : Cue) : Placed where
  tick := 60 * c.position
  isStrike := c.isStrike
  serial := c.serial
  message :=
    if c.isStrike then .noteOn channel c.note c.strength else .noteOff channel c.note c.strength

/-- What cues are ordered by: position, releases before strikes, then arrival. -/
def key (c : Cue) : Nat ×ₗ Nat ×ₗ Nat := toLex (c.position, toLex (c.isStrike.toNat, c.serial))

theorem seconds_add (secondsPerBeat : Rat) (position units : Nat) :
    seconds secondsPerBeat (position + units) =
      seconds secondsPerBeat position + units / 8 * secondsPerBeat := by
  unfold seconds
  push_cast
  ring

theorem seconds_strictMono {secondsPerBeat : Rat} (pos : 0 < secondsPerBeat) :
    StrictMono (seconds secondsPerBeat) := by
  intro a b less
  have fewer : (a : Rat) < b := Nat.cast_lt.mpr less
  exact mul_lt_mul_of_pos_right (div_lt_div_of_pos_right fewer (by norm_num)) pos

theorem seconds_nonneg {secondsPerBeat : Rat} (pos : 0 < secondsPerBeat) (position : Nat) :
    0 ≤ seconds secondsPerBeat position := by
  unfold seconds
  positivity

end Cue

/-- A row of cues in the order in which they go out. -/
def inOrder (cues : List Cue) : List Cue := cues.mergeSort fun a b => decide (a.key ≤ b.key)

theorem pairwise_inOrder (cues : List Cue) : (inOrder cues).Pairwise fun a b => a.key ≤ b.key := by
  have sorted : (cues.mergeSort fun a b => decide (a.key ≤ b.key)).Pairwise
      fun a b => decide (a.key ≤ b.key) = true :=
    List.pairwise_mergeSort
      (fun a b c first second => by
        simp only [decide_eq_true_eq] at *
        exact first.trans second)
      (fun a b => by simpa using le_total a.key b.key) cues
  simpa only [decide_eq_true_eq, inOrder] using sorted

/-! ## The order of a queue -/

/-- What the signals of a queue are ordered by. -/
def Instrument.Signal.key (s : Signal Rat) : Rat ×ₗ Nat ×ₗ Nat :=
  toLex (s.time, toLex (s.isStrike.toNat, s.serial))

theorem precedes_iff (a b : Signal Rat) : a.Precedes b ↔ a.key < b.key := by
  rw [Signal.key, Signal.key, Prod.Lex.toLex_lt_toLex, Prod.Lex.toLex_lt_toLex, Signal.Precedes]
  cases a.isStrike <;> cases b.isStrike <;> simp

/-- Later positions lie later on the clock, so cues keep their order in a queue. -/
theorem signal_key_le {secondsPerBeat : Rat} (pos : 0 < secondsPerBeat) {a b : Cue}
    (h : a.key ≤ b.key) : (a.signal secondsPerBeat).key ≤ (b.signal secondsPerBeat).key := by
  rw [Cue.key, Cue.key, Prod.Lex.toLex_le_toLex] at h
  rw [Signal.key, Signal.key, Prod.Lex.toLex_le_toLex]
  rcases h with earlier | ⟨same, rest⟩
  · exact Or.inl (Cue.seconds_strictMono pos earlier)
  · exact Or.inr ⟨congrArg (Cue.seconds secondsPerBeat) same, rest⟩

/-- **A queue holds the signals of cues in order**, whatever the order in which they were put into
it. -/
theorem queue_cues {secondsPerBeat : Rat} (pos : 0 < secondsPerBeat) {cues : List Cue}
    (distinct : (cues.map Cue.serial).Nodup) :
    enqueueAll (cues.map (Cue.signal secondsPerBeat)) [] =
      (inOrder cues).map (Cue.signal secondsPerBeat) := by
  have serials : ((cues.map (Cue.signal secondsPerBeat)).map Signal.serial).Nodup := by
    rw [List.map_map]
    exact distinct
  have kept := pairwise_enqueueAll serials (fun s _ t mem => absurd mem List.not_mem_nil)
    (List.Pairwise.nil (R := Signal.Precedes))
  have kept := kept.imp fun {a b} ahead => le_of_lt ((precedes_iff a b).mp ahead)
  have ordered : ((inOrder cues).map (Cue.signal secondsPerBeat)).Pairwise
      fun a b => a.key ≤ b.key :=
    List.pairwise_map.mpr ((pairwise_inOrder cues).imp (signal_key_le pos))
  have arrived := perm_enqueueAll (cues.map (Cue.signal secondsPerBeat)) []
  have same : (enqueueAll (cues.map (Cue.signal secondsPerBeat)) []).Perm
      ((inOrder cues).map (Cue.signal secondsPerBeat)) :=
    arrived.trans ((List.mergeSort_perm cues _).map _).symm
  refine List.Perm.eq_of_pairwise (fun a b left right first second => ?_)
    kept ordered same
  -- Two signals of the queue with one key have one serial number, so they are the same signal.
  have serial : a.serial = b.serial :=
    congrArg (fun k => (ofLex (ofLex k).2).2) (le_antisymm first second)
  exact List.inj_on_of_nodup_map serials (arrived.mem_iff.mp left)
    (arrived.mem_iff.mp (same.mem_iff.mpr right)) serial

/-! ## The order of a track -/

/-- What the messages of a track are ordered by. -/
def Midi.Placed.key (p : Placed) : Nat ×ₗ Nat ×ₗ Nat :=
  toLex (p.tick, toLex (p.isStrike.toNat, p.serial))

theorem notAfter_iff (a b : Placed) : a.notAfter b = true ↔ a.key ≤ b.key := by
  rw [Placed.key, Placed.key, Prod.Lex.toLex_le_toLex, Prod.Lex.toLex_le_toLex]
  unfold Placed.notAfter
  by_cases same : a.tick = b.tick
  · cases a.isStrike <;> cases b.isStrike <;> simp [same]
  · simp [same]

theorem placed_key_le (channel : Channel) (a b : Cue) :
    (a.placed channel).key ≤ (b.placed channel).key ↔ a.key ≤ b.key := by
  simp only [Placed.key, Cue.key, Prod.Lex.toLex_le_toLex]
  -- Sixty ticks a position keep the order of positions.
  have earlier : 60 * a.position < 60 * b.position ↔ a.position < b.position := by omega
  have same : 60 * a.position = 60 * b.position ↔ a.position = b.position := by omega
  unfold Cue.placed
  dsimp only
  rw [earlier, same]

theorem notAfter_placed (channel : Channel) (a b : Cue) :
    decide (a.key ≤ b.key) = Placed.notAfter (a.placed channel) (b.placed channel) := by
  rw [Bool.eq_iff_iff, decide_eq_true_iff, notAfter_iff, placed_key_le]

/-- The messages of a track are sorted by their keys. -/
theorem pairwise_sorted (track : Track) :
    track.sorted.Pairwise fun a b => a.key ≤ b.key := by
  have sorted : track.sorted.Pairwise fun a b => a.notAfter b = true :=
    List.pairwise_mergeSort
      (fun a b c first next => (notAfter_iff a c).mpr
        (((notAfter_iff a b).mp first).trans ((notAfter_iff b c).mp next)))
      (fun a b => by
        rw [Bool.or_eq_true, notAfter_iff, notAfter_iff]
        exact le_total a.key b.key) track.placed
  exact sorted.imp fun {a b} before => (notAfter_iff a b).mp before

/-- The messages of a track are sorted by tick. -/
theorem ascending_sorted (track : Track) :
    track.sorted.Pairwise fun a b => a.tick ≤ b.tick := by
  refine (pairwise_sorted track).imp fun {a b} before => ?_
  rcases (Prod.Lex.toLex_le_toLex ..).mp before with earlier | ⟨same, -⟩
  · exact earlier.le
  · exact same.le

/-- A track holds the messages of cues in the same order. -/
theorem sorted_cues {track : Track} {channel : Channel} {cues : List Cue}
    (placed : track.placed = cues.map (Cue.placed channel)) :
    track.sorted = (inOrder cues).map (Cue.placed channel) := by
  unfold Track.sorted inOrder
  rw [placed]
  exact (List.map_mergeSort fun a _ b _ => notAfter_placed channel a b).symm

/-! ## The cues of events -/

/-- The cues of notes that are struck together and released together. -/
def cuesOf (start stop : Nat) (strength : Midi.Data) : Nat → List Midi.Data → List Cue
  | _, [] => []
  | serial, note :: rest =>
    { position := start, isStrike := true, serial, note, strength }
    :: { position := stop, isStrike := false, serial := serial + 1, note
         strength := noStrength }
    :: cuesOf start stop strength (serial + 2) rest

namespace Event

/-- The notes of an event that fit a message. -/
def keys (e : Event) : List Midi.Data := e.pitches.filterMap fun p => noteOf? p.number

/-- The velocity of an event that is not silent. -/
def velocity? : Event → Option Float
  | rest _ => none
  | note _ _ velocity => some velocity
  | chord _ _ velocity => some velocity

/-- The strength with which an event is struck. -/
def strength (e : Event) : Midi.Data := (e.velocity?.map strengthAt).getD noStrength

/-- The events that an instrument and a track both take: rests, and notes and chords within the
range of messages whose velocity lies between zero and one.  Only the reports of an instrument ask
for more, see `IsSpelled`. -/
structure IsPlayable (e : Event) : Prop where
  strikes : e.isRest = false → e.pitches ≠ []
  inRange : ∀ p ∈ e.pitches, 0 ≤ p.number ∧ p.number ≤ 127
  unit : ∀ v ∈ e.velocity?, 0 ≤ v ∧ v ≤ 1

/-- The events whose pitches are not too long to be written. -/
def IsSpelled (e : Event) : Prop := ∀ p ∈ e.pitches, p.IsWritten

/-- What is struck is one of the pitches. -/
theorem mem_pitches_of_mem_strikes {e : Event} {p : Pitch} {velocity : Float}
    (struck : (p, velocity) ∈ e.strikes) : p ∈ e.pitches := by
  cases e with
  | rest d => cases struck
  | note q d v =>
    obtain ⟨rfl, -⟩ := Prod.mk.inj (List.mem_singleton.mp struck)
    exact List.mem_cons_self
  | chord ps d v =>
    obtain ⟨q, mem, same⟩ := List.mem_map.mp struck
    obtain ⟨rfl, -⟩ := Prod.mk.inj same
    exact mem

/-- The events that a track takes: rests, and notes and chords within the range of messages whose
velocity has a strength. -/
structure IsWritable (e : Event) : Prop where
  strikes : e.isRest = false → e.pitches ≠ []
  inRange : ∀ p ∈ e.pitches, 0 ≤ p.number ∧ p.number ≤ 127
  strong : ∀ v ∈ e.velocity?, attack v = .ok (strengthAt v)

theorem IsPlayable.isWritable {e : Event} (h : e.IsPlayable) : e.IsWritable where
  strikes := h.strikes
  inRange := h.inRange
  strong v mem := attack_eq (h.unit v mem).1 (h.unit v mem).2

end Event

/-- The cues of a row of events that starts at a position. -/
def cuesFrom : Nat → Nat → List Event → List Cue
  | _, _, [] => []
  | position, serial, e :: rest =>
    cuesOf position (position + e.duration.units) e.strength serial e.keys
      ++ cuesFrom (position + e.duration.units) (serial + 2 * e.keys.length) rest

theorem length_cuesOf (start stop : Nat) (strength : Midi.Data) (serial : Nat)
    (notes : List Midi.Data) :
    (cuesOf start stop strength serial notes).length = 2 * notes.length := by
  induction notes generalizing serial with
  | nil => rfl
  | cons note rest ih =>
    rw [cuesOf, List.length_cons, List.length_cons, ih, List.length_cons]
    omega

theorem serials_cuesOf (start stop : Nat) (strength : Midi.Data) (serial : Nat)
    (notes : List Midi.Data) :
    (cuesOf start stop strength serial notes).map Cue.serial =
      List.range' serial (2 * notes.length) := by
  induction notes generalizing serial with
  | nil => rfl
  | cons note rest ih =>
    rw [cuesOf, List.map_cons, List.map_cons, ih, List.length_cons, Nat.mul_succ,
      List.range'_succ, List.range'_succ]

/-- Cues are numbered in order of arrival. -/
theorem serials_cuesFrom (position serial : Nat) (events : List Event) :
    ∃ count, (cuesFrom position serial events).map Cue.serial = List.range' serial count := by
  induction events generalizing position serial with
  | nil => exact ⟨0, rfl⟩
  | cons e rest ih =>
    obtain ⟨count, others⟩ := ih (position + e.duration.units) (serial + 2 * e.keys.length)
    refine ⟨2 * e.keys.length + count, ?_⟩
    rw [cuesFrom, List.map_append, serials_cuesOf, others, List.range'_append_1]

theorem nodup_serials_cuesFrom (position serial : Nat) (events : List Event) :
    ((cuesFrom position serial events).map Cue.serial).Nodup := by
  obtain ⟨count, serials⟩ := serials_cuesFrom position serial events
  rw [serials]
  exact List.nodup_range'

/-- Two rows of the same cues that are both in order are one row. -/
theorem eq_of_sorted {first second : List Cue} (distinct : (second.map Cue.serial).Nodup)
    (perm : first.Perm second) (sorted : first.Pairwise fun a b => a.key ≤ b.key)
    (sorted' : second.Pairwise fun a b => a.key ≤ b.key) : first = second := by
  refine List.Perm.eq_of_pairwise (fun a b left right one other => ?_) sorted sorted' perm
  have serial : a.serial = b.serial :=
    congrArg (fun k => (ofLex (ofLex k).2).2) (le_antisymm one other)
  exact List.inj_on_of_nodup_map distinct (perm.mem_iff.mp left) right serial

/-- A cue strikes its note at the start, or releases it at the stop. -/
theorem of_mem_cuesOf {start stop : Nat} {strength : Midi.Data} {serial : Nat}
    {notes : List Midi.Data} {c : Cue} (mem : c ∈ cuesOf start stop strength serial notes) :
    c.note ∈ notes ∧
      (c.position = start ∧ c.isStrike = true ∨ c.position = stop ∧ c.isStrike = false) := by
  induction notes generalizing serial with
  | nil => cases mem
  | cons n rest ih =>
    rcases List.mem_cons.mp mem with rfl | mem
    · exact ⟨List.mem_cons_self, Or.inl ⟨rfl, rfl⟩⟩
    · rcases List.mem_cons.mp mem with rfl | mem
      · exact ⟨List.mem_cons_self, Or.inr ⟨rfl, rfl⟩⟩
      · obtain ⟨inside, kind⟩ := ih mem
        exact ⟨List.mem_cons_of_mem n inside, kind⟩

/-- Cues lie behind the position at which their events start, or they strike there. -/
theorem of_mem_cuesFrom {position serial : Nat} {events : List Event} {c : Cue}
    (mem : c ∈ cuesFrom position serial events) :
    position < c.position ∨ position = c.position ∧ c.isStrike = true := by
  induction events generalizing position serial with
  | nil => cases mem
  | cons e rest ih =>
    have long := e.duration.units_pos
    rcases List.mem_append.mp mem with here | later
    · rcases (of_mem_cuesOf here).2 with ⟨start, strikes⟩ | ⟨stop, -⟩
      · exact Or.inr ⟨start.symm, strikes⟩
      · exact Or.inl (by omega)
    · rcases ih later with behind | ⟨there, -⟩
      · exact Or.inl (by omega)
      · exact Or.inl (by omega)

theorem Cue.key_le_of_position_lt {a b : Cue} (less : a.position < b.position) : a.key ≤ b.key := by
  rw [Cue.key, Cue.key, Prod.Lex.toLex_le_toLex]
  exact Or.inl less

/-- A release goes out before a strike at the same position. -/
theorem Cue.key_le_of_isStrike {a b : Cue} (same : a.position = b.position)
    (releases : a.isStrike = false) (strikes : b.isStrike = true) : a.key ≤ b.key := by
  rw [Cue.key, Cue.key, Prod.Lex.toLex_le_toLex]
  refine Or.inr ⟨same, ?_⟩
  show toLex (a.isStrike.toNat, a.serial) ≤ toLex (b.isStrike.toNat, b.serial)
  rw [Prod.Lex.toLex_le_toLex, releases, strikes]
  exact Or.inl Nat.zero_lt_one

/-! ## The walk of an instrument -/

/-- A pitch on the clock. -/
def scheduledAt (secondsPerBeat : Rat) (position units : Nat) (velocity : Float) (p : Pitch) :
    ScheduledNote Rat where
  pitch := p
  start := Cue.seconds secondsPerBeat position
  duration := units / 8 * secondsPerBeat
  velocity := velocity

section Walk

variable {secondsPerBeat : Rat} (pos : 0 < secondsPerBeat)

include pos

omit pos in
theorem zero_eq : (zero : Rat) = 0 := Nat.cast_zero

theorem not_early (position : Nat) : ¬ Cue.seconds secondsPerBeat position < (zero : Rat) := by
  rw [zero_eq]
  exact not_lt.mpr (Cue.seconds_nonneg pos position)

theorem not_short {units : Nat} (long : 0 < units) :
    ¬ (units : Rat) / 8 * secondsPerBeat ≤ (zero : Rat) := by
  have positive : (0 : Rat) < (units : Rat) / 8 * secondsPerBeat := by positivity
  rw [zero_eq]
  exact not_le.mpr positive

/-- The signals of pitches that are struck together are those of their cues. -/
theorem signalsFrom_struck {velocity : Float} (low : 0 ≤ velocity) (high : velocity ≤ 1)
    (position : Nat) {units : Nat} (long : 0 < units) (serial : Nat) (ps : List Pitch) :
    signalsFrom serial (ps.map (scheduledAt secondsPerBeat position units velocity)) =
      (cuesOf position (position + units) (strengthAt velocity) serial
        (ps.filterMap fun p => noteOf? p.number)).map (Cue.signal secondsPerBeat) := by
  induction ps generalizing serial with
  | nil => rfl
  | cons p rest ih =>
    rw [List.map_cons, signalsFrom, List.filterMap_cons]
    cases inside : noteOf? p.number with
    | none =>
      have silent := ScheduledNote.signals_outside
        (n := scheduledAt secondsPerBeat position units velocity p) inside serial
      rw [silent]
      exact ih serial
    | some note =>
      have sounds := ScheduledNote.signals_inside
        (n := scheduledAt secondsPerBeat position units velocity p) (not_early pos position)
        (not_short pos long) inside (attack_eq low high) serial
      rw [sounds, List.length_cons, List.length_singleton, ih]
      dsimp only
      rw [cuesOf, List.map_cons, List.map_cons]
      unfold Cue.signal scheduledAt
      rw [Cue.seconds_add]
      rfl

omit pos in
theorem notesAt_eq {e : Event} {velocity : Float} (h : e.velocity? = some velocity)
    (position : Nat) :
    e.notesAt secondsPerBeat (Cue.seconds secondsPerBeat position) =
      e.pitches.map (scheduledAt secondsPerBeat position e.duration.units velocity) := by
  cases e with
  | rest d => cases h
  | note p d v =>
    obtain rfl := Option.some.inj h
    rfl
  | chord ps d v =>
    obtain rfl := Option.some.inj h
    exact List.map_map

/-- The signals of an event are those of its cues. -/
theorem signalsFrom_notesAt {e : Event} (h : e.IsPlayable) (position serial : Nat) :
    signalsFrom serial (e.notesAt secondsPerBeat (Cue.seconds secondsPerBeat position)) =
      (cuesOf position (position + e.duration.units) e.strength serial e.keys).map
        (Cue.signal secondsPerBeat) := by
  cases struck : e.velocity? with
  | none =>
    cases e with
    | rest d => rfl
    | note p d v => cases struck
    | chord ps d v => cases struck
  | some velocity =>
    obtain ⟨low, high⟩ := h.unit velocity struck
    rw [notesAt_eq struck, signalsFrom_struck pos low high position e.duration.units_pos]
    unfold Event.strength Event.keys
    rw [struck]
    rfl

/-- The notes of an event are accepted, also those that fit no message. -/
theorem isAccepted_of_mem_notesAt {e : Event} (unit : ∀ v ∈ e.velocity?, 0 ≤ v ∧ v ≤ 1)
    (position : Nat) :
    ∀ n ∈ e.notesAt secondsPerBeat (Cue.seconds secondsPerBeat position), n.IsAccepted := by
  intro n mem
  cases struck : e.velocity? with
  | none =>
    cases e with
    | rest d => cases mem
    | note p d v => cases struck
    | chord ps d v => cases struck
  | some velocity =>
    obtain ⟨low, high⟩ := unit velocity struck
    rw [notesAt_eq struck] at mem
    obtain ⟨p, -, rfl⟩ := List.mem_map.mp mem
    exact ⟨not_early pos position, not_short pos e.duration.units_pos, _, attack_eq low high⟩

omit pos in
/-- The cursor of a timeline stands at the position of the cues. -/
theorem seconds_after (position : Nat) (e : Event) :
    Cue.seconds secondsPerBeat position + e.seconds secondsPerBeat =
      Cue.seconds secondsPerBeat (position + e.duration.units) :=
  (Cue.seconds_add secondsPerBeat position e.duration.units).symm

/-- **The notes of a timeline put the signals of the cues into a queue.** -/
theorem signalsFrom_timelineFrom {events : List Event} (h : ∀ e ∈ events, e.IsPlayable)
    (position serial : Nat) :
    signalsFrom serial
        (timelineFrom secondsPerBeat (Cue.seconds secondsPerBeat position) events) =
      (cuesFrom position serial events).map (Cue.signal secondsPerBeat) := by
  induction events generalizing position serial with
  | nil => rfl
  | cons e rest ih =>
    rw [timelineFrom, signalsFrom_append, signalsFrom_notesAt pos (h e List.mem_cons_self),
      List.length_map, length_cuesOf, seconds_after,
      ih fun e' mem => h e' (List.mem_cons_of_mem e mem), cuesFrom, List.map_append]

/-- **The notes of a timeline are accepted** if their velocities lie between zero and one. -/
theorem isAccepted_timelineFrom {events : List Event}
    (unit : ∀ e ∈ events, ∀ v ∈ e.velocity?, 0 ≤ v ∧ v ≤ 1) (position : Nat) :
    ∀ n ∈ timelineFrom secondsPerBeat (Cue.seconds secondsPerBeat position) events,
      n.IsAccepted := by
  induction events generalizing position with
  | nil => exact fun n mem => absurd mem List.not_mem_nil
  | cons e rest ih =>
    intro n mem
    rw [timelineFrom, seconds_after] at mem
    rcases List.mem_append.mp mem with here | later
    · exact isAccepted_of_mem_notesAt pos (unit e List.mem_cons_self) position n here
    · exact ih (fun e' mem => unit e' (List.mem_cons_of_mem e mem)) _ n later

end Walk

/-- The notes of events whose pitches can be written. -/
theorem isWritten_timelineFrom {τ : Type} [Quantity τ] {events : List Event}
    (spelled : ∀ e ∈ events, e.IsSpelled) (secondsPerBeat cursor : τ) :
    ∀ n ∈ timelineFrom secondsPerBeat cursor events, n.pitch.IsWritten := by
  induction events generalizing cursor with
  | nil => exact fun n mem => absurd mem List.not_mem_nil
  | cons e rest ih =>
    obtain ⟨first, others⟩ := List.forall_mem_cons.mp spelled
    intro n mem
    rcases List.mem_append.mp mem with here | later
    · obtain ⟨⟨p, v⟩, struck, rfl⟩ := List.mem_map.mp here
      exact first p (Event.mem_pitches_of_mem_strikes struck)
    · exact ih others _ n later

/-! ## The walk of a track -/

theorem placeNotes_eq (channel : Channel) (start stop : Nat) (strength : Midi.Data) (serial : Nat)
    (notes : List Midi.Data) :
    Track.placeNotes channel (60 * start) (60 * stop) strength serial notes =
      (cuesOf start stop strength serial notes).map (Cue.placed channel) := by
  induction notes generalizing serial with
  | nil => rfl
  | cons note rest ih =>
    rw [Track.placeNotes, ih, cuesOf, List.map_cons, List.map_cons]
    rfl

namespace Midi.Track

theorem wholePart_ticks (v : NoteValue) :
    Decimal.wholePart (v.ticks * standardResolution) standardResolution = some (60 * v.units) := by
  cases v <;> decide +kernel

theorem ticksOf_code (v : NoteValue) : ticksOf standardResolution v.code = .ok (60 * v.units) := by
  unfold ticksOf
  rw [NoteValue.ofCode_code, wholePart_ticks]

theorem ticksOfAll_snoc {wait : List String} {waited : Nat}
    (h : ticksOfAll standardResolution wait = .ok waited) (v : NoteValue) :
    ticksOfAll standardResolution (wait ++ [v.code]) = .ok (waited + 60 * v.units) := by
  induction wait generalizing waited with
  | nil =>
    obtain rfl := Except.ok.inj h
    rw [List.nil_append, ticksOfAll, ticksOf_code, Nat.zero_add]
    rfl
  | cons code rest ih =>
    unfold ticksOfAll at h
    cases first : ticksOf standardResolution code with
    | error fault =>
      rw [first] at h
      cases h
    | ok ticks =>
      rw [first] at h
      cases others : ticksOfAll standardResolution rest with
      | error fault =>
        rw [others] at h
        cases h
      | ok more =>
        rw [others] at h
        obtain rfl := Except.ok.inj h
        rw [List.cons_append, ticksOfAll, first, ih others, Nat.add_assoc]
        rfl

theorem exists_noteOf? {n : Int} (h : 0 ≤ n ∧ n ≤ 127) : ∃ note, noteOf? n = some note :=
  ⟨_, dif_pos h⟩

/-- The notes of an event that is writable and not silent. -/
theorem notesOf_numbers {e : Event} (h : e.IsWritable) (struck : e.isRest = false) :
    notesOf (e.pitches.map Pitch.number) = .ok e.keys := by
  unfold notesOf
  rw [if_neg (by simpa using h.strikes struck), List.mapM_map]
  unfold Event.keys
  have inRange := h.inRange
  generalize e.pitches = ps at inRange
  induction ps with
  | nil => rfl
  | cons p rest ih =>
    obtain ⟨note, here⟩ := exists_noteOf? (inRange p List.mem_cons_self)
    rw [List.mapM_cons, Function.comp_apply, List.filterMap_cons, here,
      ih fun q mem => inRange q (List.mem_cons_of_mem p mem)]
    rfl

/-- What a track becomes when nothing about a note is refused. -/
theorem add_eq (t : Track) (note : TimedNote) {notes : List Midi.Data} {waited length : Nat}
    {strength : Midi.Data} (numbers : notesOf note.numbers = .ok notes)
    (wait : ticksOfAll t.resolution note.wait = .ok waited)
    (long : ticksOf t.resolution note.code = .ok length)
    (strong : attack note.velocity = .ok strength) :
    t.add note = .ok { t with
      placed := t.placed ++ placeNotes t.channel (t.cursor + waited) (t.cursor + waited + length)
        strength t.placed.length notes
      cursor := t.cursor + waited + length } := by
  unfold add
  rw [numbers, wait, long, strong]
  rfl

/-- Nothing is refused about a note that a track takes. -/
theorem exists_of_add {t t' : Track} {note : TimedNote} (added : t.add note = .ok t') :
    ∃ notes waited length strength, notesOf note.numbers = .ok notes ∧
      ticksOfAll t.resolution note.wait = .ok waited ∧
      ticksOf t.resolution note.code = .ok length ∧ attack note.velocity = .ok strength := by
  obtain ⟨notes, numbers, added⟩ := exists_of_bind added
  obtain ⟨waited, wait, added⟩ := exists_of_bind added
  obtain ⟨length, long, added⟩ := exists_of_bind added
  obtain ⟨strength, strong, -⟩ := exists_of_bind added
  exact ⟨notes, waited, length, strength, numbers, wait, long, strong⟩

/-- A track with the messages of some more cues, and its cursor. -/
def placing (t : Track) (cues : List Cue) (cursor : Nat) : Track :=
  { t with placed := t.placed ++ cues.map (Cue.placed t.channel), cursor := cursor }

theorem placing_placing (t : Track) (cues others : List Cue) (cursor cursor' : Nat) :
    (t.placing cues cursor).placing others cursor' = t.placing (cues ++ others) cursor' := by
  unfold placing
  rw [List.map_append, ← List.append_assoc]

theorem length_placed_placing (t : Track) (cues : List Cue) (cursor : Nat) :
    (t.placing cues cursor).placed.length = t.placed.length + cues.length := by
  unfold placing
  rw [List.length_append, List.length_map]

/-- A track takes an event that is writable and not silent. -/
theorem add_timed {t : Track} (standard : t.resolution = standardResolution) {e : Event}
    (h : e.IsWritable) {wait : List String} {waited : Nat}
    (known : ticksOfAll standardResolution wait = .ok waited) {note : TimedNote}
    (timed : e.timed? wait = some note) {position : Nat}
    (cursor : t.cursor + waited = 60 * position) :
    t.add note = .ok (t.placing
      (cuesOf position (position + e.duration.units) e.strength t.placed.length e.keys)
      (60 * (position + e.duration.units))) := by
  -- Notes and chords are added in the same way; what they differ in is in the pitches.
  have added : ∀ velocity, e.velocity? = some velocity → e.isRest = false →
      t.add ⟨e.pitches.map Pitch.number, e.duration.code, wait, velocity⟩ = .ok (t.placing
        (cuesOf position (position + e.duration.units) e.strength t.placed.length e.keys)
        (60 * (position + e.duration.units))) := by
    intro velocity loud struck
    have strength : e.strength = strengthAt velocity := by
      unfold Event.strength
      rw [loud]
      rfl
    have length : ticksOf t.resolution e.duration.code = .ok (60 * e.duration.units) := by
      rw [standard, ticksOf_code]
    have waits : ticksOfAll t.resolution wait = .ok waited := by
      rw [standard]
      exact known
    rw [add_eq t ⟨e.pitches.map Pitch.number, e.duration.code, wait, velocity⟩
      (notesOf_numbers h struck) waits length (h.strong velocity loud), placing, strength,
      ← placeNotes_eq, Nat.mul_add, ← cursor]
  cases e with
  | rest d => cases timed
  | note p d velocity =>
    obtain rfl := Option.some.inj timed
    exact added velocity rfl rfl
  | chord ps d velocity =>
    obtain rfl := Option.some.inj timed
    exact added velocity rfl rfl

/-- **The notes behind their lead-ins put the messages of the cues into a track.** -/
theorem addAll_leadInsFrom {events : List Event} (h : ∀ e ∈ events, e.IsWritable) {t : Track}
    (standard : t.resolution = standardResolution) {wait : List String} {waited : Nat}
    (known : ticksOfAll standardResolution wait = .ok waited) {position : Nat}
    (cursor : t.cursor + waited = 60 * position) :
    ∃ cursor', t.addAll (leadInsFrom wait events) =
      .ok (t.placing (cuesFrom position t.placed.length events) cursor') := by
  induction events generalizing t wait waited position with
  | nil =>
    refine ⟨t.cursor, ?_⟩
    unfold placing
    rw [cuesFrom, List.map_nil, List.append_nil]
    rfl
  | cons e rest ih =>
    have here := h e List.mem_cons_self
    have later : ∀ e' ∈ rest, e'.IsWritable := fun e' mem => h e' (List.mem_cons_of_mem e mem)
    unfold leadInsFrom
    cases timed : e.timed? wait with
    | none =>
      -- A rest moves nothing yet: the track waits longer before the next note.
      cases e with
      | note p d v => cases timed
      | chord ps d v => cases timed
      | rest d =>
        have longer : t.cursor + (waited + 60 * d.units) = 60 * (position + d.units) := by omega
        exact ih later standard (ticksOfAll_snoc known d) longer
    | some note =>
      have added := add_timed standard here known timed cursor
      have nothing : ticksOfAll standardResolution [] = .ok 0 := rfl
      obtain ⟨cursor', others⟩ := ih (t := t.placing _ _) later standard nothing rfl
      refine ⟨cursor', ?_⟩
      dsimp only
      unfold addAll
      rw [List.foldlM_cons, added]
      refine others.trans ?_
      rw [placing_placing, length_placed_placing, length_cuesOf]
      rfl

end Midi.Track

end Keysong
