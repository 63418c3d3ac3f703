import Keysong.Proofs.Exporting

/-!
# How far a file drifts from what is heard

A file counts in ticks and gives the length of a quarter note in whole microseconds, so what is read
from it lies beside what is heard.  The drift grows with the quarter notes that have passed, by half
a microsecond for each at most, and nothing else adds to it: rests that are waited for and lengths
that are added up are counted exactly.

## Main Definitions

* `FileNote`, `notesIn` — the notes of a file, each from a strike to the release that ends it
* `fileSeconds` — the ticks of a file in seconds
* `Drifts` — a note of a file lies as close to a note that is heard as the tempo allows

## Main Statements

* `isWritable_of_addAll` — a track takes only events that are writable
* `inOrder_cuesFrom` — of the cues of a row of events those of the first one come first
* `notesIn_cuesFrom` — the notes of a file are those of the timeline, one by one
* `export_drift` — and drift by half a microsecond for each quarter note at most
-/

namespace Keysong

open Midi

/-! ## Reading notes from a file -/

namespace Midi

/-- A note of a file, with its position and its length in ticks. -/
structure FileNote where
  onset : Nat
  length : Nat
  note : Data
  deriving Repr, DecidableEq

/-- The tick at which a note is released next. -/
def releaseOf? (note : Data) (entries : List (Nat × (Bool × Data × Data))) : Option Nat :=
  (entries.find? fun e => !e.2.1 && e.2.2.1 == note).map Prod.fst

/-- The notes of a file: each strike, with the release that comes next. -/
def notesIn : List (Nat × (Bool × Data × Data)) → List FileNote
  | [] => []
  | (tick, isStrike, note, _) :: rest =>
    match isStrike, releaseOf? note rest with
    | true, some stop => { onset := tick, length := stop - tick, note } :: notesIn rest
    | _, _ => notesIn rest

theorem notesIn_release {entry : Nat × (Bool × Data × Data)} (releases : entry.2.1 = false)
    (rest : List (Nat × (Bool × Data × Data))) : notesIn (entry :: rest) = notesIn rest := by
  obtain ⟨tick, isStrike, note, strength⟩ := entry
  obtain rfl : isStrike = false := releases
  rfl

theorem notesIn_strike {entry : Nat × (Bool × Data × Data)} (strikes : entry.2.1 = true)
    {rest : List (Nat × (Bool × Data × Data))} {stop : Nat}
    (found : releaseOf? entry.2.2.1 rest = some stop) :
    notesIn (entry :: rest) = ⟨entry.1, stop - entry.1, entry.2.2.1⟩ :: notesIn rest := by
  obtain ⟨tick, isStrike, note, strength⟩ := entry
  obtain rfl : isStrike = true := strikes
  have found : releaseOf? note rest = some stop := found
  rw [notesIn.eq_def]
  dsimp only
  rw [found]

/-- Ticks in seconds, at a length of the quarter note in microseconds. -/
def fileSeconds (micros ticks : Nat) : Rat :=
  ticks / Track.standardResolution * (micros / 1000000)

end Midi

/-- A note of a file that is read at a tempo is the note that is heard, up to half a microsecond for
each quarter note before it, and for each quarter note of its length. -/
structure Drifts (secondsPerBeat : Rat) (micros : Nat) (n : ScheduledNote Rat)
    (f : FileNote) : Prop where
  number : n.pitch.number = f.note.val
  start : |fileSeconds micros f.onset - n.start| ≤ 1 / 2000000 * (n.start / secondsPerBeat)
  duration : |fileSeconds micros f.length - n.duration| ≤
    1 / 2000000 * (n.duration / secondsPerBeat)

/-! ## Events that a track has taken -/

theorem strength_of_attack {v : Float} {strength : Data} (strong : attack v = .ok strength) :
    attack v = .ok (strengthAt v) := by
  unfold attack at strong ⊢
  dsimp only at strong ⊢
  split at strong
  · cases strong
  · cases strong
  · rfl

/-- Notes that a track takes fit a message. -/
theorem inRange_of_notesOf {numbers : List Int} {notes : List Data}
    (taken : Track.notesOf numbers = .ok notes) :
    numbers ≠ [] ∧ ∀ n ∈ numbers, 0 ≤ n ∧ n ≤ 127 := by
  unfold Track.notesOf at taken
  split at taken
  · cases taken
  · rename_i some
    refine ⟨some, ?_⟩
    clear some
    induction numbers generalizing notes with
    | nil => exact fun n mem => absurd mem List.not_mem_nil
    | cons n rest ih =>
      rw [List.mapM_cons] at taken
      obtain ⟨note, here, taken⟩ := exists_of_bind taken
      obtain ⟨others, behind, -⟩ := exists_of_bind taken
      refine List.forall_mem_cons.mpr ⟨?_, ih behind⟩
      unfold noteOf? at here
      by_contra outside
      rw [dif_neg outside] at here
      cases here

/-- An event that a track has taken is writable. -/
theorem isWritable_of_add {t t' : Track} {e : Event} {wait : List String} {note : TimedNote}
    (timed : e.timed? wait = some note) (added : t.add note = .ok t') : e.IsWritable := by
  obtain ⟨notes, waited, length, strength, numbers, -, -, strong⟩ := Track.exists_of_add added
  obtain ⟨some, inRange⟩ := inRange_of_notesOf numbers
  cases e with
  | rest d => cases timed
  | note p d v =>
    obtain rfl := Option.some.inj timed
    refine ⟨fun _ => List.cons_ne_nil _ _, fun q mem => ?_, fun w mem => ?_⟩
    · exact inRange q.number (List.mem_map_of_mem (f := Pitch.number) mem)
    · obtain rfl := Option.mem_some_iff.mp mem
      exact strength_of_attack strong
  | chord ps d v =>
    obtain rfl := Option.some.inj timed
    refine ⟨fun _ empty => ?_, fun q mem => ?_, fun w mem => ?_⟩
    · have empty : ps = [] := empty
      exact some (by rw [empty]; rfl)
    · exact inRange q.number (List.mem_map_of_mem (f := Pitch.number) mem)
    · obtain rfl := Option.mem_some_iff.mp mem
      exact strength_of_attack strong

/-- **A track takes only events that are writable.** -/
theorem isWritable_of_addAll {t t' : Track} {wait : List String} {events : List Event}
    (added : t.addAll (leadInsFrom wait events) = .ok t') : ∀ e ∈ events, e.IsWritable := by
  induction events generalizing t wait with
  | nil => exact fun e mem => absurd mem List.not_mem_nil
  | cons e rest ih =>
    unfold leadInsFrom at added
    cases timed : e.timed? wait with
    | none =>
      rw [timed] at added
      refine List.forall_mem_cons.mpr ⟨?_, ih added⟩
      cases e with
      | rest d =>
        exact ⟨fun struck => Bool.noConfusion struck, fun _ mem => absurd mem List.not_mem_nil,
          fun v mem => absurd mem (Option.not_mem_none v)⟩
      | note p d v => cases timed
      | chord ps d v => cases timed
    | some note =>
      rw [timed] at added
      unfold Track.addAll at added
      rw [List.foldlM_cons] at added
      obtain ⟨t₁, first, others⟩ := exists_of_bind added
      exact List.forall_mem_cons.mpr ⟨isWritable_of_add timed first, ih others⟩

/-! ## Cues in order -/

/-- The strikes of cues, in order of arrival. -/
def strikesOf (cues : List Cue) : List Cue := cues.filter Cue.isStrike

/-- The releases of cues, in order of arrival. -/
def releasesOf (cues : List Cue) : List Cue := cues.filter fun c => !c.isStrike

section Struck

variable {start stop : Nat} (strength : Data) (serial : Nat) (notes : List Data)

theorem serial_lt_cuesOf : (cuesOf start stop strength serial notes).Pairwise
    fun a b => a.serial < b.serial := by
  have ascending : ((cuesOf start stop strength serial notes).map Cue.serial).Pairwise (· < ·) := by
    rw [serials_cuesOf]
    exact List.pairwise_lt_range'
  exact List.pairwise_map.mp ascending

theorem Cue.key_le_of_serial_lt {a b : Cue} (position : a.position = b.position)
    (kind : a.isStrike = b.isStrike) (less : a.serial < b.serial) : a.key ≤ b.key := by
  rw [Cue.key, Cue.key, Prod.Lex.toLex_le_toLex]
  refine Or.inr ⟨position, ?_⟩
  show toLex (a.isStrike.toNat, a.serial) ≤ toLex (b.isStrike.toNat, b.serial)
  rw [Prod.Lex.toLex_le_toLex]
  exact Or.inr ⟨congrArg Bool.toNat kind, less.le⟩

theorem of_mem_strikesOf {c : Cue}
    (mem : c ∈ strikesOf (cuesOf start stop strength serial notes)) :
    c.position = start ∧ c.isStrike = true := by
  obtain ⟨inside, strikes⟩ := List.mem_filter.mp mem
  rcases (of_mem_cuesOf inside).2 with struck | ⟨-, releases⟩
  · exact struck
  · rw [releases] at strikes
    cases strikes

theorem of_mem_releasesOf {c : Cue}
    (mem : c ∈ releasesOf (cuesOf start stop strength serial notes)) :
    c.position = stop ∧ c.isStrike = false := by
  obtain ⟨inside, releases⟩ := List.mem_filter.mp mem
  rcases (of_mem_cuesOf inside).2 with ⟨-, strikes⟩ | released
  · rw [strikes] at releases
    cases releases
  · exact released

theorem note_strikesOf :
    (strikesOf (cuesOf start stop strength serial notes)).map Cue.note = notes := by
  induction notes generalizing serial with
  | nil => rfl
  | cons note rest ih =>
    rw [cuesOf, strikesOf, List.filter_cons_of_pos rfl, List.filter_cons_of_neg Bool.false_ne_true]
    exact congrArg (List.cons note) (ih (serial + 2))

theorem note_releasesOf :
    (releasesOf (cuesOf start stop strength serial notes)).map Cue.note = notes := by
  induction notes generalizing serial with
  | nil => rfl
  | cons note rest ih =>
    rw [cuesOf, releasesOf, List.filter_cons_of_neg Bool.false_ne_true, List.filter_cons_of_pos rfl]
    exact congrArg (List.cons note) (ih (serial + 2))

/-- Notes that are struck together and released together go out strikes first. -/
theorem sorted_struck (long : start < stop) :
    (strikesOf (cuesOf start stop strength serial notes) ++
      releasesOf (cuesOf start stop strength serial notes)).Pairwise
        fun a b => a.key ≤ b.key := by
  have ascending : (cuesOf start stop strength serial notes).Pairwise _ :=
    serial_lt_cuesOf strength serial notes
  refine List.pairwise_append.mpr ⟨?_, ?_, fun a first b other => ?_⟩
  · refine (List.Pairwise.and_mem.mp (ascending.sublist List.filter_sublist)).imp ?_
    rintro a b ⟨first, other, less⟩
    obtain ⟨at₁, kind₁⟩ := of_mem_strikesOf strength serial notes first
    obtain ⟨at₂, kind₂⟩ := of_mem_strikesOf strength serial notes other
    exact Cue.key_le_of_serial_lt (at₁.trans at₂.symm) (kind₁.trans kind₂.symm) less
  · refine (List.Pairwise.and_mem.mp (ascending.sublist List.filter_sublist)).imp ?_
    rintro a b ⟨first, other, less⟩
    obtain ⟨at₁, kind₁⟩ := of_mem_releasesOf strength serial notes first
    obtain ⟨at₂, kind₂⟩ := of_mem_releasesOf strength serial notes other
    exact Cue.key_le_of_serial_lt (at₁.trans at₂.symm) (kind₁.trans kind₂.symm) less
  · obtain ⟨at₁, -⟩ := of_mem_strikesOf strength serial notes first
    obtain ⟨at₂, -⟩ := of_mem_releasesOf strength serial notes other
    exact Cue.key_le_of_position_lt (by omega)

end Struck

/-- **The cues of the first event go out first**: its strikes, then its releases, and then the cues
of the other events. -/
theorem inOrder_cuesFrom (position serial : Nat) (e : Event) (rest : List Event) :
    let stop := position + e.duration.units
    let mine := cuesOf position stop e.strength serial e.keys
    inOrder (cuesFrom position serial (e :: rest)) =
      strikesOf mine ++ releasesOf mine ++
        inOrder (cuesFrom stop (serial + 2 * e.keys.length) rest) := by
  intro stop mine
  have long : position < stop := Nat.lt_add_of_pos_right e.duration.units_pos
  let others := cuesFrom stop (serial + 2 * e.keys.length) rest
  have all : cuesFrom position serial (e :: rest) = mine ++ others := rfl
  have distinct : ((mine ++ others).map Cue.serial).Nodup :=
    nodup_serials_cuesFrom position serial (e :: rest)
  have split : (strikesOf mine ++ releasesOf mine).Perm mine := List.filter_append_perm _ mine
  have perm : (strikesOf mine ++ releasesOf mine ++ inOrder others).Perm (mine ++ others) :=
    split.append (List.mergeSort_perm others _)
  -- A later cue lies behind the stop, or it strikes there.
  have behind : ∀ b ∈ inOrder others, stop < b.position ∨ stop = b.position ∧ b.isStrike = true :=
    fun b mem => of_mem_cuesFrom ((List.mergeSort_perm others _).mem_iff.mp mem)
  have sorted : (strikesOf mine ++ releasesOf mine ++ inOrder others).Pairwise
      fun a b => a.key ≤ b.key := by
    refine List.pairwise_append.mpr ⟨sorted_struck e.strength serial e.keys long,
      pairwise_inOrder others, fun a first b other => ?_⟩
    rcases List.mem_append.mp first with strikes | releases
    · obtain ⟨start, -⟩ := of_mem_strikesOf e.strength serial e.keys strikes
      refine Cue.key_le_of_position_lt ?_
      rcases behind b other with later | ⟨there, -⟩ <;> omega
    · obtain ⟨last, released⟩ := of_mem_releasesOf e.strength serial e.keys releases
      rcases behind b other with later | ⟨there, struck⟩
      · exact Cue.key_le_of_position_lt (by omega)
      · exact Cue.key_le_of_isStrike (last.trans there) released struck
  rw [all]
  have distinct' := ((perm.map Cue.serial).nodup_iff).mpr distinct
  exact eq_of_sorted distinct' ((List.mergeSort_perm _ _).trans perm.symm) (pairwise_inOrder _)
    sorted

/-! ## Notes from cues -/

/-- What a file says about a cue. -/
def Cue.entry (c : Cue) : Nat × (Bool × Data × Data) :=
  (60 * c.position, c.isStrike, c.note, c.strength)

/-- The first release of a note is found, wherever strikes stand. -/
theorem releaseOf?_of_mem {note : Data} {stop : Nat} {cues : List Cue}
    (released : ∀ c ∈ cues, c.isStrike = false → c.position = stop)
    (inside : ∃ c ∈ cues, c.isStrike = false ∧ c.note = note)
    (later : List (Nat × (Bool × Data × Data))) :
    releaseOf? note (cues.map Cue.entry ++ later) = some (60 * stop) := by
  induction cues with
  | nil =>
    obtain ⟨c, mem, -⟩ := inside
    cases mem
  | cons c rest ih =>
    obtain ⟨here, behind⟩ := List.forall_mem_cons.mp released
    unfold releaseOf? at ih ⊢
    rw [List.map_cons, List.cons_append, List.find?_cons]
    cases found : !c.entry.2.1 && c.entry.2.2.1 == note with
    | true =>
      obtain ⟨releases, -⟩ := Bool.and_eq_true_iff.mp found
      show some (60 * c.position) = _
      rw [here (Bool.not_eq_true' _ ▸ releases)]
    | false =>
      refine ih behind ?_
      obtain ⟨c', mem, releases, same⟩ := inside
      rcases List.mem_cons.mp mem with rfl | mem
      · have found' : (!c'.isStrike && c'.note == note) = false := found
        rw [releases, same, beq_self_eq_true] at found'
        cases found'
      · exact ⟨c', mem, releases, same⟩

/-- Releases are not notes of their own. -/
theorem notesIn_releases {cues : List Cue} (releases : ∀ c ∈ cues, c.isStrike = false)
    (later : List (Nat × (Bool × Data × Data))) :
    notesIn (cues.map Cue.entry ++ later) = notesIn later := by
  induction cues with
  | nil => rfl
  | cons c rest ih =>
    obtain ⟨here, behind⟩ := List.forall_mem_cons.mp releases
    exact (notesIn_release here _).trans (ih behind)

/-- Strikes whose notes are all released at one position are as many notes of that length. -/
theorem notesIn_strikes {start stop : Nat} {strikes releases : List Cue}
    (strike : ∀ c ∈ strikes, c.position = start ∧ c.isStrike = true)
    (release : ∀ c ∈ releases, c.position = stop ∧ c.isStrike = false)
    (paired : ∀ c ∈ strikes, c.note ∈ releases.map Cue.note)
    (later : List (Nat × (Bool × Data × Data))) :
    notesIn (strikes.map Cue.entry ++ (releases.map Cue.entry ++ later)) =
      (strikes.map Cue.note).map (FileNote.mk (60 * start) (60 * stop - 60 * start)) ++
        notesIn later := by
  induction strikes with
  | nil => exact notesIn_releases (fun c mem => (release c mem).2) later
  | cons c rest ih =>
    obtain ⟨⟨position, kind⟩, strikes⟩ := List.forall_mem_cons.mp strike
    obtain ⟨here, behind⟩ := List.forall_mem_cons.mp paired
    have found : releaseOf? c.note (rest.map Cue.entry ++ (releases.map Cue.entry ++ later)) =
        some (60 * stop) := by
      obtain ⟨r, mem, same⟩ := List.mem_map.mp here
      rw [← List.append_assoc, ← List.map_append]
      refine releaseOf?_of_mem (fun c' among releases' => ?_)
        ⟨r, List.mem_append_right _ mem, (release r mem).2, same⟩ later
      rcases List.mem_append.mp among with strikes' | among
      · rw [(strikes c' strikes').2] at releases'
        cases releases'
      · exact (release c' among).1
    rw [List.map_cons, List.cons_append, notesIn_strike kind found, ih strikes behind, Cue.entry,
      position]
    rfl

/-- **The notes of the first event come first**, each as long as the event. -/
theorem notesIn_cuesFrom (position serial : Nat) (e : Event) (rest : List Event) :
    notesIn ((inOrder (cuesFrom position serial (e :: rest))).map Cue.entry) =
      e.keys.map (FileNote.mk (60 * position) (60 * e.duration.units)) ++
        notesIn ((inOrder (cuesFrom (position + e.duration.units) (serial + 2 * e.keys.length)
          rest)).map Cue.entry) := by
  let mine := cuesOf position (position + e.duration.units) e.strength serial e.keys
  have length : 60 * (position + e.duration.units) - 60 * position = 60 * e.duration.units := by
    omega
  have struck : (strikesOf mine).map Cue.note = e.keys := note_strikesOf _ _ _
  have released : (releasesOf mine).map Cue.note = e.keys := note_releasesOf _ _ _
  have paired : ∀ c ∈ strikesOf mine, c.note ∈ (releasesOf mine).map Cue.note := by
    intro c mem
    rw [released, ← struck]
    exact List.mem_map_of_mem mem
  rw [inOrder_cuesFrom, List.map_append, List.map_append, List.append_assoc,
    notesIn_strikes (fun c => of_mem_strikesOf _ _ _) (fun c => of_mem_releasesOf _ _ _) paired,
    struck, length]

/-! ## How far notes drift -/

section Drift

variable {secondsPerBeat : Rat} {micros : Nat} (pos : 0 < secondsPerBeat)
  (near : |(micros : Rat) - 1000000 * secondsPerBeat| ≤ 1 / 2)

include pos near

/-- Ticks are read as seconds that are wrong by half a microsecond for each quarter note at most. -/
theorem fileSeconds_near (position : Nat) :
    |fileSeconds micros (60 * position) - Cue.seconds secondsPerBeat position| ≤
      1 / 2000000 * (Cue.seconds secondsPerBeat position / secondsPerBeat) := by
  have beats : Cue.seconds secondsPerBeat position / secondsPerBeat = position / 8 := by
    unfold Cue.seconds
    exact mul_div_cancel_right₀ _ pos.ne'
  have error : fileSeconds micros (60 * position) - Cue.seconds secondsPerBeat position =
      position / 8 / 1000000 * (micros - 1000000 * secondsPerBeat) := by
    unfold fileSeconds Cue.seconds Track.standardResolution
    push_cast
    ring
  have elapsed : (0 : Rat) ≤ position / 8 / 1000000 := by positivity
  calc |fileSeconds micros (60 * position) - Cue.seconds secondsPerBeat position|
      = position / 8 / 1000000 * |micros - 1000000 * secondsPerBeat| := by
        rw [error, abs_mul, abs_of_nonneg elapsed]
    _ ≤ position / 8 / 1000000 * (1 / 2) := mul_le_mul_of_nonneg_left near elapsed
    _ = 1 / 2000000 * (Cue.seconds secondsPerBeat position / secondsPerBeat) := by
        rw [beats]
        ring

/-- The notes of an event drift as far as its position and its length allow. -/
theorem drifts_notesAt {e : Event} (writable : e.IsWritable) (position : Nat) :
    List.Forall₂ (Drifts secondsPerBeat micros)
      (e.notesAt secondsPerBeat (Cue.seconds secondsPerBeat position))
      (e.keys.map (FileNote.mk (60 * position) (60 * e.duration.units))) := by
  cases struck : e.velocity? with
  | none =>
    cases e with
    | rest d => exact List.Forall₂.nil
    | note p d v => cases struck
    | chord ps d v => cases struck
  | some velocity =>
    rw [notesAt_eq struck, List.forall₂_map_left_iff, List.forall₂_map_right_iff]
    have inRange := writable.inRange
    unfold Event.keys
    generalize e.pitches = ps at inRange
    induction ps with
    | nil => exact List.Forall₂.nil
    | cons p rest ih =>
      obtain ⟨here, behind⟩ := List.forall_mem_cons.mp inRange
      have fits : noteOf? p.number = some ⟨p.number.toNat, by omega⟩ := dif_pos here
      rw [List.filterMap_cons, fits]
      refine List.Forall₂.cons ⟨?_, ?_, ?_⟩ (ih behind)
      · exact (Int.toNat_of_nonneg here.1).symm
      · exact fileSeconds_near pos near position
      · exact fileSeconds_near pos near e.duration.units

/-- **Notes of a file drift by half a microsecond for each quarter note at most**, however many
there are. -/
theorem drifts_timelineFrom {events : List Event} (writable : ∀ e ∈ events, e.IsWritable)
    (position serial : Nat) :
    List.Forall₂ (Drifts secondsPerBeat micros)
      (timelineFrom secondsPerBeat (Cue.seconds secondsPerBeat position) events)
      (notesIn ((inOrder (cuesFrom position serial events)).map Cue.entry)) := by
  induction events generalizing position serial with
  | nil =>
    have nothing : inOrder (cuesFrom position serial []) = [] := List.mergeSort_nil
    rw [nothing]
    exact List.Forall₂.nil
  | cons e rest ih =>
    obtain ⟨here, behind⟩ := List.forall_mem_cons.mp writable
    rw [timelineFrom, notesIn_cuesFrom, seconds_after]
    exact List.rel_append (drifts_notesAt pos near here position) (ih behind _ _)

end Drift

/-! ## The drift of a file -/

/-- A tempo that a file holds is half a microsecond for each quarter note off at most. -/
theorem near_microseconds {tempo : Tempo} (rounded : tempo.IsRoundedOnce) {micros : Nat}
    (fits : microseconds tempo.bpm = .ok micros) :
    |(micros : Rat) - 1000000 * tempo.secondsPerBeat| ≤ 1 / 2 := by
  have exact : tempo.beatLength = 1000000 * tempo.secondsPerBeat := by
    show 60000000 / (tempo.quantity : Rat) = 1000000 * (((60 : Nat) : Rat) / tempo.quantity)
    push_cast
    ring
  rw [Tempo.microseconds_of_rounded rounded] at fits
  split at fits
  · obtain rfl := Except.ok.inj fits
    have whole : (((nearestInt tempo.beatLength).toNat : Nat) : Rat) =
        (nearestInt tempo.beatLength : Rat) := by
      exact_mod_cast congrArg (Int.cast (R := Rat)) (Int.toNat_of_nonneg tempo.nearestInt_nonneg)
    rw [whole, ← exact]
    exact nearestInt_near tempo.beatLength_nonneg
  · cases fits

/-- **A file drifts by half a microsecond for each quarter note at most.**  Whenever events can be
written, a reader of standard MIDI files gets the notes of their timeline from the bytes, in order,
and the tempo of the file takes each of them as close to its position and its length as the number
of quarter notes before it, and in it, allows. -/
theorem export_drift {tempo : Tempo} {name : Value} {events : List Event} {bytes : Bytes}
    (rounded : tempo.IsRoundedOnce)
    (genuine : ∀ points, name = .ragged points → IsGenuine points)
    (exported : exportBytes tempo name events = .ok bytes) :
    ∃ read entries micros,
      readFile bytes = some (⟨1, Track.standardResolution, [read]⟩, []) ∧
      read.map entry? = entries.map some ∧ tempoOf? entries = some micros ∧
      List.Forall₂ (Drifts tempo.secondsPerBeat micros) (timeline tempo events)
        (notesIn (noteEntries entries)) := by
  obtain ⟨track, added, written⟩ := exists_of_bind exported
  have writable := isWritable_of_addAll added
  obtain ⟨cursor, added'⟩ := exists_ofEvents writable tempo name
  obtain rfl := Except.ok.inj (added.symm.trans added')
  obtain ⟨entries, read, messages, back, same⟩ :=
    readFile_of_fileBytes written note?_of_mem_cues genuine
  obtain ⟨heading, micros, -, fits, rfl⟩ := exists_of_messages messages
  refine ⟨read, _, micros, back, same, tempoOf?_heading heading micros _, ?_⟩
  rw [timeline_eq, noteEntries_placing _ rfl]
  exact drifts_timelineFrom (secondsPerBeat_pos tempo) (near_microseconds rounded fits) writable 0 0

/-- A tempo of 110 quarter notes a minute, whose quarter notes have no whole number of
microseconds. -/
def Tempo.brisk : Tempo := ⟨110.0, by decide +kernel⟩

/-- At 110 quarter notes a minute a file is too slow by five elevenths of a microsecond for each
quarter note, which is within the limits for each of the three notes of the phrase. -/
theorem export_drift_phrase :
    (Tempo.brisk.IsRoundedOnce ∧ (∀ points, Value.null = .ragged points → IsGenuine points)) ∧
    ∃ bytes read entries, exportBytes Tempo.brisk .null phrase = .ok bytes ∧
      readFile bytes = some (⟨1, Track.standardResolution, [read]⟩, []) ∧
      read.map entry? = entries.map some ∧ tempoOf? entries = some 545455 ∧
      List.Forall₂ (Drifts Tempo.brisk.secondsPerBeat 545455) (timeline Tempo.brisk phrase)
        (notesIn (noteEntries entries)) ∧
      (timeline Tempo.brisk phrase : List (ScheduledNote Rat)).length = 3 := by
  have rounded : Tempo.brisk.IsRoundedOnce := Tempo.isRoundedOnce_of_nearest (by decide +kernel)
  have fits : microseconds Tempo.brisk.bpm = .ok 545455 := by
    have nearest : Quantity.nearest (unrounded Tempo.brisk.bpm) = some 545455 := by decide +kernel
    exact microseconds_of_nearest nearest
  have genuine : ∀ points, Value.null = .ragged points → IsGenuine points := by
    intro points given
    cases given
  obtain ⟨track, entries, contents, added, messages, tempoIs, inBytes, written, -⟩ :=
    exists_exportBytes isWritable_of_mem_phrase fits
  have length := length_phrase added messages inBytes
  obtain ⟨bytes, read, exported, back, same⟩ := written (by omega)
  obtain ⟨read', entries', micros, back', same', tempoIs', drifts⟩ :=
    export_drift rounded genuine exported
  -- Both describe the same file, so they speak of the same entries and of the same tempo.
  obtain rfl : read = read' := by simpa using back.symm.trans back'
  have sameEntries : entries = entries' :=
    List.map_injective_iff.mpr (Option.some_injective _) (same.symm.trans same')
  subst sameEntries
  obtain rfl := Option.some.inj (tempoIs.symm.trans tempoIs')
  exact ⟨⟨rounded, genuine⟩, bytes, read, entries, exported, back, same, tempoIs, drifts, rfl⟩

end Keysong
