import Keysong.Proofs.Packing
import Keysong.Proofs.Passages

/-!
# What a refused note leaves behind

A track is changed in place, message by message, and nothing takes a message back.  That a refused
note leaves the track as it was therefore rests on the order of the work: whatever can be refused is
looked at before the first message is written.  This module has that work step by step, with the
messages written so far kept when a step refuses, and follows it through any row of calls.

## Main Definitions

* `Work` — steps on a track that is changed in place
* `Work.write` — the work for one note or chord
* `TimedNote.IsTaken` — what is taken, by the note and the resolution alone
* `Track.attempts` — a row of calls, what comes of each, and the track behind them
* `accepted` — the calls of a row that were not refused

## Main Statements

* `Work.on_write` — the work is that of `Track.add`, and a refusal leaves the track as it was
* `exists_add_iff` — a track takes exactly the notes that `TimedNote.IsTaken` describes
* `Track.attempts_accepted` — without the calls that were refused, a row leads to the same track
* `refused_calls_leave_no_trace` — nothing that is read off a track tells whether calls were refused

### The second look at a number

Each message looks at its number again when it is built, and by then the messages of the numbers
before it are written.  `Work.on_forM_sound` has no refusal because it starts from numbers that
have been looked at once, by `Work.checkAll`.
-/

namespace Keysong

open Midi

namespace Midi

/-! ## Work in place -/

/-- Steps on a track that is changed in place.  A refusal ends the work, and what was written before
it stays written. -/
abbrev Work : Type → Type := ExceptT Fault (StateM Track)

namespace Work

/-- What comes of some work, and the track behind it. -/
def on {α : Type} (work : Work α) (t : Track) : Except Fault α × Track := (ExceptT.run work).run t

/-- The data byte of a number, as a message is built. -/
def byteOf (number : Int) : Work Data :=
  match noteOf? number with
  | some note => pure note
  | none => throw (.noteOutOfRange number)

/-- Writes a message behind the others. -/
def place (p : Placed) : Work Unit := modify fun t => { t with placed := t.placed ++ [p] }

/-- Writes the messages of a number: each is built, and then written. -/
def sound (start stop : Nat) (strength : Data) (number : Int) : Work Unit := do
  let t ← get
  let serial := t.placed.length
  let struck ← byteOf number
  place { tick := start, isStrike := true, serial, message := .noteOn t.channel struck strength }
  let released ← byteOf number
  place { tick := stop, isStrike := false, serial := serial + 1
          message := .noteOff t.channel released noStrength }

/-- Looks whether a number fits a message. -/
def check (number : Int) : Work Unit :=
  if isNote number then pure () else throw (.noteOutOfRange number)

/-- Looks at the numbers of a note: there is one, and each of them fits a message. -/
def checkAll (numbers : List Int) : Work Unit :=
  if numbers = [] then throw .emptyNote else forM numbers check

/-- The work for a note or a chord. -/
def write (note : TimedNote) : Work Unit := do
  checkAll note.numbers
  let t ← get
  let wait ← Track.ticksOfAll t.resolution note.wait
  let length ← Track.ticksOf t.resolution note.code
  let strength ← attack note.velocity
  let start := t.cursor + wait
  let stop := start + length
  forM note.numbers (sound start stop strength)
  modify fun t => { t with cursor := stop }

variable {α β : Type}

theorem on_bind_ok {work : Work α} {t t' : Track} {a : α} (ran : work.on t = (.ok a, t'))
    (next : α → Work β) : (work >>= next).on t = (next a).on t' := by
  unfold on at ran ⊢
  rw [ExceptT.run_bind, StateT.run_bind, ran]
  rfl

theorem on_bind_error {work : Work α} {t t' : Track} {fault : Fault}
    (ran : work.on t = (.error fault, t')) (next : α → Work β) :
    (work >>= next).on t = (.error fault, t') := by
  unfold on at ran ⊢
  rw [ExceptT.run_bind, StateT.run_bind, ran]
  rfl

theorem byteOf_val (note : Data) : byteOf note.val = pure note := by
  have here : noteOf? (note.val : Int) = some note := by
    unfold noteOf?
    rw [dif_pos (by omega)]
    rfl
  unfold byteOf
  rw [here]

/-- The messages of a number that fits. -/
theorem on_sound (start stop : Nat) (strength note : Data) (t : Track) :
    (sound start stop strength note.val).on t =
      (.ok (), { t with placed := t.placed ++
        Track.placeNotes t.channel start stop strength t.placed.length [note] }) := by
  unfold sound
  rw [byteOf_val]
  show (Except.ok (), { t with placed := _ ++ _ ++ _ }) = _
  rw [List.append_assoc]
  rfl

/-- Where all numbers fit, their messages are written one behind the other, and none of them is
refused. -/
theorem on_forM_sound (start stop : Nat) (strength : Data) (notes : List Data) (t : Track) :
    (forM (notes.map fun note => (note.val : Int)) (sound start stop strength)).on t =
      (.ok (), { t with placed := t.placed ++
        Track.placeNotes t.channel start stop strength t.placed.length notes }) := by
  induction notes generalizing t with
  | nil =>
    show (Except.ok (), t) = _
    simp [Track.placeNotes]
  | cons note rest ih =>
    rw [List.map_cons, List.forM_cons, on_bind_ok (on_sound ..), ih]
    simp [Track.placeNotes]

/-- The numbers are looked at one after the other, and nothing is written meanwhile. -/
theorem on_checkAll (numbers : List Int) (t : Track) :
    (checkAll numbers).on t = ((Track.notesOf numbers).map fun _ => (), t) := by
  unfold checkAll Track.notesOf
  by_cases empty : numbers = []
  · rw [if_pos empty, if_pos empty]
    rfl
  rw [if_neg empty, if_neg empty]
  clear empty
  induction numbers with
  | nil => rfl
  | cons n rest ih =>
    rw [List.forM_cons, List.mapM_cons]
    cases here : noteOf? n with
    | none =>
      have refused : (check n).on t = (.error (.noteOutOfRange n), t) := by
        simp [check, isNote, here]
        rfl
      rw [on_bind_error refused]
      rfl
    | some note =>
      have taken : (check n).on t = (.ok (), t) := by
        simp [check, isNote, here]
        rfl
      rw [on_bind_ok taken, ih]
      generalize List.mapM (m := Except Fault) _ rest = behind
      cases behind with
      | error fault => rfl
      | ok notes => rfl

/-- **The work for a note is that of `Track.add`**, and where it is refused the track is as it
was. -/
theorem on_write (note : TimedNote) (t : Track) :
    (write note).on t =
      match t.add note with
      | .ok t' => (.ok (), t')
      | .error fault => (.error fault, t) := by
  have looked := on_checkAll note.numbers t
  have held : (get : Work Track).on t = (.ok t, t) := rfl
  unfold write Track.add
  cases numbers : Track.notesOf note.numbers with
  | error fault =>
    rw [numbers] at looked
    rw [on_bind_error looked]
    rfl
  | ok notes =>
    rw [numbers] at looked
    rw [on_bind_ok looked, on_bind_ok held, (numbers_of_notesOf numbers).1]
    cases Track.ticksOfAll t.resolution note.wait with
    | error fault => rfl
    | ok waited =>
      cases Track.ticksOf t.resolution note.code with
      | error fault => rfl
      | ok length =>
        cases attack note.velocity with
        | error fault => rfl
        | ok strength =>
          have written := on_forM_sound (t.cursor + waited) (t.cursor + waited + length) strength
            notes t
          exact on_bind_ok written _

end Work

end Midi

/-! ## What is taken -/

/-- What a track of some resolution takes, whatever it holds already: numbers that fit a message,
and codes and a velocity that come out finite when they are scaled. -/
structure TimedNote.IsTaken (resolution : Nat) (note : TimedNote) : Prop where
  some : note.numbers ≠ []
  inRange : ∀ n ∈ note.numbers, 0 ≤ n ∧ n ≤ 127
  wait : ∀ code ∈ note.wait, ∃ ticks, Track.ticksOf resolution code = .ok ticks
  long : ∃ ticks, Track.ticksOf resolution note.code = .ok ticks
  loud : (note.velocity * 127.0).isFinite = true

namespace Midi

theorem exists_notesOf_iff {numbers : List Int} :
    (∃ notes, Track.notesOf numbers = .ok notes) ↔
      numbers ≠ [] ∧ ∀ n ∈ numbers, 0 ≤ n ∧ n ≤ 127 := by
  constructor
  · rintro ⟨notes, taken⟩
    obtain ⟨same, some⟩ := numbers_of_notesOf taken
    rw [same]
    refine ⟨by simpa using some, ?_⟩
    intro n mem
    obtain ⟨note, -, rfl⟩ := List.mem_map.mp mem
    omega
  · rintro ⟨some, inRange⟩
    unfold Track.notesOf
    rw [if_neg some]
    clear some
    induction numbers with
    | nil => exact ⟨[], rfl⟩
    | cons n rest ih =>
      obtain ⟨fits, later⟩ := List.forall_mem_cons.mp inRange
      obtain ⟨note, here⟩ := Track.exists_noteOf? fits
      obtain ⟨others, behind⟩ := ih later
      rw [List.mapM_cons, here, behind]
      exact ⟨note :: others, rfl⟩

theorem exists_ticksOfAll_iff {resolution : Nat} {wait : List String} :
    (∃ ticks, Track.ticksOfAll resolution wait = .ok ticks) ↔
      ∀ code ∈ wait, ∃ ticks, Track.ticksOf resolution code = .ok ticks := by
  induction wait with
  | nil => exact ⟨fun _ code mem => absurd mem List.not_mem_nil, fun _ => ⟨0, rfl⟩⟩
  | cons code rest ih =>
    rw [List.forall_mem_cons, ← ih]
    constructor
    · rintro ⟨ticks, taken⟩
      obtain ⟨first, here, taken⟩ := exists_of_bind taken
      obtain ⟨others, behind, -⟩ := exists_of_bind taken
      exact ⟨⟨first, here⟩, others, behind⟩
    · rintro ⟨⟨first, here⟩, others, behind⟩
      rw [Track.ticksOfAll, here, behind]
      exact ⟨first + others, rfl⟩

theorem exists_attack_iff {velocity : Float} :
    (∃ strength, attack velocity = .ok strength) ↔ (velocity * 127.0).isFinite = true := by
  rw [Decimal.isFinite_iff_size]
  unfold attack
  dsimp only
  cases (Decimal.Double.ofFloat (velocity * 127.0)).size <;> simp

/-- **What a track takes** is decided by the note and the resolution. -/
theorem exists_add_iff {t : Track} {note : TimedNote} :
    (∃ t', t.add note = .ok t') ↔ note.IsTaken t.resolution := by
  constructor
  · rintro ⟨t', added⟩
    obtain ⟨notes, waited, length, strength, numbers, wait, long, strong⟩ :=
      Track.exists_of_add added
    obtain ⟨some, inRange⟩ := exists_notesOf_iff.mp ⟨notes, numbers⟩
    exact ⟨some, inRange, exists_ticksOfAll_iff.mp ⟨waited, wait⟩, ⟨length, long⟩,
      exists_attack_iff.mp ⟨strength, strong⟩⟩
  · intro taken
    obtain ⟨notes, numbers⟩ := exists_notesOf_iff.mpr ⟨taken.some, taken.inRange⟩
    obtain ⟨waited, wait⟩ := exists_ticksOfAll_iff.mpr taken.wait
    obtain ⟨length, long⟩ := taken.long
    obtain ⟨strength, strong⟩ := exists_attack_iff.mpr taken.loud
    exact ⟨_, Track.add_eq t note numbers wait long strong⟩

/-! ## Rows of calls -/

namespace Track

/-- What comes of calls on a track that is changed in place, one after the other, and the track
behind them. -/
def attempts (t : Track) : List TimedNote → List (TimedNote × Except Fault Unit) × Track
  | [] => ([], t)
  | note :: rest =>
    let (outcome, after) := (Work.write note).on t
    let (later, last) := attempts after rest
    ((note, outcome) :: later, last)

end Track

/-- The calls of a row that were not refused. -/
def accepted (log : List (TimedNote × Except Fault Unit)) : List TimedNote :=
  (log.filter fun call => call.2.isOk).map Prod.fst

namespace Track

theorem attempts_cons_ok {t t' : Track} {note : TimedNote} (added : t.add note = .ok t')
    (rest : List TimedNote) :
    t.attempts (note :: rest) = ((note, .ok ()) :: (t'.attempts rest).1, (t'.attempts rest).2) := by
  rw [attempts, Work.on_write, added]

theorem attempts_cons_error {t : Track} {note : TimedNote} {fault : Fault}
    (refused : t.add note = .error fault) (rest : List TimedNote) :
    t.attempts (note :: rest) =
      ((note, .error fault) :: (t.attempts rest).1, (t.attempts rest).2) := by
  rw [attempts, Work.on_write, refused]

theorem calls_attempts (t : Track) (calls : List TimedNote) :
    (t.attempts calls).1.map Prod.fst = calls := by
  induction calls generalizing t with
  | nil => rfl
  | cons note rest ih => exact congrArg (note :: ·) (ih _)

/-- Whether a call of a row is taken does not depend on the calls before it. -/
theorem isOk_attempts_iff (t : Track) (calls : List TimedNote) :
    ∀ call ∈ (t.attempts calls).1, call.2.isOk = true ↔ call.1.IsTaken t.resolution := by
  induction calls generalizing t with
  | nil => exact fun call mem => absurd mem List.not_mem_nil
  | cons note rest ih =>
    cases added : t.add note with
    | ok t' =>
      rw [attempts_cons_ok added, ← (extends_add added).resolution]
      refine List.forall_mem_cons.mpr ⟨?_, ih t'⟩
      rw [(extends_add added).resolution]
      exact iff_of_true rfl (exists_add_iff.mp ⟨t', added⟩)
    | error fault =>
      rw [attempts_cons_error added]
      refine List.forall_mem_cons.mpr ⟨?_, ih t⟩
      refine iff_of_false (by simp [Except.isOk, Except.toBool]) fun taken => ?_
      obtain ⟨t', taken⟩ := exists_add_iff.mpr taken
      rw [added] at taken
      cases taken

/-- **Without the calls that were refused, a row of calls leads to the same track**, and each of the
others is taken as before. -/
theorem attempts_accepted (t : Track) (calls : List TimedNote) :
    t.attempts (accepted (t.attempts calls).1) =
      ((accepted (t.attempts calls).1).map fun note => (note, .ok ()), (t.attempts calls).2) := by
  induction calls generalizing t with
  | nil => rfl
  | cons note rest ih =>
    cases added : t.add note with
    | ok t' =>
      rw [attempts_cons_ok added]
      show t.attempts (note :: accepted (t'.attempts rest).1) = _
      rw [attempts_cons_ok added, ih t']
      rfl
    | error fault =>
      rw [attempts_cons_error added]
      exact ih t

/-- Calls of which none is refused add their notes one after the other. -/
theorem addAll_of_attempts {t last : Track} {calls : List TimedNote}
    (taken : t.attempts calls = (calls.map fun note => (note, .ok ()), last)) :
    t.addAll calls = .ok last := by
  induction calls generalizing t with
  | nil => exact congrArg (Except.ok ·.2) taken
  | cons note rest ih =>
    cases added : t.add note with
    | ok t' =>
      rw [attempts_cons_ok added] at taken
      have behind : t'.attempts rest = (rest.map fun note => (note, .ok ()), last) := by
        simpa [Prod.ext_iff] using taken
      unfold addAll
      rw [List.foldlM_cons, added]
      exact ih behind
    | error fault =>
      rw [attempts_cons_error added] at taken
      simp at taken

end Track

end Midi

/-- **A refused note leaves no trace.**  On any track, and for any row of calls in which some are
refused, the calls that were not refused lead by themselves to a track with the same messages in the
same order, the same length and the same bytes, or the same cause for which there are none; none of
them is refused then either.  What is refused does not depend on what the track holds. -/
theorem refused_calls_leave_no_trace (t : Track) (calls : List TimedNote) :
    ∃ log last clean, t.attempts calls = (log, last) ∧ log.map Prod.fst = calls ∧
      (∀ call ∈ log, call.2.isOk = true ↔ call.1.IsTaken t.resolution) ∧
      t.attempts (accepted log) = ((accepted log).map fun note => (note, .ok ()), clean) ∧
      t.addAll (accepted log) = .ok clean ∧
      clean.placed = last.placed ∧ clean.messages = last.messages ∧ clean.cursor = last.cursor ∧
      fileBytes clean = fileBytes last := by
  have taken := t.attempts_accepted calls
  exact ⟨_, _, _, rfl, t.calls_attempts calls, t.isOk_attempts_iff calls, taken,
    Track.addAll_of_attempts taken, rfl, rfl, rfl, rfl⟩

end Keysong
