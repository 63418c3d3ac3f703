import Keysong.Proofs.Performance

/-!
# What an encoder is handed

A file has no silent events, so the rests of a row of events are handed to an encoder together with
the note or chord behind them.  This module reads the calls of an encoder back: each of its codes of
waiting as a rest, and then the note or chord.  What is read back is the row of events as it was,
less the rests that end it.

## Main Definitions

* `Encoder` — what takes notes and chords one by one, and may refuse them
* `Encoder.encode` — hands a row of events to an encoder
* `Encoder.recording` — an encoder that also keeps a list of its calls
* `Stretch` — a rest, or numbers that are struck, as an encoder can tell them apart
* `TimedNote.stretches` — what a call says

## Main Statements

* `Encoder.feed_eq` — an encoder is handed the lead-ins of a row of events, and stops at the first
  that it refuses
* `flatMap_leadInsFrom` — what the calls say is what the events say, up to the last that sounds
* `stretches_leadIns`, `waits_leadIns` — so are what is read back, and the codes of waiting
* `encode_hands_over` — every encoder that accepts its calls is handed every sound and every inner
  rest, each rest once

### Reading codes strictly

Where a file is written, a code that nobody knows counts as a quarter note.  Here it counts as
nothing, so to read back a rest means that its own code was handed over.
-/

namespace Keysong

open Midi

/-! ## Encoders -/

/-- What takes notes and chords one by one: what it holds at a tempo before the first, and what a
call makes of that. -/
structure Encoder (σ : Type) where
  fresh : Tempo → σ
  add : σ → TimedNote → Except Fault σ

namespace Encoder

variable {σ : Type}

/-- Hands events to an encoder, with `wait` collected before the first of them.  A note or chord
takes what was collected as its lead-in. -/
def feed (E : Encoder σ) : List String → σ → List Event → Except Fault σ
  | _, held, [] => .ok held
  | wait, held, e :: rest =>
    match e.timed? wait with
    | none => feed E (wait ++ [e.duration.code]) held rest
    | some note => do
      let held ← E.add held note
      feed E [] held rest

/-- Hands a row of events to an encoder.  The tempo is looked at first. -/
def encode (E : Encoder σ) (bpm : Value) (events : List Event) : Except Fault σ := do
  let tempo ← Tempo.ofValue bpm
  E.feed [] (E.fresh tempo) events

/-- An encoder that also keeps a list of the calls that it has taken. -/
def recording (E : Encoder σ) : Encoder (σ × List TimedNote) where
  fresh tempo := (E.fresh tempo, [])
  add held note := do
    let next ← E.add held.1 note
    return (next, held.2 ++ [note])

/-- The encoder that writes tracks with a name. -/
def writing (name : Value) : Encoder Track where
  fresh tempo := .atTempo tempo name
  add := Track.add

/-- **An encoder is handed the lead-ins of a row of events**, up to the first that it refuses. -/
theorem feed_eq (E : Encoder σ) (wait : List String) (held : σ) (events : List Event) :
    E.feed wait held events = (leadInsFrom wait events).foldlM E.add held := by
  induction events generalizing wait held with
  | nil => rfl
  | cons e rest ih =>
    unfold feed leadInsFrom
    cases e.timed? wait with
    | none => exact ih _ held
    | some note =>
      rw [List.foldlM_cons]
      apply bind_congr
      intro next
      exact ih [] next

/-- What an encoder makes of a row of events, if it accepts all calls: a list of the calls does not
change it. -/
theorem exists_feed {E : Encoder σ} (accepts : ∀ held note, ∃ next, E.add held note = .ok next)
    (held : σ) (calls earlier : List TimedNote) :
    ∃ last, calls.foldlM E.add held = .ok last ∧
      calls.foldlM E.recording.add (held, earlier) = .ok (last, earlier ++ calls) := by
  induction calls generalizing held earlier with
  | nil => exact ⟨held, rfl, by simp [pure, Except.pure]⟩
  | cons note calls ih =>
    obtain ⟨next, taken⟩ := accepts held note
    obtain ⟨last, plainly, recorded⟩ := ih next (earlier ++ [note])
    have noted : E.recording.add (held, earlier) note = .ok (next, earlier ++ [note]) := by
      simp [recording, taken, bind, Except.bind, pure, Except.pure]
    refine ⟨last, ?_, ?_⟩
    · rw [List.foldlM_cons, taken]
      exact plainly
    · rw [List.append_assoc, List.singleton_append] at recorded
      rw [List.foldlM_cons, noted]
      exact recorded

/-- At a tempo that is one, events are handed over from the start. -/
theorem encode_eq (E : Encoder σ) {bpm : Value} {tempo : Tempo}
    (valid : Tempo.ofValue bpm = .ok tempo) (events : List Event) :
    E.encode bpm events = (leadIns events).foldlM E.add (E.fresh tempo) := by
  unfold encode
  rw [valid]
  exact E.feed_eq [] (E.fresh tempo) events

end Encoder

/-! ## Reading calls back -/

/-- A rest, or note numbers that are struck together. -/
inductive Stretch where
  | silence (duration : NoteValue)
  | strike (numbers : List Int) (duration : NoteValue) (velocity : Float)

/-- An event by its note numbers.  How a pitch is spelled makes no difference to an encoder, nor
whether a single note was a chord. -/
def Event.stretch : Event → Stretch
  | rest d => .silence d
  | note p d velocity => .strike [p.number] d velocity
  | chord ps d velocity => .strike (ps.map Pitch.number) d velocity

/-- What a call says: the rests that it waits for, and what it strikes.  A code that nobody knows
says nothing. -/
def TimedNote.stretches (note : TimedNote) : List (Option Stretch) :=
  (note.wait.map fun code => (NoteValue.ofCode? code).map Stretch.silence) ++
    [(NoteValue.ofCode? note.code).map fun d => .strike note.numbers d note.velocity]

/-- A call says what the rests before it and its event say. -/
theorem stretches_of_timed? {e : Event} {ds : List NoteValue} {note : TimedNote}
    (struck : e.timed? (ds.map NoteValue.code) = some note) :
    note.stretches = (ds.map Event.rest ++ [e]).map fun e => some e.stretch := by
  cases e with
  | rest d => cases struck
  | note p d velocity =>
    obtain rfl := Option.some.inj struck
    simp [TimedNote.stretches, Event.stretch]
  | chord ps d velocity =>
    obtain rfl := Option.some.inj struck
    simp [TimedNote.stretches, Event.stretch]

theorem wait_of_timed? {e : Event} {wait : List String} {note : TimedNote}
    (struck : e.timed? wait = some note) : note.wait = wait ∧ e.isRest = false := by
  cases e with
  | rest d => cases struck
  | note p d velocity =>
    obtain rfl := Option.some.inj struck
    exact ⟨rfl, rfl⟩
  | chord ps d velocity =>
    obtain rfl := Option.some.inj struck
    exact ⟨rfl, rfl⟩

/-- Events without a call are rests. -/
theorem eq_rest_of_timed? {e : Event} {wait : List String} (silent : e.timed? wait = none) :
    e = .rest e.duration := by
  cases e with
  | rest d => rfl
  | note p d velocity => cases silent
  | chord ps d velocity => cases silent

/-- What is in front of an event that sounds is kept with it. -/
theorem rdropWhile_append_cons (before behind : List Event) {e : Event}
    (sounds : e.isRest = false) :
    (before ++ e :: behind).rdropWhile Event.isRest =
      before ++ e :: behind.rdropWhile Event.isRest := by
  induction behind using List.reverseRecOn with
  | nil => exact List.rdropWhile_concat_neg _ _ _ (by simp [sounds])
  | append_singleton behind last ih =>
    rw [← List.cons_append, ← List.append_assoc]
    by_cases silent : last.isRest = true
    · rw [List.rdropWhile_concat_pos _ _ _ silent, List.rdropWhile_concat_pos _ _ _ silent, ih]
    · rw [List.rdropWhile_concat_neg _ _ _ silent, List.rdropWhile_concat_neg _ _ _ silent,
        List.append_assoc, List.cons_append]

section Saying

variable {β : Type} {ofCall : TimedNote → List β} {ofEvent : Event → List β}

/-- **The calls say what the events say**, up to the last one that sounds, if every call says what
its event and the rests in front of it do: those that were collected, and those in the row. -/
theorem flatMap_leadInsFrom
    (agrees : ∀ ds e note, Event.timed? (List.map NoteValue.code ds) e = some note →
      ofCall note = (ds.map Event.rest ++ [e]).flatMap ofEvent) (ds : List NoteValue)
    (events : List Event) :
    (leadInsFrom (ds.map NoteValue.code) events).flatMap ofCall =
      ((ds.map Event.rest ++ events).rdropWhile Event.isRest).flatMap ofEvent := by
  induction events generalizing ds with
  | nil =>
    have onlyRests : (ds.map Event.rest ++ []).rdropWhile Event.isRest = [] := by
      rw [List.rdropWhile_eq_nil_iff]
      simp [Event.isRest]
    rw [onlyRests]
    rfl
  | cons e rest ih =>
    unfold leadInsFrom
    cases struck : e.timed? (ds.map NoteValue.code) with
    | none =>
      -- one more rest is collected
      have longer := ih (ds ++ [e.duration])
      rw [List.map_append, List.map_append, List.append_assoc] at longer
      rw [eq_rest_of_timed? struck]
      exact longer
    | some note =>
      -- what was collected is handed over, and collecting starts anew
      have anew := ih []
      rw [List.map_nil, List.map_nil, List.nil_append] at anew
      rw [rdropWhile_append_cons _ _ (wait_of_timed? struck).2, List.flatMap_cons, anew,
        agrees ds e note struck, ← List.flatMap_append, List.append_assoc, List.singleton_append]

/-- The calls read back. -/
theorem stretches_leadIns (events : List Event) :
    (leadIns events).flatMap TimedNote.stretches =
      (events.rdropWhile Event.isRest).map fun e => some e.stretch := by
  have agrees (ds : List NoteValue) (e : Event) (note : TimedNote)
      (struck : e.timed? (ds.map NoteValue.code) = some note) :
      note.stretches = (ds.map Event.rest ++ [e]).flatMap fun e => [some e.stretch] := by
    rw [stretches_of_timed? struck, List.map_eq_flatMap]
  rw [List.map_eq_flatMap]
  exact flatMap_leadInsFrom agrees [] events

/-- **Every inner rest is waited for once**: the codes of waiting are those of the rests, in their
order. -/
theorem waits_leadIns (events : List Event) :
    (leadIns events).flatMap TimedNote.wait =
      ((events.rdropWhile Event.isRest).filter Event.isRest).map fun e => e.duration.code := by
  let code (e : Event) : List String := if e.isRest then [e.duration.code] else []
  have codes (row : List Event) :
      row.flatMap code = (row.filter Event.isRest).map fun e => e.duration.code := by
    induction row with
    | nil => rfl
    | cons e row ih => cases silent : e.isRest <;> simp [code, silent, ih]
  have agrees (ds : List NoteValue) (e : Event) (note : TimedNote)
      (struck : e.timed? (ds.map NoteValue.code) = some note) :
      note.wait = (ds.map Event.rest ++ [e]).flatMap code := by
    obtain ⟨waited, sounds⟩ := wait_of_timed? struck
    rw [waited, codes, List.filter_append, List.filter_eq_self.mpr (by simp [Event.isRest])]
    simp [sounds, Event.duration]
  rw [← codes]
  exact flatMap_leadInsFrom agrees [] events

end Saying

/-- Rests at the end of a row of events lead into nothing. -/
theorem leadInsFrom_append (wait : List String) (events : List Event) {rests : List Event}
    (silent : ∀ e ∈ rests, e.isRest = true) :
    leadInsFrom wait (events ++ rests) = leadInsFrom wait events := by
  induction events generalizing wait with
  | nil =>
    induction rests generalizing wait with
    | nil => rfl
    | cons e rests ih =>
      obtain ⟨here, behind⟩ := List.forall_mem_cons.mp silent
      cases e with
      | rest d => exact ih behind _
      | note p d velocity => cases here
      | chord ps d velocity => cases here
  | cons e rest ih =>
    rw [List.cons_append]
    unfold leadInsFrom
    cases e.timed? wait with
    | none => exact ih _
    | some note => exact congrArg (note :: ·) (ih [])

/-- The file of a row of events is what the encoder of tracks makes of it. -/
theorem exportBytes_eq_encode {bpm : Value} {tempo : Tempo}
    (valid : Tempo.ofValue bpm = .ok tempo) (name : Value) (events : List Event) :
    exportBytes tempo name events =
      (Encoder.writing name).encode bpm events >>= fun track => fileBytes track := by
  rw [Encoder.encode_eq _ valid]
  rfl

/-- **Every sound and every inner rest is handed over.**  An encoder that accepts its calls is
handed calls that say, in order, what the events say up to the last one that sounds, each rest once
as a code of waiting.  Rests behind that change neither what it is handed nor what it makes of it;
and the file that the encoder of tracks makes, or the fault, is the same as without them. -/
theorem encode_hands_over {σ : Type} (E : Encoder σ)
    (accepts : ∀ held note, ∃ next, E.add held note = .ok next) {bpm : Value} {tempo : Tempo}
    (valid : Tempo.ofValue bpm = .ok tempo) (events : List Event) :
    ∃ held calls, E.encode bpm events = .ok held ∧
      E.recording.encode bpm events = .ok (held, calls) ∧
      calls.flatMap TimedNote.stretches =
        ((events.rdropWhile Event.isRest).map fun e => some e.stretch) ∧
      calls.flatMap TimedNote.wait =
        (((events.rdropWhile Event.isRest).filter Event.isRest).map fun e => e.duration.code) ∧
      ∀ rests : List Event, (∀ e ∈ rests, e.isRest = true) →
        E.recording.encode bpm (events ++ rests) = .ok (held, calls) ∧
        ∀ name, ((Encoder.writing name).encode bpm (events ++ rests) >>= fun track =>
          fileBytes track) = exportBytes tempo name events := by
  obtain ⟨held, plainly, recorded⟩ :=
    Encoder.exists_feed accepts (E.fresh tempo) (leadIns events) []
  have same (rests : List Event) (silent : ∀ e ∈ rests, e.isRest = true) :
      leadIns (events ++ rests) = leadIns events := leadInsFrom_append [] events silent
  refine ⟨held, leadIns events, ?_, ?_, ?_, ?_, fun rests silent => ⟨?_, fun name => ?_⟩⟩
  · rw [E.encode_eq valid, plainly]
  · rw [E.recording.encode_eq valid]
    exact recorded
  · exact stretches_leadIns events
  · exact waits_leadIns events
  · rw [E.recording.encode_eq valid, same rests silent]
    exact recorded
  · rw [exportBytes_eq_encode valid, Encoder.encode_eq _ valid, Encoder.encode_eq _ valid,
      same rests silent]

/-- An encoder that counts its calls accepts them all; it is handed two for the phrase, the first of
which waits for a quarter note. -/
theorem encode_hands_over_phrase :
    let counting : Encoder Nat := ⟨fun _ => 0, fun n _ => .ok (n + 1)⟩
    ((∀ held note, ∃ next, counting.add held note = .ok next) ∧
      Tempo.ofValue (.float 120.0) = .ok Tempo.moderate) ∧
    ∃ held calls, counting.encode (.float 120.0) phrase = .ok held ∧
      counting.recording.encode (.float 120.0) (phrase ++ [.rest .half]) = .ok (held, calls) ∧
      calls.flatMap TimedNote.wait = ["4"] := by
  intro counting
  have accepts : ∀ held note, ∃ next, counting.add held note = .ok next :=
    fun held _ => ⟨held + 1, rfl⟩
  obtain ⟨held, calls, encoded, -, -, waits, ended⟩ :=
    encode_hands_over counting accepts ofValue_moderate phrase
  exact ⟨⟨accepts, ofValue_moderate⟩, held, calls, encoded,
    (ended [.rest .half] (by simp [Event.isRest])).1, waits⟩

end Keysong
