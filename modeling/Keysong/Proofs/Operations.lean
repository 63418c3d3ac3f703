import Keysong.Instrument.Basic

/-!
# What the operations of an instrument change

Every operation of an instrument is described by what it puts into the queue or takes out of it,
and by what it sends.  Whoever reasons about stages uses these descriptions and does not open the
operations again.

## Main Definitions

* `Deed.signal?`, `Deed.message?`, `Deed.reached` — what a deed played, what it sent, and whether
  that got through
* `ScheduledNote.signals`, `signalsFrom` — what scheduling puts into the queue
* `PlayedAt` — what playing a row of signals is recorded as
* `Sends`, `Fills` — two states of an instrument between which some deeds were done, or some signals
  put into the queue, and nothing else
* `ScheduledNote.Scheduling` — the four things that scheduling a note may come to

## Main Statements

* `exists_scheduling` — to which of them it comes, and what it leaves behind
* `fills_on`, `fills_scheduleAll` — scheduling fills the queue and changes nothing that is heard
* `sends_clear` — clearing plays no signal
* `stepLoop_cancelled`, `stepLoop_live` — a cancelled loop only ends; a live one plays the front of
  the queue, and ends exactly if nothing is left

### Outputs that lose messages

A send that fails is a deed as well, so `Sends` speaks about all outputs at once.  That nothing is
lost on an output that carries everything is a part of it.

### Notes that are refused too late

A note may be refused when its signals are in the queue already, since its pitch is written last.
What a note puts into the queue is therefore told by the note alone, and `Fills` holds whether or
not it is refused; only the serial numbers have to be looked at more closely.
-/

namespace Keysong

open Quantity

variable {τ : Type}

/-- An instrument on which nobody has played yet. -/
structure Instrument.IsFresh (i : Instrument τ) : Prop where
  loops : i.loops = []
  current : i.current = none
  queue : i.queue = []

/-- An instrument that was just opened. -/
structure Instrument.IsNew (i : Instrument τ) : Prop extends i.IsFresh where
  silent : i.sounding = []
  untouched : i.deeds = []

namespace Instrument

/-! ## Deeds -/

namespace Deed

/-- The signal that was played. -/
def signal? : Deed τ → Option (Signal τ)
  | played _ s _ => some s
  | _ => none

/-- The message that was sent, whether or not it got through. -/
def message? (channel : Midi.Channel) : Deed τ → Option Midi.Message
  | played _ s _ => some (s.message channel)
  | silenced _ m _ => some m
  | closed _ => none

/-- Whether nothing that was sent got lost. -/
def reached : Deed τ → Bool
  | played _ _ r => r
  | silenced _ _ r => r
  | closed _ => true

end Deed

/-- A row of signals is played at a time: each is a deed of its own. -/
inductive PlayedAt (now : τ) : List (Signal τ) → List (Deed τ) → Prop where
  | nil : PlayedAt now [] []
  | cons {s : Signal τ} {reached : Bool} {rest : List (Signal τ)} {deeds : List (Deed τ)}
    (others : PlayedAt now rest deeds) : PlayedAt now (s :: rest) (.played now s reached :: deeds)

theorem PlayedAt.map_signal? {now : τ} {signals : List (Signal τ)} {deeds : List (Deed τ)}
    (h : PlayedAt now signals deeds) : deeds.map Deed.signal? = signals.map some := by
  induction h with
  | nil => rfl
  | cons _ ih => exact congrArg (_ :: ·) ih

theorem filterMap_signal? {deeds : List (Deed τ)} {signals : List (Signal τ)}
    (h : deeds.map Deed.signal? = signals.map some) : deeds.filterMap Deed.signal? = signals := by
  have flat := congrArg (List.filterMap id) h
  simpa using flat

/-- Whether an instrument has an output that loses nothing. -/
def CarriesAll (i : Instrument τ) : Prop :=
  ∃ output, i.output = some output ∧ ∀ k, output.carries k = true

/-- Between two states some deeds were done, and besides that only the output, the notes that sound
and the reports may have changed. -/
structure Sends (done : List (Deed τ)) (i i' : Instrument τ) : Prop where
  channel : i'.channel = i.channel
  queue : i'.queue = i.queue
  counter : i'.counter = i.counter
  loops : i'.loops = i.loops
  current : i'.current = i.current
  startTime : i'.startTime = i.startTime
  deeds : i'.deeds = i.deeds ++ done
  arrives : i.CarriesAll → i'.CarriesAll ∧ ∀ d ∈ done, d.reached = true

namespace Sends

theorem trans {done done' : List (Deed τ)} {i i' i'' : Instrument τ} (h : Sends done i i')
    (h' : Sends done' i' i'') : Sends (done ++ done') i i'' where
  channel := h'.channel.trans h.channel
  queue := h'.queue.trans h.queue
  counter := h'.counter.trans h.counter
  loops := h'.loops.trans h.loops
  current := h'.current.trans h.current
  startTime := h'.startTime.trans h.startTime
  deeds := by rw [h'.deeds, h.deeds, List.append_assoc]
  arrives carries := by
    obtain ⟨carries', reached⟩ := h.arrives carries
    obtain ⟨carries'', reached'⟩ := h'.arrives carries'
    refine ⟨carries'', fun d mem => ?_⟩
    rcases List.mem_append.mp mem with left | right
    · exact reached d left
    · exact reached' d right

/-- Which notes sound and what is reported does not matter. -/
theorem quietly (i : Instrument τ) (sounding : List Midi.Data) (notices : List Notice) :
    Sends [] i { i with sounding := sounding, notices := notices } where
  channel := rfl
  queue := rfl
  counter := rfl
  loops := rfl
  current := rfl
  startTime := rfl
  deeds := (List.append_nil _).symm
  arrives carries := ⟨carries, fun _ mem => absurd mem List.not_mem_nil⟩

/-- Whoever sends may set a loop before or after. -/
theorem setLoop {done : List (Deed τ)} {i i' : Instrument τ} (h : Sends done i i') (n : Nat)
    (l : Loop τ) (running : Bool) (notices : List Notice) :
    Sends done (i.setLoop n l) { i'.setLoop n l with running := running, notices := notices } where
  channel := h.channel
  queue := h.queue
  counter := h.counter
  loops := congrArg (fun loops => loops.set n l) h.loops
  current := h.current
  startTime := h.startTime
  deeds := h.deeds
  arrives := h.arrives

end Sends

/-- A message that is sent is a deed, whatever it is recorded as. -/
theorem sends_send (i : Instrument τ) (deed : Bool → Deed τ)
    (recorded : ∀ r, (deed r).reached = r) :
    Sends [deed i.send.2] i { i.send.1 with deeds := i.send.1.deeds ++ [deed i.send.2] } := by
  unfold send
  cases open? : i.output with
  | none =>
    refine ⟨rfl, rfl, rfl, rfl, rfl, rfl, rfl, fun ⟨output, here, _⟩ => ?_⟩
    rw [open?] at here
    cases here
  | some output =>
    refine ⟨rfl, rfl, rfl, rfl, rfl, rfl, rfl, fun ⟨output', here, carries⟩ => ?_⟩
    obtain rfl : output = output' := Option.some.inj (open?.symm.trans here)
    refine ⟨⟨_, rfl, carries⟩, fun d mem => ?_⟩
    rw [List.mem_singleton.mp mem, recorded]
    exact carries _

/-- Playing a signal is one deed. -/
theorem sends_perform (now : τ) (i : Instrument τ) (s : Signal τ) :
    ∃ reached, Sends [.played now s reached] i (perform now i s) := by
  let j : Instrument τ := { i with sounding := soundingAfter i.sounding s }
  have quiet : Sends [] i j := Sends.quietly _ _ _
  have sent := quiet.trans (sends_send j (.played now s) fun _ => rfl)
  refine ⟨j.send.2, ?_⟩
  unfold perform
  dsimp only
  split
  · exact sent.trans (Sends.quietly _ _ _)
  · exact sent

/-- Playing a row of signals is one deed for each. -/
theorem sends_foldl_perform (now : τ) (signals : List (Signal τ)) (i : Instrument τ) :
    ∃ deeds, Sends deeds i (signals.foldl (perform now) i) ∧ PlayedAt now signals deeds := by
  induction signals generalizing i with
  | nil => exact ⟨[], Sends.quietly i i.sounding i.notices, .nil⟩
  | cons s rest ih =>
    obtain ⟨reached, first⟩ := sends_perform now i s
    obtain ⟨deeds, others, played⟩ := ih (perform now i s)
    exact ⟨.played now s reached :: deeds, first.trans others, played.cons⟩

/-- Messages that silence an instrument are sent up to the first that gets lost. -/
theorem sends_sendAll (now : τ) (messages : List Midi.Message) (i : Instrument τ) :
    ∃ deeds, Sends deeds i (sendAll now i messages) ∧
      ∀ d ∈ deeds, ∃ message ∈ messages, ∃ reached, d = .silenced now message reached := by
  induction messages generalizing i with
  | nil =>
    exact ⟨[], Sends.quietly i i.sounding i.notices, fun d mem => absurd mem List.not_mem_nil⟩
  | cons message rest ih =>
    have sent := sends_send i (.silenced now message) fun _ => rfl
    have first : ∀ d ∈ [Deed.silenced now message i.send.2],
        ∃ m ∈ message :: rest, ∃ reached, d = .silenced now m reached := by
      intro d mem
      exact ⟨message, List.mem_cons_self, i.send.2, List.mem_singleton.mp mem⟩
    unfold sendAll
    dsimp only
    split
    · obtain ⟨deeds, others, silent⟩ :=
        ih { i.send.1 with deeds := i.send.1.deeds ++ [.silenced now message i.send.2] }
      refine ⟨_, sent.trans others, fun d mem => ?_⟩
      rcases List.mem_append.mp mem with head | tail
      · exact first d head
      · obtain ⟨m, inside, reached, same⟩ := silent d tail
        exact ⟨m, List.mem_cons_of_mem _ inside, reached, same⟩
    · exact ⟨[.silenced now message i.send.2], sent.trans (Sends.quietly _ _ _), first⟩

/-- The messages that silence an instrument: a release of each note that sounds, then all notes
off. -/
def silencing (i : Instrument τ) : List Midi.Message :=
  i.sounding.map (fun note => .noteOff i.channel note Midi.noStrength)
    ++ [.control i.channel Midi.allNotesOff Midi.noStrength]

/-- Silencing an instrument sends no other messages. -/
theorem sends_silence (now : τ) (i : Instrument τ) :
    ∃ deeds, Sends deeds i (silence now i) ∧
      ∀ d ∈ deeds, ∃ message ∈ i.silencing, ∃ reached, d = .silenced now message reached := by
  have quiet : Sends [] i { i with sounding := [] } := Sends.quietly i [] i.notices
  obtain ⟨deeds, sent, silent⟩ := sends_sendAll now i.silencing { i with sounding := [] }
  unfold silence
  dsimp only
  split
  · exact ⟨deeds, quiet.trans sent, silent⟩
  · exact ⟨[], quiet, fun d mem => absurd mem List.not_mem_nil⟩

theorem sounding_send (i : Instrument τ) : i.send.1.sounding = i.sounding := by
  unfold send
  split <;> rfl

theorem sounding_sendAll (now : τ) (messages : List Midi.Message) (i : Instrument τ) :
    (sendAll now i messages).sounding = i.sounding := by
  induction messages generalizing i with
  | nil => rfl
  | cons message rest ih =>
    unfold sendAll
    dsimp only
    split
    · exact (ih _).trans (sounding_send i)
    · exact sounding_send i

/-- Nothing sounds on an instrument that was silenced. -/
theorem sounding_silence (now : τ) (i : Instrument τ) : (silence now i).sounding = [] := by
  unfold silence
  dsimp only
  split
  · exact sounding_sendAll now _ _
  · rfl

theorem isEnded_iff {l : Loop τ} : l.isEnded = true ↔ l.phase = .ended := by
  unfold Loop.isEnded
  cases l.phase <;> simp

/-- The loops of an instrument one of whose loops was replaced. -/
theorem loop?_of_set {i i' : Instrument τ} {n k : Nat} {l l' : Loop τ}
    (loops : i'.loops = i.loops.set n l') (here : i'.loop? k = some l) :
    (k = n ∧ l = l') ∨ (k ≠ n ∧ i.loop? k = some l) := by
  unfold loop? at here
  rw [loops] at here
  by_cases same : k = n
  · subst same
    have inside := (List.getElem?_eq_some_iff.mp here).1
    rw [List.length_set] at inside
    rw [List.getElem?_set_self inside] at here
    exact Or.inl ⟨rfl, (Option.some.inj here).symm⟩
  · rw [List.getElem?_set_ne (Ne.symm same)] at here
    exact Or.inr ⟨same, here⟩

/-- The loops of an instrument to which a loop was added. -/
theorem loop?_of_append {i i' : Instrument τ} {k : Nat} {l new : Loop τ}
    (loops : i'.loops = i.loops ++ [new]) (here : i'.loop? k = some l) :
    i.loop? k = some l ∨ (k = i.loops.length ∧ l = new) := by
  unfold loop? at here ⊢
  rw [loops] at here
  rcases Nat.lt_or_ge k i.loops.length with old | behind
  · rw [List.getElem?_append_left old] at here
    exact Or.inl here
  · have last : k = i.loops.length := by
      have inside := (List.getElem?_eq_some_iff.mp here).1
      rw [List.length_append, List.length_singleton] at inside
      omega
    subst last
    rw [List.getElem?_concat_length] at here
    exact Or.inr ⟨rfl, (Option.some.inj here).symm⟩

end Instrument

variable [Quantity τ]

namespace Instrument

/-! ## Scheduling -/

/-- Puts a row of signals into the queue. -/
def enqueueAll (signals queue : List (Signal τ)) : List (Signal τ) :=
  signals.foldl (fun queue s => enqueue s queue) queue

@[simp] theorem enqueueAll_nil (queue : List (Signal τ)) : enqueueAll [] queue = queue := rfl

theorem enqueueAll_append (s t queue : List (Signal τ)) :
    enqueueAll (s ++ t) queue = enqueueAll t (enqueueAll s queue) :=
  List.foldl_append

theorem perm_enqueueAll (signals queue : List (Signal τ)) :
    (enqueueAll signals queue).Perm (queue ++ signals) := by
  induction signals generalizing queue with
  | nil => rw [enqueueAll_nil, List.append_nil]
  | cons s rest ih =>
    refine (ih (enqueue s queue)).trans ?_
    refine ((perm_enqueue s queue).append_right rest).trans ?_
    exact List.perm_middle.symm

end Instrument

open Instrument

/-- The two signals of a note, for a note number and a strength that fit a message. -/
def Instrument.signalsOf (serial : Nat) (note strength : Midi.Data) (start duration : τ) :
    Signal τ × Signal τ :=
  ({ time := start, isStrike := true, serial, note, strength },
    { time := start + duration, isStrike := false, serial := serial + 1, note
      strength := Midi.noStrength })

/-- The signals that a note puts into the queue, the first with a given serial number.  A note that
is refused or left out puts none. -/
def ScheduledNote.signals (serial : Nat) (n : ScheduledNote τ) : List (Signal τ) :=
  if n.start < zero ∨ n.duration ≤ zero then []
  else
    match Midi.noteOf? n.pitch.number, Midi.attack n.velocity with
    | some note, .ok strength =>
      [(signalsOf serial note strength n.start n.duration).1,
        (signalsOf serial note strength n.start n.duration).2]
    | _, _ => []

/-- A note that is accepted puts a strike and a release into the queue. -/
theorem ScheduledNote.signals_inside {n : ScheduledNote τ} {note strength : Midi.Data}
    (notEarly : ¬ n.start < zero) (notShort : ¬ n.duration ≤ zero)
    (inside : Midi.noteOf? n.pitch.number = some note)
    (strong : Midi.attack n.velocity = .ok strength) (serial : Nat) :
    n.signals serial =
      [{ time := n.start, isStrike := true, serial, note, strength },
        { time := n.start + n.duration, isStrike := false, serial := serial + 1, note
          strength := Midi.noStrength }] := by
  unfold signals
  rw [if_neg (not_or.mpr ⟨notEarly, notShort⟩), inside, strong]
  rfl

/-- A note that is refused for its times puts nothing into the queue. -/
theorem ScheduledNote.signals_outOfTime {n : ScheduledNote τ}
    (outOfTime : n.start < zero ∨ n.duration ≤ zero) (serial : Nat) : n.signals serial = [] :=
  if_pos outOfTime

/-- A note that is refused for its velocity puts nothing into the queue. -/
theorem ScheduledNote.signals_weak {n : ScheduledNote τ} {fault : Fault}
    (refused : Midi.attack n.velocity = .error fault) (serial : Nat) : n.signals serial = [] := by
  unfold signals
  rw [refused]
  split
  · rfl
  · cases Midi.noteOf? n.pitch.number <;> rfl

/-- A note that fits no message is left out. -/
theorem ScheduledNote.signals_outside {n : ScheduledNote τ}
    (outside : Midi.noteOf? n.pitch.number = none) (serial : Nat) : n.signals serial = [] := by
  unfold signals
  rw [outside]
  split
  · rfl
  · rfl

/-- The signals that a row of notes puts into the queue. -/
def signalsFrom : Nat → List (ScheduledNote τ) → List (Signal τ)
  | _, [] => []
  | serial, n :: rest =>
    n.signals serial ++ signalsFrom (serial + (n.signals serial).length) rest

theorem signalsFrom_append (serial : Nat) (s t : List (ScheduledNote τ)) :
    signalsFrom serial (s ++ t) =
      signalsFrom serial s ++ signalsFrom (serial + (signalsFrom serial s).length) t := by
  induction s generalizing serial with
  | nil => rfl
  | cons n rest ih =>
    rw [List.cons_append, signalsFrom, signalsFrom, ih, List.append_assoc, List.length_append,
      Nat.add_assoc]

/-- The notes that are not refused for their times or their velocity, though they may be left out,
or refused for a pitch that cannot be written. -/
structure ScheduledNote.IsAccepted (n : ScheduledNote τ) : Prop where
  notEarly : ¬ n.start < zero
  notShort : ¬ n.duration ≤ zero
  strong : ∃ strength, Midi.attack n.velocity = .ok strength

/-- The notes that are not refused at all. -/
structure ScheduledNote.IsTaken (n : ScheduledNote τ) : Prop extends n.IsAccepted where
  written : n.pitch.IsWritten

/-- What scheduling a note may come to, how many serial numbers it uses up, and what it reports. -/
inductive ScheduledNote.Scheduling (n : ScheduledNote τ) :
    Except Fault Unit → Nat → List Notice → Prop where
  /-- Its start or its length is refused. -/
  | refused (fault : Fault) (outOfTime : n.start < zero ∨ n.duration ≤ zero) :
    Scheduling n (.error fault) 0 []
  /-- It is left out, and refused if its pitch cannot be written. -/
  | leftOut (inTime : ¬ (n.start < zero ∨ n.duration ≤ zero))
    (outside : Midi.noteOf? n.pitch.number = none) :
    Scheduling n (n.pitch.spelling.map fun _ => ()) 0
      (n.pitch.spelling.toOption.map Work.leftOutNotice).toList
  /-- Its velocity is refused. -/
  | weak {note : Midi.Data} (fault : Fault) (inTime : ¬ (n.start < zero ∨ n.duration ≤ zero))
    (inside : Midi.noteOf? n.pitch.number = some note)
    (refused : Midi.attack n.velocity = .error fault) : Scheduling n (.error fault) 1 []
  /-- Its signals are put into the queue, and it is refused if its pitch cannot be written. -/
  | queued {note strength : Midi.Data} (inTime : ¬ (n.start < zero ∨ n.duration ≤ zero))
    (inside : Midi.noteOf? n.pitch.number = some note)
    (strong : Midi.attack n.velocity = .ok strength) :
    Scheduling n (n.pitch.spelling.map fun _ => ()) 2
      (n.pitch.spelling.toOption.map (Work.queuedNotice n)).toList

/-- The serial numbers that are used up are enough for the signals, and no more than that if the
note gets through. -/
theorem ScheduledNote.Scheduling.length_signals {n : ScheduledNote τ} {outcome : Except Fault Unit}
    {used : Nat} {told : List Notice} (scheduling : n.Scheduling outcome used told)
    (serial : Nat) :
    (n.signals serial).length ≤ used ∧ (outcome = .ok () → (n.signals serial).length = used) := by
  cases scheduling with
  | refused fault outOfTime =>
    rw [n.signals_outOfTime outOfTime]
    exact ⟨Nat.le_refl 0, fun _ => rfl⟩
  | leftOut inTime outside =>
    rw [n.signals_outside outside]
    exact ⟨Nat.le_refl 0, fun _ => rfl⟩
  | weak fault inTime inside refused =>
    rw [n.signals_weak refused]
    exact ⟨Nat.zero_le 1, nofun⟩
  | queued inTime inside strong =>
    rw [n.signals_inside (not_or.mp inTime).1 (not_or.mp inTime).2 inside strong]
    exact ⟨Nat.le_refl 2, fun _ => rfl⟩

namespace Instrument

/-- The instrument behind a note. -/
def taking (i : Instrument τ) (n : ScheduledNote τ) (used : Nat) (told : List Notice) :
    Instrument τ :=
  { i with
    queue := enqueueAll (n.signals i.counter) i.queue
    counter := i.counter + used
    notices := i.notices ++ told }

/-- A note without signals leaves the instrument as it was, but for serial numbers and reports. -/
theorem taking_of_nil {n : ScheduledNote τ} {i : Instrument τ} (nothing : n.signals i.counter = [])
    (used : Nat) (told : List Notice) :
    i.taking n used told =
      { i with counter := i.counter + used, notices := i.notices ++ told } := by
  unfold taking
  rw [nothing]
  rfl

omit [Quantity τ] in
/-- A pitch is reported if it can be written. -/
theorem Work.on_tell (p : Pitch) (notice : String → Notice) (i : Instrument τ) :
    (Work.tell p notice).on i =
      (p.spelling.map fun _ => (), i.report (p.spelling.toOption.map notice).toList) := by
  unfold Work.tell report
  cases p.spelling with
  | ok name => rfl
  | error fault =>
    rw [show i.notices ++ (Option.map notice (Except.toOption (.error fault))).toList = i.notices
      from List.append_nil _]
    rfl

/-- **What scheduling a note comes to is up to the note**, whatever the instrument was before. -/
theorem exists_scheduling (n : ScheduledNote τ) :
    ∃ outcome used told, n.Scheduling outcome used told ∧
      ∀ i, (Work.schedule n).on i = (outcome, i.taking n used told) := by
  unfold Work.schedule
  by_cases early : n.start < zero
  · refine ⟨_, _, _, .refused .startNegative (Or.inl early), fun i => ?_⟩
    rw [if_pos early, taking_of_nil (n.signals_outOfTime (Or.inl early) _), List.append_nil]
    rfl
  by_cases short : n.duration ≤ zero
  · refine ⟨_, _, _, .refused .lengthNotPositive (Or.inr short), fun i => ?_⟩
    rw [if_neg early, if_pos short, taking_of_nil (n.signals_outOfTime (Or.inr short) _),
      List.append_nil]
    rfl
  have inTime : ¬ (n.start < zero ∨ n.duration ≤ zero) := not_or.mpr ⟨early, short⟩
  rw [if_neg early, if_neg short]
  cases inside : Midi.noteOf? n.pitch.number with
  | none =>
    refine ⟨_, _, _, .leftOut inTime inside, fun i => ?_⟩
    rw [taking_of_nil (n.signals_outside inside _)]
    exact Work.on_tell n.pitch Work.leftOutNotice i
  | some note =>
    cases strong : Midi.attack n.velocity with
    | error fault =>
      refine ⟨_, _, _, .weak fault inTime inside strong, fun i => ?_⟩
      rw [taking_of_nil (n.signals_weak strong _), List.append_nil]
      rfl
    | ok strength =>
      refine ⟨_, _, _, .queued inTime inside strong, fun i => ?_⟩
      have told := Work.on_tell n.pitch (Work.queuedNotice n) { i with
        queue := enqueueAll (n.signals i.counter) i.queue
        counter := i.counter + 2 }
      -- Whatever the spelling is: left in place, it would be computed when the two are compared.
      unfold taking
      unfold Work.tell at told ⊢
      rw [n.signals_inside early short inside strong] at told ⊢
      generalize n.pitch.spelling = spelled at told ⊢
      exact told

/-- Between two states some signals were put into the queue, and besides that only the reports may
have changed; more serial numbers may have been used up. -/
structure Fills (signals : List (Signal τ)) (i i' : Instrument τ) : Prop where
  channel : i'.channel = i.channel
  output : i'.output = i.output
  queue : i'.queue = enqueueAll signals i.queue
  counter : i.counter + signals.length ≤ i'.counter
  loops : i'.loops = i.loops
  current : i'.current = i.current
  startTime : i'.startTime = i.startTime
  sounding : i'.sounding = i.sounding
  deeds : i'.deeds = i.deeds

theorem Fills.trans {signals signals' : List (Signal τ)} {i i' i'' : Instrument τ}
    (h : Fills signals i i') (h' : Fills signals' i' i'') : Fills (signals ++ signals') i i'' where
  channel := h'.channel.trans h.channel
  output := h'.output.trans h.output
  queue := by rw [h'.queue, h.queue, enqueueAll_append]
  counter := by
    have first := h.counter
    have second := h'.counter
    rw [List.length_append]
    omega
  loops := h'.loops.trans h.loops
  current := h'.current.trans h.current
  startTime := h'.startTime.trans h.startTime
  sounding := h'.sounding.trans h.sounding
  deeds := h'.deeds.trans h.deeds

/-- **Scheduling a note adds its signals to the queue**, whether or not it is refused. -/
theorem fills_on (n : ScheduledNote τ) (i : Instrument τ) :
    Fills (n.signals i.counter) i ((Work.schedule n).on i).2 := by
  obtain ⟨outcome, used, told, scheduling, ran⟩ := exists_scheduling n
  rw [ran i]
  obtain ⟨enough, -⟩ := scheduling.length_signals i.counter
  exact ⟨rfl, rfl, rfl, Nat.add_le_add_left enough _, rfl, rfl, rfl, rfl, rfl⟩

/-! ### Notes that get through -/

/-- A note that gets through. -/
theorem schedule_eq_ok_iff {i i' : Instrument τ} {n : ScheduledNote τ} :
    i.schedule n = .ok i' ↔ (Work.schedule n).on i = (.ok (), i') := by
  unfold schedule
  cases (Work.schedule n).on i with
  | mk outcome after =>
    cases outcome with
    | error fault => simp [Except.map]
    | ok done => simp [Except.map]

/-- A note that is refused. -/
theorem schedule_eq_error_iff {i : Instrument τ} {n : ScheduledNote τ} {fault : Fault} :
    i.schedule n = .error fault ↔ ((Work.schedule n).on i).1 = .error fault := by
  unfold schedule
  cases (Work.schedule n).on i with
  | mk outcome after =>
    cases outcome with
    | error fault => simp [Except.map]
    | ok done => simp [Except.map]

/-- A note that gets through adds its signals to the queue, and uses no other serial numbers. -/
theorem fills_schedule {i i' : Instrument τ} {n : ScheduledNote τ}
    (scheduled : i.schedule n = .ok i') :
    Fills (n.signals i.counter) i i' ∧ i'.counter = i.counter + (n.signals i.counter).length := by
  have through := schedule_eq_ok_iff.mp scheduled
  have fills := fills_on n i
  obtain ⟨outcome, used, told, scheduling, ran⟩ := exists_scheduling n
  rw [through] at fills
  rw [ran i] at through
  obtain ⟨done, rfl⟩ := Prod.mk.inj through
  rw [(scheduling.length_signals i.counter).2 done]
  exact ⟨fills, rfl⟩

/-- The pitch of a note that gets through was written. -/
theorem isWritten_of_schedule {i i' : Instrument τ} {n : ScheduledNote τ}
    (scheduled : i.schedule n = .ok i') : n.pitch.IsWritten := by
  have through := schedule_eq_ok_iff.mp scheduled
  obtain ⟨outcome, used, told, scheduling, ran⟩ := exists_scheduling n
  obtain ⟨came, -⟩ := Prod.mk.inj ((ran i).symm.trans through)
  refine Decidable.byContradiction fun tooLong => ?_
  cases scheduling with
  | refused | weak => cases came
  | leftOut | queued =>
    rw [Pitch.spelling_of_not_isWritten tooLong] at came
    cases came

/-- An accepted note gets through if its pitch can be written. -/
theorem outcome_of_isAccepted {n : ScheduledNote τ} (accepted : n.IsAccepted)
    {outcome : Except Fault Unit} {used : Nat} {told : List Notice}
    (scheduling : n.Scheduling outcome used told) :
    outcome = (n.pitch.spelling.map fun _ => ()) ∧
      ∀ note, Midi.noteOf? n.pitch.number = some note → used = 2 ∧
        told = (n.pitch.spelling.toOption.map (Work.queuedNotice n)).toList := by
  cases scheduling with
  | refused fault outOfTime =>
    exact absurd outOfTime (not_or.mpr ⟨accepted.notEarly, accepted.notShort⟩)
  | weak fault _ _ refused =>
    obtain ⟨strength, strong⟩ := accepted.strong
    exact nomatch refused.symm.trans strong
  | leftOut _ outside => exact ⟨rfl, fun note inside => nomatch outside.symm.trans inside⟩
  | queued => exact ⟨rfl, fun note _ => ⟨rfl, rfl⟩⟩

theorem schedule_of_isTaken {n : ScheduledNote τ} (taken : n.IsTaken) (i : Instrument τ) :
    ∃ i', i.schedule n = .ok i' := by
  obtain ⟨outcome, used, told, scheduling, ran⟩ := exists_scheduling n
  obtain ⟨came, -⟩ := outcome_of_isAccepted taken.toIsAccepted scheduling
  rw [Pitch.spelling_of_isWritten taken.written] at came
  exact ⟨_, schedule_eq_ok_iff.mpr ((ran i).trans (congrArg (·, _) came))⟩

/-- A note that gets through and fits a message is queued, and reported. -/
theorem schedule_inside {n : ScheduledNote τ} (taken : n.IsTaken) {note : Midi.Data}
    (inside : Midi.noteOf? n.pitch.number = some note) (i : Instrument τ) :
    i.schedule n = .ok (i.taking n 2 [Work.queuedNotice n n.pitch.name]) := by
  obtain ⟨outcome, used, told, scheduling, ran⟩ := exists_scheduling n
  obtain ⟨came, reported⟩ := outcome_of_isAccepted taken.toIsAccepted scheduling
  obtain ⟨two, lines⟩ := reported note inside
  rw [Pitch.spelling_of_isWritten taken.written] at came lines
  rw [came, two, lines] at ran
  exact schedule_eq_ok_iff.mpr (ran i)

/-- Puts a row of notes into the queue, up to the first that is refused. -/
def scheduleAll (i : Instrument τ) (notes : List (ScheduledNote τ)) :
    Except Fault (Instrument τ) :=
  notes.foldlM schedule i

/-- Scheduling a row of notes adds their signals to the queue. -/
theorem fills_scheduleAll {i i' : Instrument τ} {notes : List (ScheduledNote τ)}
    (scheduled : i.scheduleAll notes = .ok i') :
    Fills (signalsFrom i.counter notes) i i' ∧
      i'.counter = i.counter + (signalsFrom i.counter notes).length := by
  induction notes generalizing i with
  | nil =>
    obtain rfl := Except.ok.inj scheduled
    exact ⟨⟨rfl, rfl, rfl, Nat.le_refl _, rfl, rfl, rfl, rfl, rfl⟩, rfl⟩
  | cons n rest ih =>
    unfold scheduleAll at scheduled
    rw [List.foldlM_cons] at scheduled
    cases first : i.schedule n with
    | error fault =>
      rw [first] at scheduled
      cases scheduled
    | ok middle =>
      rw [first] at scheduled
      obtain ⟨one, counted⟩ := fills_schedule first
      obtain ⟨others, counted'⟩ := ih scheduled
      rw [counted] at others counted'
      have counter : i'.counter = i.counter + (signalsFrom i.counter (n :: rest)).length := by
        rw [counted', signalsFrom, List.length_append, Nat.add_assoc]
      exact ⟨one.trans others, counter⟩

theorem isWritten_of_scheduleAll {i i' : Instrument τ} {notes : List (ScheduledNote τ)}
    (scheduled : i.scheduleAll notes = .ok i') : ∀ n ∈ notes, n.pitch.IsWritten := by
  induction notes generalizing i with
  | nil => exact fun n mem => absurd mem List.not_mem_nil
  | cons n rest ih =>
    unfold scheduleAll at scheduled
    rw [List.foldlM_cons] at scheduled
    cases first : i.schedule n with
    | error fault =>
      rw [first] at scheduled
      cases scheduled
    | ok middle =>
      rw [first] at scheduled
      exact List.forall_mem_cons.mpr ⟨isWritten_of_schedule first, ih scheduled⟩

theorem scheduleAll_of_isTaken {notes : List (ScheduledNote τ)} (taken : ∀ n ∈ notes, n.IsTaken)
    (i : Instrument τ) : ∃ i', i.scheduleAll notes = .ok i' := by
  induction notes generalizing i with
  | nil => exact ⟨i, rfl⟩
  | cons n rest ih =>
    obtain ⟨first, others⟩ := List.forall_mem_cons.mp taken
    obtain ⟨middle, scheduled⟩ := schedule_of_isTaken first i
    obtain ⟨i', scheduled'⟩ := ih others middle
    refine ⟨i', ?_⟩
    unfold scheduleAll
    rw [List.foldlM_cons, scheduled]
    exact scheduled'

/-! ## Clearing and playing -/

/-- Clearing empties the queue and silences the instrument. -/
theorem sends_clear (now : τ) (i : Instrument τ) :
    ∃ deeds,
      Sends deeds { i with running := false, queue := [], counter := 0, startTime := zero }
        (i.clear now) ∧
      ∀ d ∈ deeds, ∃ message ∈ i.silencing, ∃ reached, d = .silenced now message reached :=
  sends_silence now { i with running := false, queue := [], counter := 0, startTime := zero }

/-- A row of notes that get through is all that is queued once the instrument was cleared. -/
theorem exists_filled {notes : List (ScheduledNote τ)} (taken : ∀ n ∈ notes, n.IsTaken)
    (now : τ) (i : Instrument τ) :
    ∃ filled, (i.clear now).scheduleAll notes = .ok filled ∧
      Fills (signalsFrom 0 notes) (i.clear now) filled ∧
      filled.queue = enqueueAll (signalsFrom 0 notes) [] := by
  obtain ⟨deeds, sent, -⟩ := sends_clear now i
  have counter : (i.clear now).counter = 0 := sent.counter
  have queue : (i.clear now).queue = [] := sent.queue
  obtain ⟨filled, scheduled⟩ := scheduleAll_of_isTaken taken (i.clear now)
  obtain ⟨fills, -⟩ := fills_scheduleAll scheduled
  rw [counter] at fills
  refine ⟨filled, scheduled, fills, ?_⟩
  rw [fills.queue, queue]

/-- A loop that has ended has nothing to do any more. -/
theorem not_isReady_of_isEnded {l : Loop τ} (ended : l.isEnded = true) (now : τ) :
    l.isReady now = false := by
  unfold Loop.isReady
  rw [isEnded_iff.mp ended]

/-- A loop that goes to sleep has not ended. -/
theorem sleepFor_ne_ended (watchFrom : Option τ) (now target : τ) :
    sleepFor watchFrom now target ≠ .ended := by
  unfold sleepFor
  cases watchFrom with
  | none => nofun
  | some margin =>
    dsimp only
    split
    · nofun
    · nofun

/-- A cancelled loop does nothing but end. -/
theorem stepLoop_cancelled {i : Instrument τ} {n : Nat} {l : Loop τ} (here : i.loop? n = some l)
    (cancelled : l.cancelled = true) (now : τ) :
    i.stepLoop now n = (i.setLoop n { l with phase := .ended }, now) := by
  unfold stepLoop
  rw [here]
  simp only [cancelled, if_true]

/-- A live loop plays the signals whose time has come, and ends exactly if none is left. -/
theorem stepLoop_live {i : Instrument τ} {n : Nat} {l : Loop τ} (here : i.loop? n = some l)
    (live : l.cancelled = false) (now : τ) :
    ∃ phase deeds,
      Sends deeds
        (setLoop { i with queue := i.queue.dropWhile (i.isDue (actTime now l)) } n
          { phase := phase, cancelled := false })
        (i.stepLoop now n).1 ∧
      PlayedAt (actTime now l) (i.queue.takeWhile (i.isDue (actTime now l))) deeds ∧
      (phase = .ended ↔ i.queue.dropWhile (i.isDue (actTime now l)) = []) := by
  obtain ⟨deeds, sent, played⟩ :=
    sends_foldl_perform (actTime now l) (i.queue.takeWhile (i.isDue (actTime now l)))
      { i with queue := i.queue.dropWhile (i.isDue (actTime now l)) }
  unfold stepLoop
  rw [here]
  simp only [live, Bool.false_eq_true, if_false]
  change Sends deeds _ (playDue (actTime now l) i) at sent
  have left : (playDue (actTime now l) i).queue = i.queue.dropWhile (i.isDue (actTime now l)) :=
    sent.queue
  rw [left]
  cases rest : i.queue.dropWhile (i.isDue (actTime now l)) with
  | nil =>
    rw [rest] at sent
    exact ⟨.ended, deeds, sent.setLoop _ _ _ _, played, by simp⟩
  | cons next others =>
    rw [rest] at sent
    exact ⟨sleepFor (playDue (actTime now l) i).watchFrom (actTime now l)
      ((playDue (actTime now l) i).startTime + next.time), deeds, sent.setLoop _ _ _ _, played,
      by simp [sleepFor_ne_ended]⟩

/-- A live loop acts when it is woken, or when it has watched the clock. -/
theorem stepLoop_time {i : Instrument τ} {n : Nat} {l : Loop τ} (here : i.loop? n = some l)
    (live : l.cancelled = false) (now : τ) : (i.stepLoop now n).2 = actTime now l := by
  unfold stepLoop
  rw [here]
  simp only [live, Bool.false_eq_true, if_false]
  split <;> rfl

end Instrument

/-! ## An instrument to play on -/

/-- An instrument that was just opened on an output that loses nothing. -/
def justOpened : Instrument Rat :=
  ofSelection { attempted := some "Synth", opened := some "Synth", printed := "", notices := [] }
    .null Midi.firstChannel none fun _ => true

theorem isNew_justOpened : justOpened.IsNew := ⟨⟨rfl, rfl, rfl⟩, rfl, rfl⟩

theorem carriesAll_justOpened : justOpened.CarriesAll := ⟨_, rfl, fun _ => rfl⟩

end Keysong
