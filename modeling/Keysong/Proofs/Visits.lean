import Keysong.Proofs.Course
import Keysong.Proofs.Retiring
import Keysong.Proofs.Sessions

/-!
# One visit after the other

Somebody comes to an instrument again and again, to play or to stop, and comes only when the last
visit is over.  Nobody else calls, but the loops of the instrument go on between the visits and amid
them.  What is left when a visit is over does not depend on what was there before: the notes of the
last visit, or nothing at all.

## Main Definitions

* `Instrument.Plays` — the signals of some notes are queued or were sent, in order
* `Serving` — what an instrument has of a request, by where the caller stands
* `Stage.Hosts` — a stage whose last visit was for some request
* `Stage.IsAtRest` — nothing is queued, nothing sounds and nothing can change any more
* `Stage.PlaysOnly` — a stage on which nothing but some notes is played

## Main Statements

* `serving_act`, `serving_steps` — an action of the caller and a step of a loop go on serving
* `hosts_turn`, `hosts_ask` — a turn keeps a stage a host, and so does a new visit
* `isAtRest_of_hosts`, `playsOnly_of_hosts` — what is left when a visit is over

### Why nothing is left of the visit before

A visit waits for the loop that it has cancelled before it clears the queue.  Between the clearing
and the launch no loop counts, and a loop that does not count plays nothing.  So the new loop finds
the signals of this visit and no others.
-/

namespace Keysong

open Instrument

variable {τ : Type}

/-! ## What an instrument has of a request -/

/-- Whether a request is one to stop. -/
def Request.isStop : Request τ → Bool
  | .play _ _ => false
  | .stop => true

variable [Quantity τ]

/-- The signals of some notes were sent or are queued, in order, and the notes that sound are those
that were struck by what was sent. -/
structure Instrument.Plays (notes : List (ScheduledNote τ)) (sent : List (Signal τ))
    (i : Instrument τ) : Prop where
  queue : sent ++ i.queue = enqueueAll (signalsFrom 0 notes) []
  sounding : i.sounding = sent.foldl soundingAfter []

/-- What an instrument has of a request: once it is cleared, the notes that were put into the queue
so far; from the launch on, a part of them may have been sent. -/
def Serving (r : Request τ) (i : Instrument τ) : Place τ → Prop
  | .filling notes => i.Plays notes [] ∧ i.counter = (signalsFrom 0 notes).length
  | .launching => (∃ notes, notes <+: r.notes ∧ i.Plays notes []) ∧ r.isStop = false
  | .leaving => (∃ notes sent, notes <+: r.notes ∧ i.Plays notes sent) ∧ r.isStop = false
  | .gone => (∃ notes sent, notes <+: r.notes ∧ i.Plays notes sent) ∧
    (r.isStop = true → i.current = none)
  | _ => True

section Acting

variable {r : Request τ} {s : Stage τ} {a b : Place τ} {action : Action τ} {rest : Program τ}

omit [Quantity τ] in
/-- Who stops launches nothing. -/
theorem isStop_of_filled {notes : List (ScheduledNote τ)}
    (stands : Stands r (.filling notes) (.cancel :: rest)) : r.isStop = false := by
  generalize left : Action.cancel :: rest = program at stands
  cases stands with
  | @filling _ more all =>
    cases r with
    | play notes notice => rfl
    | stop =>
      cases more with
      | nil => cases left
      | cons note more => cases left

theorem plays_clear (now : τ) (i : Instrument τ) :
    (i.clear now).Plays [] [] ∧ (i.clear now).counter = (signalsFrom (τ := τ) 0 []).length := by
  obtain ⟨deeds, sent, -⟩ := sends_clear now i
  exact ⟨⟨sent.queue, sounding_silence now _⟩, sent.counter⟩

/-- The signals of one more note, if every serial number up to now is one of a signal. -/
theorem signalsFrom_snoc {i : Instrument τ} {notes : List (ScheduledNote τ)}
    (counter : i.counter = (signalsFrom 0 notes).length) (note : ScheduledNote τ) :
    signalsFrom 0 (notes ++ [note]) = signalsFrom 0 notes ++ note.signals i.counter := by
  rw [signalsFrom_append, Nat.zero_add, counter, signalsFrom, signalsFrom, List.append_nil]

/-- Scheduling a note adds its signals to those of the notes before it, whether or not it is
refused. -/
theorem Instrument.Plays.fill {i i' : Instrument τ} {notes : List (ScheduledNote τ)}
    {note : ScheduledNote τ} (plays : i.Plays notes [])
    (counter : i.counter = (signalsFrom 0 notes).length)
    (fills : Fills (note.signals i.counter) i i') : i'.Plays (notes ++ [note]) [] where
  queue := by
    have queue : i.queue = enqueueAll (signalsFrom 0 notes) [] := plays.queue
    rw [signalsFrom_snoc counter, enqueueAll_append, ← queue]
    exact fills.queue
  sounding := by
    rw [fills.sounding]
    exact plays.sounding

/-- What neither clears, schedules nor closes changes nothing of what is played. -/
theorem Instrument.Plays.act {notes : List (ScheduledNote τ)} {sent : List (Signal τ)}
    (plays : s.instrument.Plays notes sent) (action : Action τ) (notClear : action ≠ .clear)
    (notSchedule : ∀ note, action ≠ .schedule note) (notClose : action ≠ .closeOutput) (n : Nat) :
    (s.act n action).1.instrument.Plays notes sent where
  queue := by
    rw [(Stage.queue_act notClear notSchedule n s).1]
    exact plays.queue
  sounding := by
    rw [(Stage.soundsAs_act notClear notClose n s).sounding]
    exact plays.sounding

/-- **An action of the caller goes on serving its request.** -/
theorem serving_act (n : Nat) (stands : Stands r a (action :: rest)) (goes : Goes a action b)
    (quiet : a.isQuiet = true → s.instrument.current = none)
    (filled : ∀ note, action = .schedule note →
      (b = .gone ↔ ∃ fault, s.instrument.schedule note = .error fault))
    (serving : Serving r s.instrument a) : Serving r (s.act n action).1.instrument b := by
  cases goes with
  | enter | begin | beginIdle | join | settle => exact trivial
  | clear => exact plays_clear s.now s.instrument
  | fill notes note =>
    obtain ⟨plays, counter⟩ := serving
    cases scheduled : s.instrument.schedule note with
    | ok i =>
      rw [Stage.act_schedule_ok scheduled]
      obtain ⟨fills, counted⟩ := fills_schedule scheduled
      refine ⟨plays.fill counter fills, counted.trans ?_⟩
      rw [signalsFrom_snoc counter, List.length_append, ← counter]
    | error fault => exact nomatch (filled note rfl).mpr ⟨fault, scheduled⟩
  | giveUp notes note =>
    obtain ⟨plays, counter⟩ := serving
    have fills := fills_on note s.instrument
    rw [← Stage.instrument_act_schedule n] at fills
    refine ⟨⟨notes ++ [note], [], stands.prefix_of_schedule, plays.fill counter fills⟩,
      fun _ => ?_⟩
    rw [fills.current]
    exact quiet rfl
  | filled notes =>
    exact ⟨⟨notes, stands.prefix_of_filling, serving.1.act .cancel nofun nofun nofun n⟩,
      isStop_of_filled stands⟩
  | stopped notes =>
    refine ⟨⟨notes, [], stands.prefix_of_filling, serving.1.act .release nofun nofun nofun n⟩,
      fun _ => ?_⟩
    show (s.unlock n).instrument.current = none
    rw [Stage.instrument_unlock]
    exact quiet rfl
  | launch =>
    obtain ⟨⟨notes, part, plays⟩, plain⟩ := serving
    exact ⟨⟨notes, [], part, plays.act .launch nofun nofun nofun n⟩, plain⟩
  | leave =>
    obtain ⟨⟨notes, sent, part, plays⟩, plain⟩ := serving
    refine ⟨⟨notes, sent, part, plays.act .release nofun nofun nofun n⟩, fun stop => ?_⟩
    rw [plain] at stop
    cases stop
  | report notice =>
    obtain ⟨⟨notes, sent, part, plays⟩, still⟩ := serving
    exact ⟨⟨notes, sent, part, plays.act (.report notice) nofun nofun nofun n⟩, still⟩

end Acting

/-! ## Steps of loops -/

/-- After a step those notes sound that were struck by what was played. -/
theorem sounding_of_steps {s s' : Stage τ} {n : Nat} {l : Loop τ} {played : List (Signal τ)}
    (gone : s.go? (.loop n) = some s') (steps : Stage.Steps n l played s s') :
    s'.instrument.sounding = played.foldl soundingAfter s.instrument.sounding := by
  obtain ⟨l', here, -, rfl⟩ := Stage.go?_loop gone
  obtain rfl := Option.some.inj (here.symm.trans steps.here)
  cases cancelled : l'.cancelled with
  | true =>
    rw [steps.silent cancelled]
    show (s.instrument.stepLoop s.now n).1.sounding = s.instrument.sounding
    rw [stepLoop_cancelled here cancelled]
    rfl
  | false =>
    obtain ⟨phase, deeds, sent, -⟩ := stepLoop_live here cancelled s.now
    have queue : (s.instrument.stepLoop s.now n).1.queue = _ := sent.queue
    have same : played = s.instrument.queue.takeWhile (s.instrument.isDue (actTime s.now l')) := by
      have cut := steps.queue
      dsimp only at cut
      rw [queue] at cut
      exact List.append_cancel_right (cut.symm.trans List.takeWhile_append_dropWhile.symm)
    have sounding : (playDue (actTime s.now l') s.instrument).sounding =
        played.foldl soundingAfter s.instrument.sounding := by
      rw [same]
      exact congrArg Course.sounding (course_foldl_perform _ _ _)
    rw [← sounding]
    show (s.instrument.stepLoop s.now n).1.sounding = _
    unfold stepLoop
    rw [here]
    simp only [cancelled, Bool.false_eq_true, if_false]
    split
    · rfl
    · rfl

/-- What was played is sent from then on. -/
theorem Instrument.Plays.steps {s s' : Stage τ} {n : Nat} {l : Loop τ}
    {notes : List (ScheduledNote τ)} {sent played : List (Signal τ)}
    (plays : s.instrument.Plays notes sent) (gone : s.go? (.loop n) = some s')
    (steps : Stage.Steps n l played s s') : s'.instrument.Plays notes (sent ++ played) where
  queue := by
    rw [List.append_assoc, ← steps.queue]
    exact plays.queue
  sounding := by
    rw [sounding_of_steps gone steps, plays.sounding, List.foldl_append]

/-- **A step of a loop goes on serving the request**: until the launch it plays nothing. -/
theorem serving_steps {r : Request τ} {s s' : Stage τ} {n k : Nat} {place : Nat → Place τ}
    (looped : Looped s.instrument place) (gone : s.go? (.loop n) = some s')
    (serving : Serving r s.instrument (place k)) : Serving r s'.instrument (place k) := by
  obtain ⟨l, played, steps⟩ := Stage.exists_steps gone
  have silent : (place k).isQuiet = true → played = [] := by
    intro quiet
    by_contra loud
    cases (looped.quiet k quiet).symm.trans (current_of_played looped steps loud)
  cases here : place k with
  | waiting | entered | resetting | clearing => exact trivial
  | filling notes =>
    rw [here] at serving silent
    obtain ⟨plays, counter⟩ := serving
    have after := plays.steps gone steps
    rw [silent rfl] at after
    exact ⟨after, steps.counter.trans counter⟩
  | launching =>
    rw [here] at serving silent
    obtain ⟨⟨notes, part, plays⟩, plain⟩ := serving
    have after := plays.steps gone steps
    rw [silent rfl] at after
    exact ⟨⟨notes, part, after⟩, plain⟩
  | leaving =>
    rw [here] at serving
    obtain ⟨⟨notes, sent, part, plays⟩, plain⟩ := serving
    exact ⟨⟨notes, sent ++ played, part, plays.steps gone steps⟩, plain⟩
  | gone =>
    rw [here] at serving
    obtain ⟨⟨notes, sent, part, plays⟩, still⟩ := serving
    refine ⟨⟨notes, sent ++ played, part, plays.steps gone steps⟩, fun stop => ?_⟩
    rw [steps.current]
    exact still stop

/-! ## Hosts -/

/-- The only caller stands somewhere in the session of a request, and is served. -/
def Attends (r : Request τ) : Stage.Condition τ := fun _ i holder todo =>
  (∀ n, n ≠ 0 → todo n = []) ∧
    ∃ place, Locked (fun _ => r) holder todo place ∧ Looped i place ∧ Serving r i (place 0)

theorem attends_keeps (r : Request τ) :
    Stage.Keeps (Attends r) fun _ => Attends r where
  begins _ holds := holds
  rests holds _ := holds
  acts := by
    rintro h s todo n action rest ⟨alone, place, lock, looped, serving⟩ - here free
    obtain rfl : n = 0 := by
      by_contra other
      cases (alone n other).symm.trans here
    obtain ⟨b, goes, lock', -, filled⟩ := locked_act lock looped here free
    refine ⟨fun k other => ?_, Function.update place 0 b, lock', looped_act looped lock goes, ?_⟩
    · rw [Function.update_of_ne other]
      exact alone k other
    · rw [Function.update_self]
      exact serving_act 0 (here ▸ lock.stands 0) goes (looped.quiet 0) filled serving
  steps := by
    rintro h s s' n ⟨alone, place, lock, looped, serving⟩ gone
    obtain ⟨l, played, steps⟩ := Stage.exists_steps gone
    rw [steps.holder]
    exact ⟨alone, place, lock, looped_step looped steps, serving_steps looped gone serving⟩

namespace Stage

/-- A stage whose last visit was for some request, which may not be over yet.  If it is `sound`, its
output loses nothing. -/
structure Hosts (sound : Prop) (r : Request τ) (s : Stage τ) : Prop where
  retiring : Retiring [] s.instrument s.holder s.todo
  attends : Attends r [] s.instrument s.holder s.todo
  honest : sound → Honest [] s.instrument s.holder s.todo

/-- Nothing is queued, nothing sounds, all loops have ended, and no turn changes the instrument.  If
it is `sound`, its output loses nothing, and no note was struck last. -/
structure IsAtRest (sound : Prop) (s : Stage τ) : Prop where
  queue : s.instrument.queue = []
  sounding : s.instrument.sounding = []
  released : sound → ∀ note, (Midi.touches note s.instrument.heard).getLast? ≠ some true
  loops : ∀ l ∈ s.instrument.loops, l.isEnded = true
  still : ∀ turns, (s.run turns).instrument = s.instrument

/-- Nothing is played but some notes, as far as they were accepted, and all loops have ended but the
one that counts.  If it is `sound`, what was struck last is one of those notes and sounds. -/
structure PlaysOnly (sound : Prop) (notes : List (ScheduledNote τ)) (s : Stage τ) : Prop where
  plays : ∃ accepted sent, accepted <+: notes ∧ s.instrument.Plays accepted sent
  held : sound → ∀ note, (Midi.touches note s.instrument.heard).getLast? = some true →
    note ∈ s.instrument.sounding
  loops : ∀ k l, s.instrument.loop? k = some l → s.instrument.current ≠ some k → l.isEnded = true

variable {sound : Prop} {r : Request τ} {s s' : Stage τ}

/-- **A turn keeps a stage a host.** -/
theorem hosts_turn {t : Turn τ} (hosts : s.Hosts sound r) (gone : s.turn? t = some s') :
    s'.Hosts sound r where
  retiring := by
    obtain ⟨watched, guarded, -⟩ := turn_keeps retiring_keeps hosts.retiring gone
    exact ⟨watched, guarded, fun m mem => absurd mem List.not_mem_nil⟩
  attends := turn_keeps (attends_keeps r) hosts.attends gone
  honest known := by
    obtain ⟨truthful, watched, whole, -⟩ := turn_keeps honest_keeps (hosts.honest known) gone
    exact ⟨truthful, watched, whole, fun m mem => absurd mem List.not_mem_nil⟩

end Stage

/-! ## Between two visits -/

section Between

variable {sound : Prop} {r : Request τ} {s : Stage τ}

omit [Quantity τ] in
/-- Who has nothing left to do is gone. -/
theorem Stands.eq_gone {a : Place τ} (stands : Stands r a []) : a = .gone := by
  generalize left : ([] : Program τ) = program at stands
  cases stands with
  | gone => rfl
  | waiting =>
    rw [Request.program_eq] at left
    cases left
  | @filling _ more all =>
    cases more with
    | cons note more => cases left
    | nil => cases r <;> cases left
  | _ => cases left

omit [Quantity τ] in
theorem isWhole_filling (r : Request τ) (notes : List (ScheduledNote τ)) :
    IsWhole (r.filling notes) := by
  induction notes with
  | cons note rest ih => exact .plain rfl ih
  | nil =>
    cases r with
    | play notes notice => exact .start (.plain rfl (.plain rfl .nil))
    | stop => exact .plain rfl .nil

omit [Quantity τ] in
theorem isWhole_request (r : Request τ) : IsWhole r.program := by
  rw [Request.program_eq]
  exact .plain rfl (.reset (isWhole_filling r r.notes))

omit [Quantity τ] in
/-- The lock is free when nobody is inside. -/
theorem Locked.holder_eq_none {request : Nat → Request τ} {holder : Option Nat}
    {todo : Nat → Program τ} {place : Nat → Place τ} (lock : Locked request holder todo place)
    (outside : ∀ n, (place n).isInside = false) : holder = none := by
  by_contra held
  obtain ⟨n, held⟩ := Option.ne_none_iff_exists'.mp held
  exact nomatch (outside n).symm.trans ((lock.inside n).mpr held)

omit [Quantity τ] in
/-- Loops for which nobody waits stay watched, whatever others come to do. -/
theorem Watched.of_nil {i : Instrument τ} {todo : Nat → Program τ} (watched : Watched i todo)
    (done : ∀ n, todo n = []) (todo' : Nat → Program τ) : Watched i todo' := by
  intro k l found
  rcases watched k l found with ended | counts | ⟨-, n, rest, waits⟩
  · exact Or.inl ended
  · exact Or.inr (Or.inl counts)
  · cases (done n).symm.trans waits

namespace Stage

omit [Quantity τ] in
theorem todo_eq_nil_of_mem (done : s.isDone = true) {c : Caller τ} (mem : c ∈ s.callers) :
    c.todo = [] :=
  List.isEmpty_iff.mp (List.all_eq_true.mp done c mem)

omit [Quantity τ] in
theorem todo_eq_nil (done : s.isDone = true) (n : Nat) : s.todo n = [] := by
  unfold todo
  cases here : s.callers[n]? with
  | none => rfl
  | some c => exact todo_eq_nil_of_mem done (List.mem_of_getElem? here)

/-- Where nobody has anything left to do, nobody gets anything to do by a turn. -/
theorem isDone_turn {s' : Stage τ} {t : Turn τ} (done : s.isDone = true)
    (gone : s.turn? t = some s') : s'.isDone = true := by
  cases t with
  | clock time =>
    obtain rfl := eq_of_clock gone
    exact done
  | of party =>
    cases party with
    | loop n =>
      obtain ⟨l, -, -, rfl⟩ := go?_loop gone
      exact done
    | caller n =>
      obtain ⟨c, here, rfl⟩ := go?_caller gone
      rw [todo_eq_nil_of_mem done (List.mem_of_getElem? here)]
      show (s.callers.set n ⟨[], c.fault⟩).all (fun c => c.todo.isEmpty) = true
      rw [List.all_eq_true]
      intro c' mem
      rcases List.mem_or_eq_of_mem_set mem with old | rfl
      · exact List.isEmpty_iff.mpr (todo_eq_nil_of_mem done old)
      · rfl

/-- A stage whose caller is asked for something. -/
def asked (s : Stage τ) (r : Request τ) : Stage τ := { s with callers := [⟨r.program, none⟩] }

omit [Quantity τ] in
theorem todo_asked (s : Stage τ) (r : Request τ) :
    (s.asked r).todo = Function.update (fun _ => []) 0 r.program := by
  funext n
  cases n with
  | zero => rfl
  | succ n => rfl

/-- When a visit is over, its caller is gone, and the lock is free. -/
theorem exists_served (hosts : s.Hosts sound r) (done : s.isDone = true) :
    ∃ place, (∀ n, place n = .gone) ∧ s.holder = none ∧ Looped s.instrument place ∧
      Serving r s.instrument .gone := by
  obtain ⟨-, place, lock, looped, serving⟩ := hosts.attends
  have gone : ∀ n, place n = .gone := by
    intro n
    have stands := lock.stands n
    rw [todo_eq_nil done] at stands
    exact stands.eq_gone
  have free : s.holder = none := lock.holder_eq_none fun n => by
    rw [gone n]
    rfl
  rw [gone 0] at serving
  exact ⟨place, gone, free, looped, serving⟩

/-- Who comes next stands before the lock. -/
theorem attends_asked (hosts : s.Hosts sound r) (done : s.isDone = true) (r' : Request τ) :
    Attends r' [] s.instrument s.holder (s.asked r').todo := by
  obtain ⟨place, gone, free, looped, -⟩ := exists_served hosts done
  rw [todo_asked, free]
  refine ⟨fun n other => Function.update_of_ne other _ _, Function.update place 0 .waiting,
    ⟨fun n => ?_, fun n => ?_⟩, ⟨fun n => ?_, looped.others⟩, ?_⟩
  · rcases eq_or_ne n 0 with rfl | other
    · rw [Function.update_self, Function.update_self]
      exact .waiting
    · rw [Function.update_of_ne other, Function.update_of_ne other, gone n]
      exact .gone
  · rcases eq_or_ne n 0 with rfl | other
    · rw [Function.update_self]
      exact ⟨nofun, nofun⟩
    · rw [Function.update_of_ne other, gone n]
      exact ⟨nofun, nofun⟩
  · rcases eq_or_ne n 0 with rfl | other
    · rw [Function.update_self]
      exact nofun
    · rw [Function.update_of_ne other, gone n]
      exact nofun
  · rw [Function.update_self]
    exact trivial

omit [Quantity τ] in
theorem isWhole_asked (r : Request τ) (n : Nat) :
    IsWhole ((s.asked r).todo n) := by
  rw [todo_asked]
  rcases eq_or_ne n 0 with rfl | other
  · rw [Function.update_self]
    exact isWhole_request r
  · rw [Function.update_of_ne other]
    exact .nil

/-- **A stage whose visit is over is a host to the next one.** -/
theorem hosts_ask (hosts : s.Hosts sound r) (done : s.isDone = true) (r' : Request τ) :
    (s.asked r').Hosts sound r' := by
  have watched := hosts.retiring.1.of_nil (todo_eq_nil done) (s.asked r').todo
  have whole := isWhole_asked (s := s) r'
  refine ⟨⟨watched, fun n => isGuarded_of_isWhole (whole n), ?_⟩, attends_asked hosts done r',
    fun known => ⟨(hosts.honest known).1, watched, whole, ?_⟩⟩
  · exact fun m mem => absurd mem List.not_mem_nil
  · exact fun m mem => absurd mem List.not_mem_nil

/-- A new instrument hosts nobody: it is as if somebody had stopped there. -/
theorem hosts_idle {i : Instrument τ} (new : i.IsNew) (now : τ) :
    (idle now i).Hosts i.CarriesAll .stop where
  retiring := by
    refine ⟨fun k l found => ?_, fun n => rfl, fun m mem => absurd mem List.not_mem_nil⟩
    change i.loops[k]? = some l at found
    rw [new.loops] at found
    cases found
  attends := by
    refine ⟨fun _ _ => rfl, fun _ => .gone, ⟨fun n => .gone, fun n => ⟨nofun, nofun⟩⟩,
      ⟨nofun, fun k l found => ?_⟩, ⟨[], [], List.prefix_rfl, new.queue, new.silent⟩,
      fun _ => new.current⟩
    change i.loops[k]? = some l at found
    rw [new.loops] at found
    cases found
  honest carries := by
    refine ⟨new.isTruthful carries, fun k l found => ?_, fun n => .nil,
      fun m mem => absurd mem List.not_mem_nil⟩
    change i.loops[k]? = some l at found
    rw [new.loops] at found
    cases found

/-- When a visit is over, all loops have ended but the one that counts. -/
theorem isEnded_of_hosts (hosts : s.Hosts sound r) (done : s.isDone = true) {k : Nat} {l : Loop τ}
    (found : s.instrument.loop? k = some l) (other : s.instrument.current ≠ some k) :
    l.isEnded = true := by
  rcases hosts.retiring.1 k l found with ended | ⟨-, counts⟩ | ⟨-, n, rest, waits⟩
  · exact ended
  · exact absurd counts other
  · cases (todo_eq_nil done n).symm.trans waits

/-- What was struck last sounds. -/
theorem mem_sounding_of_struck (hosts : s.Hosts sound r) (known : sound) {note : Midi.Data}
    (struck : (Midi.touches note s.instrument.heard).getLast? = some true) :
    note ∈ s.instrument.sounding := by
  obtain ⟨truthful, -⟩ := hosts.honest known
  by_cases closed : s.instrument.output = none
  · exact absurd struck ((truthful.muted closed).released note)
  · exact (truthful.sounds (Option.isSome_iff_ne_none.mpr closed) note).mpr struck

/-- **When a visit is over, nothing is played but the notes that it asked for.** -/
theorem playsOnly_of_hosts (hosts : s.Hosts sound r) (done : s.isDone = true) :
    s.PlaysOnly sound r.notes := by
  obtain ⟨-, -, -, -, ⟨notes, sent, part, plays⟩, -⟩ := exists_served hosts done
  exact ⟨⟨notes, sent, part, plays⟩, fun known note => mem_sounding_of_struck hosts known,
    fun k l => isEnded_of_hosts hosts done⟩

/-- Where nobody has anything left to do and all loops have ended, nothing changes any more. -/
theorem instrument_run_of_ended (done : s.isDone = true)
    (ended : ∀ l ∈ s.instrument.loops, l.isEnded = true) (turns : List (Turn τ)) :
    (s.run turns).instrument = s.instrument := by
  let Same (s' : Stage τ) : Prop := s'.instrument = s.instrument ∧ s'.isDone = true
  have start : Same s := ⟨rfl, done⟩
  refine (run_invariant (P := Same) (fun s' t s'' same gone => ?_) start turns).1
  obtain ⟨instrument, done⟩ := same
  refine ⟨?_, isDone_turn done gone⟩
  rw [← instrument]
  cases t with
  | clock time =>
    obtain rfl := eq_of_clock gone
    rfl
  | of party =>
    cases party with
    | caller n =>
      obtain ⟨c, here, rfl⟩ := go?_caller gone
      rw [todo_eq_nil_of_mem done (List.mem_of_getElem? here)]
      rfl
    | loop n =>
      obtain ⟨l, here, ready, -⟩ := go?_loop gone
      rw [instrument] at here
      rw [not_isReady_of_isEnded (ended l (List.mem_of_getElem? here))] at ready
      cases ready

/-- **When somebody was there to stop, the stage is at rest.** -/
theorem isAtRest_of_hosts (hosts : s.Hosts sound .stop) (done : s.isDone = true) :
    s.IsAtRest sound := by
  obtain ⟨-, -, -, -, ⟨notes, sent, part, plays⟩, still⟩ := exists_served hosts done
  obtain rfl : notes = [] := List.prefix_nil.mp part
  obtain ⟨rfl, queue⟩ := List.append_eq_nil_iff.mp plays.queue
  have ended : ∀ l ∈ s.instrument.loops, l.isEnded = true := by
    intro l mem
    obtain ⟨k, found⟩ := List.mem_iff_getElem?.mp mem
    refine isEnded_of_hosts hosts done (k := k) found ?_
    rw [still rfl]
    nofun
  refine ⟨queue, plays.sounding, fun known note struck => ?_, ended,
    instrument_run_of_ended done ended⟩
  have sounds := mem_sounding_of_struck hosts known struck
  rw [plays.sounding] at sounds
  cases sounds

end Stage

end Between

end Keysong
