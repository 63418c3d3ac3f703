import Keysong.Proofs.Hearing

/-!
# The course of an instrument

An output may be missing, or lose any of the messages that are sent to it.  The course of an
instrument is all that does not depend on its output.  Two instruments of the same course stay so,
whatever is done with both; and if one of their outputs loses nothing, all that reaches the other
one reaches it too, in the same order.

## Main Definitions

* `Instrument.Course` — all about an instrument that does not depend on its output
* `Tries` — two states of an instrument between which some messages were sent, of which any may
  have got lost
* `InStep` — two instruments that differ in their outputs only, one of which loses nothing

## Main Statements

* `course_perform`, `course_silence`, `course_closeOutput` — what operations that send do to the
  course
* `inStep_clear`, `inStep_on`, `inStep_stepLoop` — every operation keeps instruments in step

### Where messages are given up

Playing a signal goes on after a message that got lost.  Silencing does not: it gives up the
messages that are left.  So the messages that reach two outputs are not compared one by one; what is
compared is what each operation tries to send, which is the same on both.
-/

namespace Keysong

open Quantity

variable {τ : Type}

namespace Instrument

/-! ## The course of an instrument -/

/-- All about an instrument that does not depend on its output. -/
structure Course (τ : Type) where
  channel : Midi.Channel
  queue : List (Signal τ)
  counter : Nat
  loops : List (Loop τ)
  current : Option Nat
  startTime : τ
  running : Bool
  sounding : List Midi.Data
  watchFrom : Option τ
  /-- The signals that were taken out of the queue, and when. -/
  taken : List (τ × Signal τ)

/-- The signal that was taken out of the queue, and when. -/
def Deed.taken? : Deed τ → Option (τ × Signal τ)
  | played time s _ => some (time, s)
  | _ => none

/-- The signals that were taken out of the queue, and when. -/
def taken (i : Instrument τ) : List (τ × Signal τ) := i.deeds.filterMap Deed.taken?

/-- The course of an instrument. -/
def course (i : Instrument τ) : Course τ where
  channel := i.channel
  queue := i.queue
  counter := i.counter
  loops := i.loops
  current := i.current
  startTime := i.startTime
  running := i.running
  sounding := i.sounding
  watchFrom := i.watchFrom
  taken := i.taken

theorem filterMap_concat {α β : Type} (f : α → Option β) (row : List α) (last : α) :
    (row ++ [last]).filterMap f = row.filterMap f ++ (f last).toList := by
  rw [List.filterMap_append]
  cases found : f last with
  | none =>
    rw [List.filterMap_cons_none found]
    rfl
  | some b =>
    rw [List.filterMap_cons_some found]
    rfl

/-- Of what is done, only the signals that are taken out belong to the course. -/
theorem course_recorded (i : Instrument τ) (deed : Deed τ) :
    ({ i with deeds := i.deeds ++ [deed] } : Instrument τ).course =
      { i.course with taken := i.taken ++ deed.taken?.toList } :=
  congrArg (fun taken => { i.course with taken := taken }) (filterMap_concat _ i.deeds deed)

/-- What takes no signal out does not belong to the course. -/
theorem course_taken_nil (i : Instrument τ) :
    ({ i.course with taken := i.taken ++ [] } : Course τ) = i.course :=
  congrArg (fun taken => { i.course with taken := taken }) (List.append_nil i.taken)

/-- A message that is sent changes nothing else, whatever becomes of it. -/
theorem course_sent (i : Instrument τ) (deed : Bool → Deed τ) :
    ({ i.send.1 with deeds := i.send.1.deeds ++ [deed i.send.2] } : Instrument τ).course =
      { i.course with taken := i.taken ++ (deed i.send.2).taken?.toList } := by
  unfold send
  cases i.output with
  | none => exact course_recorded i _
  | some output => exact course_recorded i _

/-- Playing a signal takes it out, and its note sounds or does not, whatever becomes of the
message. -/
theorem course_perform (now : τ) (i : Instrument τ) (s : Signal τ) :
    (perform now i s).course = { i.course with
      sounding := soundingAfter i.sounding s
      taken := i.taken ++ [(now, s)] } := by
  have sent := course_sent { i with sounding := soundingAfter i.sounding s } (.played now s)
  unfold perform
  dsimp only
  split
  · exact sent
  · exact sent

/-- Playing a row of signals takes out each of them. -/
theorem course_foldl_perform (now : τ) (signals : List (Signal τ)) (i : Instrument τ) :
    (signals.foldl (perform now) i).course = { i.course with
      sounding := signals.foldl soundingAfter i.sounding
      taken := i.taken ++ signals.map (Prod.mk now) } := by
  induction signals generalizing i with
  | nil =>
    rw [List.map_nil, List.append_nil]
    rfl
  | cons s rest ih =>
    have first := course_perform now i s
    have sounding : (perform now i s).sounding = soundingAfter i.sounding s :=
      congrArg Course.sounding first
    have taken : (perform now i s).taken = i.taken ++ [(now, s)] := congrArg Course.taken first
    rw [List.foldl_cons, ih, first, sounding, taken, List.append_assoc]
    rfl

/-- Messages that silence an instrument change nothing else, however many of them get lost. -/
theorem course_sendAll (now : τ) (messages : List Midi.Message) (i : Instrument τ) :
    (sendAll now i messages).course = i.course := by
  induction messages generalizing i with
  | nil => rfl
  | cons message rest ih =>
    have sent := (course_sent i (.silenced now message)).trans (course_taken_nil i)
    unfold sendAll
    dsimp only
    split
    · exact (ih _).trans sent
    · exact sent

/-- After silencing nothing sounds, whatever became of the messages. -/
theorem course_silence (now : τ) (i : Instrument τ) :
    (silence now i).course = { i.course with sounding := [] } := by
  unfold silence
  dsimp only
  split
  · exact course_sendAll now _ _
  · rfl

theorem course_closeOutput (i : Instrument τ) : i.closeOutput.course = i.course := by
  unfold closeOutput
  cases i.output with
  | none => rfl
  | some output => exact (course_recorded i (.closed output.name)).trans (course_taken_nil i)

/-! ## Messages that may get lost -/

/-- Between two states the output was not closed, and if it is open, some of the messages that were
sent were heard. -/
structure Tries (messages : List Midi.Message) (i i' : Instrument τ) : Prop where
  isOpen : i'.output.isSome = i.output.isSome
  heard : ∃ passed, i'.heard = i.heard ++ passed ∧
    passed.Sublist (if i.output.isSome then messages else [])

namespace Tries

theorem trans {messages others : List Midi.Message} {i i' i'' : Instrument τ}
    (h : Tries messages i i') (h' : Tries others i' i'') : Tries (messages ++ others) i i'' where
  isOpen := h'.isOpen.trans h.isOpen
  heard := by
    obtain ⟨passed, same, sublist⟩ := h.heard
    obtain ⟨passed', same', sublist'⟩ := h'.heard
    refine ⟨passed ++ passed', by rw [same', same, List.append_assoc], ?_⟩
    rw [h.isOpen] at sublist'
    have both := sublist.append sublist'
    split at both
    · rwa [if_pos ‹_›]
    · rwa [if_neg ‹_›]

/-- Whatever leaves the channel, the output and the deeds alone is not heard. -/
theorem quietly {i i' : Instrument τ} (channel : i'.channel = i.channel)
    (output : i'.output = i.output) (deeds : i'.deeds = i.deeds) : Tries [] i i' where
  isOpen := by rw [output]
  heard := by
    refine ⟨[], ?_, List.nil_sublist _⟩
    unfold Instrument.heard
    rw [channel, deeds, List.append_nil]

theorem andQuietly {messages : List Midi.Message} {i i' i'' : Instrument τ}
    (h : Tries messages i i') (channel : i''.channel = i'.channel)
    (output : i''.output = i'.output) (deeds : i''.deeds = i'.deeds) : Tries messages i i'' := by
  have all := h.trans (quietly channel output deeds)
  rwa [List.append_nil] at all

/-- Messages that were given up are messages that got lost. -/
theorem more {messages : List Midi.Message} {i i' : Instrument τ} (h : Tries messages i i')
    (others : List Midi.Message) : Tries (messages ++ others) i i' where
  isOpen := h.isOpen
  heard := by
    obtain ⟨passed, same, sublist⟩ := h.heard
    refine ⟨passed, same, sublist.trans ?_⟩
    split
    · exact List.sublist_append_left messages others
    · exact .refl _

end Tries

/-- A message that is sent is heard if it gets through. -/
theorem heard_sent (i : Instrument τ) {deed : Bool → Deed τ} {message : Midi.Message}
    (recorded : Deed.IsOf i.channel message deed) :
    ({ i.send.1 with deeds := i.send.1.deeds ++ [deed i.send.2] } : Instrument τ).heard =
      i.heard ++ if i.send.2 then [message] else [] := by
  have arrives : ((deed i.send.2).arrived? i.channel).toList =
      if i.send.2 then [message] else [] := by
    rw [recorded.arrives]
    split <;> rfl
  rw [← arrives]
  unfold send
  cases i.output with
  | none => exact filterMap_concat _ i.deeds _
  | some output => exact filterMap_concat _ i.deeds _

theorem tries_send (i : Instrument τ) {deed : Bool → Deed τ} {message : Midi.Message}
    (recorded : Deed.IsOf i.channel message deed) :
    Tries [message] i { i.send.1 with deeds := i.send.1.deeds ++ [deed i.send.2] } where
  isOpen := by
    unfold send
    cases here : i.output with
    | none => exact congrArg Option.isSome here
    | some output => rfl
  heard := by
    refine ⟨_, heard_sent i recorded, ?_⟩
    unfold send
    cases i.output with
    | none => exact List.nil_sublist _
    | some output =>
      dsimp only
      split
      · exact .refl _
      · exact List.nil_sublist _

theorem tries_perform (now : τ) (i : Instrument τ) (s : Signal τ) :
    Tries [s.message i.channel] i (perform now i s) := by
  let j : Instrument τ := { i with sounding := soundingAfter i.sounding s }
  have quiet : Tries [] i j := .quietly rfl rfl rfl
  have sent := quiet.trans (tries_send j (isOf_played now s j.channel))
  unfold perform
  dsimp only
  split
  · exact sent.andQuietly rfl rfl rfl
  · exact sent

theorem tries_foldl_perform (now : τ) (signals : List (Signal τ)) (i : Instrument τ) :
    Tries (signals.map (Signal.message i.channel)) i (signals.foldl (perform now) i) := by
  induction signals generalizing i with
  | nil => exact .quietly rfl rfl rfl
  | cons s rest ih =>
    have channel : (perform now i s).channel = i.channel :=
      congrArg Course.channel (course_perform now i s)
    have others := ih (perform now i s)
    rw [channel] at others
    exact (tries_perform now i s).trans others

theorem tries_sendAll (now : τ) (messages : List Midi.Message) (i : Instrument τ) :
    Tries messages i (sendAll now i messages) := by
  induction messages generalizing i with
  | nil => exact .quietly rfl rfl rfl
  | cons message rest ih =>
    have sent := tries_send i (isOf_silenced now message i.channel)
    unfold sendAll
    dsimp only
    split
    · exact sent.trans (ih _)
    · exact (sent.more rest).andQuietly rfl rfl rfl

theorem tries_silence (now : τ) (i : Instrument τ) : Tries i.silencing i (silence now i) := by
  have quiet : Tries [] i { i with sounding := [] } := .quietly rfl rfl rfl
  unfold silence
  dsimp only
  split
  · exact quiet.trans (tries_sendAll now i.silencing { i with sounding := [] })
  · exact quiet.more i.silencing

/-! ## Two instruments -/

/-- Two instruments that differ in their outputs only, the second of which loses nothing. -/
structure InStep (i j : Instrument τ) : Prop where
  course : i.course = j.course
  losesNothing : j.LosesNothing
  isOpen : i.output.isSome = true → j.output.isSome = true
  heard : i.heard.Sublist j.heard

namespace InStep

variable {i i' j j' : Instrument τ}

theorem loops (h : InStep i j) : i.loops = j.loops := congrArg Course.loops h.course

theorem current (h : InStep i j) : i.current = j.current := congrArg Course.current h.course

theorem loop? (h : InStep i j) (n : Nat) : i.loop? n = j.loop? n :=
  congrArg (fun loops => loops[n]?) h.loops

theorem loopEnded (h : InStep i j) (n : Nat) : i.loopEnded n = j.loopEnded n := by
  unfold Instrument.loopEnded
  rw [h.loop?]

/-- Instruments stay in step that try to send the same. -/
theorem sends {messages : List Midi.Message} (h : InStep i j) (tries : Tries messages i i')
    (tells : Tells messages j j') (course : i'.course = j'.course) : InStep i' j' where
  course := course
  losesNothing := tells.losesNothing
  isOpen := by
    rw [tries.isOpen, tells.isOpen]
    exact h.isOpen
  heard := by
    obtain ⟨passed, same, sublist⟩ := tries.heard
    rw [same, tells.heard]
    refine h.heard.append ?_
    cases isOpen : i.output.isSome with
    | true =>
      rw [isOpen] at sublist
      rw [h.isOpen isOpen]
      exact sublist
    | false =>
      rw [isOpen] at sublist
      exact sublist.trans (List.nil_sublist _)

/-- Instruments stay in step if the same is done to both courses, and nothing to what was sent. -/
theorem quietly (h : InStep i j) (change : Course τ → Course τ)
    (left : i'.course = change i.course) (right : j'.course = change j.course)
    (channel : ∀ c, (change c).channel = c.channel) (output : i'.output = i.output)
    (deeds : i'.deeds = i.deeds) (output' : j'.output = j.output) (deeds' : j'.deeds = j.deeds) :
    InStep i' j' := by
  have channelLeft : i'.channel = i.channel :=
    (congrArg Course.channel left).trans (channel i.course)
  have channelRight : j'.channel = j.channel :=
    (congrArg Course.channel right).trans (channel j.course)
  refine h.sends (.quietly channelLeft output deeds)
    (.quietly h.losesNothing channelRight output' deeds') ?_
  rw [left, right, h.course]

end InStep

variable {i j : Instrument τ}

theorem inStep_report (h : InStep i j) (notices notices' : List Notice) :
    InStep (i.report notices) (j.report notices') :=
  h.quietly id rfl rfl (fun _ => rfl) rfl rfl rfl rfl

theorem inStep_setLoop (h : InStep i j) (n : Nat) (l : Loop τ) :
    InStep (i.setLoop n l) (j.setLoop n l) :=
  h.quietly (fun c => { c with loops := c.loops.set n l }) rfl rfl (fun _ => rfl) rfl rfl rfl rfl

theorem inStep_closeOutput (h : InStep i j) : InStep i.closeOutput j.closeOutput := by
  have closed (k : Instrument τ) : k.closeOutput.output = none := by
    unfold closeOutput
    cases here : k.output with
    | none => exact here
    | some output => rfl
  have heard (k : Instrument τ) : k.closeOutput.heard = k.heard := by
    unfold closeOutput
    cases k.output with
    | none => rfl
    | some output =>
      show (k.deeds ++ [Deed.closed output.name]).filterMap (Deed.arrived? k.channel) = k.heard
      rw [List.filterMap_append]
      exact List.append_nil _
  constructor
  · rw [course_closeOutput, course_closeOutput]
    exact h.course
  · intro output here
    cases (closed j).symm.trans here
  · rw [closed i]
    nofun
  · rw [heard, heard]
    exact h.heard

theorem inStep_silence (h : InStep i j) (now : τ) : InStep (silence now i) (silence now j) := by
  have same : i.silencing = j.silencing := congrArg
    (fun c : Course τ => c.sounding.map (fun note => Midi.Message.noteOff c.channel note
      Midi.noStrength) ++ [.control c.channel Midi.allNotesOff Midi.noStrength]) h.course
  have tries := tries_silence now i
  rw [same] at tries
  refine h.sends tries (tells_silence h.losesNothing now) ?_
  rw [course_silence, course_silence, h.course]

theorem inStep_foldl_perform (h : InStep i j) (now : τ) (signals : List (Signal τ)) :
    InStep (signals.foldl (perform now) i) (signals.foldl (perform now) j) := by
  have channel : i.channel = j.channel := congrArg Course.channel h.course
  have sounding : i.sounding = j.sounding := congrArg Course.sounding h.course
  have taken : i.taken = j.taken := congrArg Course.taken h.course
  have tries := tries_foldl_perform now signals i
  rw [channel] at tries
  refine h.sends tries (tells_foldl_perform now signals h.losesNothing).1 ?_
  rw [course_foldl_perform, course_foldl_perform, h.course, sounding, taken]

variable [Quantity τ]

theorem inStep_clear (h : InStep i j) (now : τ) : InStep (i.clear now) (j.clear now) := by
  have stopped : InStep
      { i with running := false, queue := [], counter := 0, startTime := zero }
      { j with running := false, queue := [], counter := 0, startTime := zero } :=
    h.quietly
      (fun c => { c with running := false, queue := [], counter := 0, startTime := zero })
      rfl rfl (fun _ => rfl) rfl rfl rfl rfl
  exact inStep_silence stopped now

omit [Quantity τ] in
theorem inStep_launch (h : InStep i j) (now : τ) : InStep (i.launch now) (j.launch now) :=
  h.quietly
    (fun c => { c with
      running := true
      startTime := now
      loops := c.loops ++ [{ phase := .fresh, cancelled := false }]
      current := some c.loops.length })
    rfl rfl (fun _ => rfl) rfl rfl rfl rfl

/-- Instruments in step accept the same notes, refuse the same with the same fault, and are in step
behind them. -/
theorem inStep_on (h : InStep i j) (n : ScheduledNote τ) :
    ((Work.schedule n).on i).1 = ((Work.schedule n).on j).1 ∧
      InStep ((Work.schedule n).on i).2 ((Work.schedule n).on j).2 := by
  obtain ⟨outcome, used, told, -, ran⟩ := exists_scheduling n
  rw [ran i, ran j]
  exact ⟨rfl, h.quietly
    (fun c => { c with
      queue := enqueueAll (n.signals c.counter) c.queue
      counter := c.counter + used })
    rfl rfl (fun _ => rfl) rfl rfl rfl rfl⟩

theorem inStep_playDue (h : InStep i j) (now : τ) : InStep (playDue now i) (playDue now j) := by
  have queue : i.queue = j.queue := congrArg Course.queue h.course
  have startTime : i.startTime = j.startTime := congrArg Course.startTime h.course
  have due : i.isDue now = j.isDue now := by
    unfold isDue
    rw [startTime]
  have left : InStep { i with queue := i.queue.dropWhile (i.isDue now) }
      { j with queue := j.queue.dropWhile (j.isDue now) } := by
    rw [queue, due]
    exact h.quietly (fun c => { c with queue := j.queue.dropWhile (j.isDue now) })
      rfl rfl (fun _ => rfl) rfl rfl rfl rfl
  have played := inStep_foldl_perform left now (j.queue.takeWhile (j.isDue now))
  unfold playDue
  rwa [queue, due] at played ⊢

/-- A step of a loop keeps instruments in step, and takes the same time on both. -/
theorem inStep_stepLoop (h : InStep i j) (now : τ) (n : Nat) :
    InStep (i.stepLoop now n).1 (j.stepLoop now n).1 ∧
      (i.stepLoop now n).2 = (j.stepLoop now n).2 := by
  unfold stepLoop
  rw [h.loop?]
  cases j.loop? n with
  | none => exact ⟨h, rfl⟩
  | some l =>
    dsimp only
    split
    · exact ⟨inStep_setLoop h n _, rfl⟩
    · have played := inStep_playDue h (actTime now l)
      have queue : (playDue (actTime now l) i).queue = (playDue (actTime now l) j).queue :=
        congrArg Course.queue played.course
      have startTime : (playDue (actTime now l) i).startTime =
          (playDue (actTime now l) j).startTime := congrArg Course.startTime played.course
      have watchFrom : (playDue (actTime now l) i).watchFrom =
          (playDue (actTime now l) j).watchFrom := congrArg Course.watchFrom played.course
      rw [queue]
      cases (playDue (actTime now l) j).queue with
      | nil =>
        have ended := inStep_setLoop played n { l with phase := .ended }
        exact ⟨ended.quietly (fun c => { c with running := false })
          rfl rfl (fun _ => rfl) rfl rfl rfl rfl, rfl⟩
      | cons next rest =>
        dsimp only
        rw [startTime, watchFrom]
        exact ⟨inStep_setLoop played n _, rfl⟩

end Instrument

end Keysong
