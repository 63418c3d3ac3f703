import Keysong.Proofs.Alternation
import Keysong.Proofs.Returning

/-!
# A melody on several instruments

Somebody plays one melody on one instrument after the other, and stops it, in any order; a call has
to return before the next one is made.  To play where the melody was played last cancels it first.
To play elsewhere does not: the player knows one seat only, and the instrument that was left goes on
by itself, out of reach of any later stop.  So the melody sounds in one place if it is stopped
before it moves, and in two places if it is not.

## Main Definitions

* `Visit`, `Leg`, `Tour` — what somebody asks for, and what happens on the instruments meanwhile
* `Tour.run` — any row of legs
* `seatOf`, `leftOn` — where the melody was played last, and where it was not stopped since
* `isCareful` — a melody that is stopped before it moves

## Main Statements

* `onTour_run` — every instrument has what it was asked for last
* `quiet_unless_left` — an instrument plays nothing of the melody unless the melody was left there
* `head?_of_leftOn` — who is careful leaves the melody nowhere but where it was played just now
* `OnTour.exists_returned` — a call can always return
* `plays_on_where_left` — a phrase that was not stopped goes on where it was left
-/

namespace Keysong

open Instrument

variable {τ : Type}

/-! ## Tours -/

/-- What is asked of the player of a melody. -/
inductive Visit where
  | play (instrument : Nat)
  | stop
  deriving Repr, DecidableEq

/-- What happens next on a tour. -/
inductive Leg (τ : Type) where
  | visit (v : Visit)
  /-- A caller or a loop goes on, or time passes. -/
  | turn (instrument : Nat) (t : Turn τ)

/-- The player of a melody, the instruments, and what was asked for so far, the last first. -/
structure Tour (τ : Type) where
  player : Player
  stages : Nat → Stage τ
  visits : List Visit

/-- The calls that go to one instrument. -/
def callsTo (k : Nat) (calls : List (Nat × Call τ)) : List (Call τ) :=
  (calls.filter fun c => c.1 = k).map Prod.snd

namespace Tour

variable [Quantity τ]

/-- Nobody has played yet. -/
def start (m : Melody) (now : τ) (instruments : Nat → Instrument τ) : Tour τ :=
  ⟨.start m, fun k => .idle now (instruments k), []⟩

/-- Every instrument that is called gets its calls as one session, and something to do behind it. -/
def ask (stages : Nat → Stage τ) (calls : List (Nat × Call τ)) (behind : Program τ) (k : Nat) :
    Stage τ :=
  match callsTo k calls with
  | [] => stages k
  | share => { stages k with callers := [⟨sessionProgram share ++ behind, none⟩] }

/-- Makes a call of the player. -/
def visit (t : Tour τ) : Visit → Tour τ
  | .play k =>
    let (player, calls) := t.player.playOn k
    ⟨player, ask t.stages calls [.report player.melody.playNotice], .play k :: t.visits⟩
  | .stop => { t with stages := ask t.stages t.player.stop [], visits := .stop :: t.visits }

/-- Whether the last call has returned. -/
def isFree (t : Tour τ) : Bool :=
  match t.player.seat with
  | some (.shared k) => (t.stages k).isDone
  | _ => true

/-- A leg of a tour.  What is not possible is passed over. -/
def leg (t : Tour τ) : Leg τ → Tour τ
  | .visit v => if t.isFree then t.visit v else t
  | .turn k turn =>
    { t with stages := Function.update t.stages k (((t.stages k).turn? turn).getD (t.stages k)) }

/-- Any row of legs. -/
def run (t : Tour τ) (legs : List (Leg τ)) : Tour τ := legs.foldl leg t

end Tour

/-! ## What was asked for -/

/-- The instrument on which the melody was played last. -/
def seatOf : List Visit → Option Nat
  | [] => none
  | .play k :: _ => some k
  | .stop :: earlier => seatOf earlier

/-- Whether the melody was played on an instrument and not stopped there since.  A stop goes to the
instrument on which the melody was played last. -/
def leftOn (k : Nat) : List Visit → Bool
  | [] => false
  | .play j :: earlier => j = k || leftOn k earlier
  | .stop :: earlier => leftOn k earlier && seatOf earlier != some k

/-- Whether the melody was stopped each time before it moved to another instrument. -/
def isCareful : List Visit → Bool
  | .play k :: .play j :: earlier => j = k && isCareful (.play j :: earlier)
  | _ :: earlier => isCareful earlier
  | [] => true

/-- What an instrument was asked for last; at first it is as if it had been stopped. -/
def lastAsked [Quantity τ] (m : Melody) (k : Nat) (visits : List Visit) : Request τ :=
  if leftOn k visits then .play m.notes m.playNotice else .stop

/-- **Who is careful leaves the melody nowhere but where it was played just now.** -/
theorem head?_of_leftOn {k : Nat} {visits : List Visit} (careful : isCareful visits = true)
    (left : leftOn k visits = true) : visits.head? = some (.play k) := by
  induction visits with
  | nil => cases left
  | cons v earlier ih =>
    cases v with
    | stop =>
      obtain ⟨before, elsewhere⟩ := Bool.and_eq_true_iff.mp left
      -- If the melody was played there just before, it is there that it was stopped.
      have last := ih careful before
      cases earlier with
      | nil => cases last
      | cons w earlier =>
        obtain rfl : w = .play k := Option.some.inj last
        simp [seatOf] at elsewhere
    | play j =>
      rcases Bool.or_eq_true_iff.mp left with here | before
      · rw [of_decide_eq_true here]
        rfl
      · cases earlier with
        | nil => cases before
        | cons w earlier =>
          cases w with
          | stop => cases ih careful before
          | play i =>
            obtain ⟨same, careful⟩ := Bool.and_eq_true_iff.mp careful
            rw [← of_decide_eq_true same]
            exact ih careful before

/-! ## Calls and requests -/

section Asking

variable [Quantity τ]

omit [Quantity τ] in
theorem callsTo_self (k : Nat) (calls : List (Call τ)) :
    callsTo k (calls.map fun call => (k, call)) = calls := by
  induction calls with
  | nil => rfl
  | cons call rest ih => simpa [callsTo] using ih

omit [Quantity τ] in
theorem callsTo_of_ne {j k : Nat} (other : j ≠ k) (calls : List (Call τ)) :
    callsTo k (calls.map fun call => (j, call)) = [] := by
  simp [callsTo, other]

namespace Tour

/-- To play is to ask one instrument to play the melody. -/
theorem stages_play (t : Tour τ) (j k : Nat) :
    (t.visit (.play j)).stages k =
      if j = k then (t.stages k).asked (.play t.player.melody.notes t.player.melody.playNotice)
      else t.stages k := by
  show ask t.stages ((Session.play t.player.melody.notes).map fun call => (j, call)) _ k = _
  unfold ask
  split_ifs with here
  · subst here
    rw [callsTo_self]
    rfl
  · rw [callsTo_of_ne here]

/-- To stop is to ask the instrument to stop on which the melody was played last. -/
theorem stages_stop (t : Tour τ) (k : Nat) :
    (t.visit .stop).stages k =
      if t.player.seat = some (.shared k) then (t.stages k).asked .stop else t.stages k := by
  show ask t.stages t.player.stop [] k = _
  unfold ask Player.stop
  split_ifs with here
  · rw [here, callsTo_self]
    rfl
  · cases seat : t.player.seat with
    | none => rfl
    | some place =>
      cases place with
      | own => rfl
      | shared j =>
        have other : j ≠ k := by
          rintro rfl
          exact here seat
        dsimp only
        rw [callsTo_of_ne other]

end Tour

end Asking

/-! ## What every instrument has -/

section Touring

variable [Quantity τ] {m : Melody} {instruments : Nat → Instrument τ} {t : Tour τ}

/-- Every instrument has what it was asked for last, and nobody calls it but the player who plays
there. -/
structure OnTour (m : Melody) (instruments : Nat → Instrument τ) (t : Tour τ) : Prop where
  melody : t.player.melody = m
  seat : t.player.seat = (seatOf t.visits).map .shared
  done : ∀ k, seatOf t.visits ≠ some k → (t.stages k).isDone = true
  hosts : ∀ k, (t.stages k).Hosts (instruments k).CarriesAll (lastAsked m k t.visits)

theorem onTour_start (m : Melody) (now : τ) (new : ∀ k, (instruments k).IsNew) :
    OnTour m instruments (.start m now instruments) where
  melody := rfl
  seat := rfl
  done _ _ := rfl
  hosts k := Stage.hosts_idle (new k) now

/-- The player knows where the melody was played last. -/
theorem OnTour.isSeat (tour : OnTour m instruments t) (k : Nat) :
    t.player.seat = some (.shared k) ↔ seatOf t.visits = some k := by
  rw [tour.seat, Option.map_eq_some_iff]
  constructor
  · rintro ⟨j, here, ⟨⟩⟩
    exact here
  · exact fun here => ⟨k, here, rfl⟩

/-- When the last call has returned, nobody is called. -/
theorem OnTour.isDone (tour : OnTour m instruments t) (free : t.isFree = true) (k : Nat) :
    (t.stages k).isDone = true := by
  by_cases here : seatOf t.visits = some k
  · unfold Tour.isFree at free
    rw [(tour.isSeat k).mpr here] at free
    exact free
  · exact tour.done k here

theorem OnTour.play (tour : OnTour m instruments t) (free : t.isFree = true) (j : Nat) :
    OnTour m instruments (t.visit (.play j)) where
  melody := tour.melody
  seat := rfl
  done k other := by
    have elsewhere : j ≠ k := fun same => other (congrArg some same)
    rw [Tour.stages_play, if_neg elsewhere]
    exact tour.isDone free k
  hosts k := by
    rw [Tour.stages_play, tour.melody]
    show Stage.Hosts _ (lastAsked m k (.play j :: t.visits)) _
    unfold lastAsked leftOn
    by_cases here : j = k
    · rw [if_pos here, decide_eq_true here]
      exact Stage.hosts_ask (tour.hosts k) (tour.isDone free k) (.play m.notes m.playNotice)
    · rw [if_neg here, decide_eq_false here, Bool.false_or]
      exact tour.hosts k

theorem OnTour.stop (tour : OnTour m instruments t) (free : t.isFree = true) :
    OnTour m instruments (t.visit .stop) where
  melody := tour.melody
  seat := tour.seat
  done k other := by
    rw [Tour.stages_stop, if_neg (mt (tour.isSeat k).mp other)]
    exact tour.isDone free k
  hosts k := by
    rw [Tour.stages_stop, if_congr (tour.isSeat k) rfl rfl]
    show Stage.Hosts _ (lastAsked m k (.stop :: t.visits)) _
    unfold lastAsked leftOn
    by_cases here : seatOf t.visits = some k
    · rw [if_pos here, here, bne_self_eq_false, Bool.and_false]
      exact Stage.hosts_ask (tour.hosts k) (tour.isDone free k) .stop
    · rw [if_neg here, bne_iff_ne.mpr here, Bool.and_true]
      exact tour.hosts k

/-- A turn of one instrument leaves the others as they are. -/
theorem OnTour.turn (tour : OnTour m instruments t) (j : Nat) (turn : Turn τ) :
    OnTour m instruments (t.leg (.turn j turn)) where
  melody := tour.melody
  seat := tour.seat
  done k other := by
    show Stage.isDone (Function.update t.stages j _ k) = true
    have done := tour.done k other
    rcases eq_or_ne k j with rfl | elsewhere
    · rw [Function.update_self]
      cases gone : (t.stages k).turn? turn with
      | none => exact done
      | some s => exact Stage.isDone_turn done gone
    · rw [Function.update_of_ne elsewhere]
      exact done
  hosts k := by
    show Stage.Hosts _ _ (Function.update t.stages j _ k)
    rcases eq_or_ne k j with rfl | elsewhere
    · rw [Function.update_self]
      cases gone : (t.stages k).turn? turn with
      | none => exact tour.hosts k
      | some s => exact Stage.hosts_turn (tour.hosts k) gone
    · rw [Function.update_of_ne elsewhere]
      exact tour.hosts k

theorem OnTour.leg (tour : OnTour m instruments t) (l : Leg τ) :
    OnTour m instruments (t.leg l) := by
  cases l with
  | turn j turn => exact tour.turn j turn
  | visit v =>
    unfold Tour.leg
    split_ifs with free
    · cases v with
      | play j => exact tour.play free j
      | stop => exact tour.stop free
    · exact tour

/-- Turns of one instrument change nothing but its stage. -/
theorem run_turns (t : Tour τ) (k : Nat) (turns : List (Turn τ)) :
    t.run (turns.map (.turn k)) =
      { t with stages := Function.update t.stages k ((t.stages k).run turns) } := by
  induction turns generalizing t with
  | nil =>
    show t = { t with stages := Function.update t.stages k (t.stages k) }
    rw [Function.update_eq_self]
  | cons turn rest ih =>
    show Tour.run (t.leg (.turn k turn)) (rest.map (.turn k)) = _
    rw [ih]
    unfold Tour.leg
    dsimp only
    rw [Function.update_self, Function.update_idem]
    rfl

/-- **On a tour every instrument has what it was asked for last.** -/
theorem onTour_run (m : Melody) (new : ∀ k, (instruments k).IsNew) (now : τ)
    (legs : List (Leg τ)) : OnTour m instruments ((Tour.start m now instruments).run legs) := by
  unfold Tour.run
  induction legs using List.reverseRecOn with
  | nil => exact onTour_start m now new
  | append_singleton earlier l ih =>
    rw [List.foldl_append]
    exact ih.leg l

/-- **A call can always return**, if time passes and the instrument gets enough turns. -/
theorem OnTour.exists_returned (tour : OnTour m instruments t) (passes : TimePasses τ) :
    ∃ k turns, (t.run (List.map (.turn k) turns)).isFree = true := by
  cases seat : seatOf t.visits with
  | none =>
    refine ⟨0, [], ?_⟩
    show t.isFree = true
    unfold Tour.isFree
    rw [tour.seat, seat]
    rfl
  | some k =>
    obtain ⟨turns, done⟩ := Stage.exists_isDone passes (tour.hosts k)
    refine ⟨k, turns, ?_⟩
    rw [run_turns]
    unfold Tour.isFree
    dsimp only
    rw [(tour.isSeat k).mpr seat]
    dsimp only
    rw [Function.update_self]
    exact done

theorem OnTour.isAtRest (tour : OnTour m instruments t) (returned : t.isFree = true) {k : Nat}
    (away : leftOn k t.visits = false) : (t.stages k).IsAtRest (instruments k).CarriesAll := by
  have hosts := tour.hosts k
  rw [lastAsked, away] at hosts
  exact Stage.isAtRest_of_hosts hosts (tour.isDone returned k)

theorem OnTour.playsOnly (tour : OnTour m instruments t) (returned : t.isFree = true) {k : Nat}
    (left : leftOn k t.visits = true) :
    (t.stages k).PlaysOnly (instruments k).CarriesAll m.notes := by
  have hosts := tour.hosts k
  rw [lastAsked, left] at hosts
  exact Stage.playsOnly_of_hosts hosts (tour.isDone returned k)

/-- **An instrument plays nothing of the melody unless the melody was left there.**  Every call can
return.  When the last one has returned, every instrument is at rest on which the melody was stopped
after it was played there last, and on the others nothing is left of any but the last session.  So if
the melody was stopped each time before it moved, no instrument plays but the one on which it was
played just now, and none if it was stopped just now. -/
theorem quiet_unless_left (m : Melody) (new : ∀ k, (instruments k).IsNew) (now : τ)
    (legs : List (Leg τ)) :
    let t := (Tour.start m now instruments).run legs
    (TimePasses τ → ∃ k turns, (t.run (List.map (.turn k) turns)).isFree = true) ∧
      (t.isFree = true →
        (∀ k, leftOn k t.visits = false → (t.stages k).IsAtRest (instruments k).CarriesAll) ∧
        (∀ k, leftOn k t.visits = true →
          (t.stages k).PlaysOnly (instruments k).CarriesAll m.notes) ∧
        (isCareful t.visits = true → ∀ k, t.visits.head? ≠ some (.play k) →
          (t.stages k).IsAtRest (instruments k).CarriesAll)) := by
  intro t
  have tour : OnTour m instruments t := onTour_run m new now legs
  refine ⟨tour.exists_returned, fun returned => ⟨fun k => tour.isAtRest returned,
    fun k => tour.playsOnly returned, fun careful k notLast => tour.isAtRest returned ?_⟩⟩
  by_contra left
  exact notLast (head?_of_leftOn careful (eq_true_of_ne_false left))

end Touring

/-- The phrase is played on one instrument and stopped there after its first note, and then it is
played on another one. -/
def handedOver : List (Leg Rat) :=
  [.visit (.play 0), .turn 0 (.of (.caller 0)), .turn 0 (.of (.loop 0)), .turn 0 (.clock 0.5),
    .turn 0 (.of (.loop 0)), .visit .stop, .turn 0 (.of (.caller 0)), .turn 0 (.of (.loop 0)),
    .turn 0 (.of (.caller 0)), .visit (.play 1), .turn 1 (.of (.caller 0))]

/-- The phrase that was stopped before it moved is over where it began, though it had sounded. -/
theorem quiet_unless_left_phrase :
    let t := (Tour.start phraseMelody 0 fun _ => justOpened).run handedOver
    ((∀ _ : Nat, justOpened.IsNew) ∧ TimePasses Rat ∧ t.isFree = true) ∧
      t.visits = [.play 1, .stop, .play 0] ∧
      Midi.touches 60 (t.stages 0).instrument.heard = [true, false] ∧
      (t.stages 0).IsAtRest justOpened.CarriesAll ∧
      (t.stages 1).PlaysOnly justOpened.CarriesAll phraseMelody.notes ∧
      (t.stages 1).instrument.queue.length = 6 := by
  intro t
  have returned : t.isFree = true := by decide +kernel
  have visits : t.visits = [.play 1, .stop, .play 0] := by decide +kernel
  obtain ⟨-, left, careful⟩ :=
    (quiet_unless_left phraseMelody (fun _ => isNew_justOpened) 0 handedOver).2 returned
  refine ⟨⟨fun _ => isNew_justOpened, timePasses_rat, returned⟩, visits, by decide +kernel, ?_, ?_,
    by decide +kernel⟩
  · refine careful ?_ 0 ?_
    · show isCareful t.visits = true
      rw [visits]
      rfl
    · show t.visits.head? ≠ some (.play 0)
      rw [visits]
      decide
  · refine left 1 ?_
    show leftOn 1 t.visits = true
    rw [visits]
    rfl

/-! ## A melody that is not stopped before it moves -/

/-- The phrase is played on one instrument, and then on another one. -/
def moved : List (Leg Rat) :=
  [.visit (.play 0), .turn 0 (.of (.caller 0)), .visit (.play 1), .turn 1 (.of (.caller 0))]

/-- The phrase is stopped, which only reaches the instrument on which it was played last. -/
def stoppedThere : List (Leg Rat) :=
  [.visit .stop, .turn 1 (.of (.caller 0)), .turn 1 (.of (.loop 0)), .turn 1 (.of (.caller 0))]

/-- Time passes where the phrase was played first. -/
def goneBy : List (Leg Rat) :=
  [.turn 0 (.of (.loop 0)), .turn 0 (.clock 2), .turn 0 (.of (.loop 0))]

/-- **A phrase that was not stopped before it moved plays on where it was left.**  When the second
call has returned, all of it is still queued on the first instrument, and its loop is alive; and
after a stop the first instrument still strikes its notes. -/
theorem plays_on_where_left :
    let t := (Tour.start phraseMelody 0 fun _ => justOpened).run moved
    let t' := t.run stoppedThere
    (t.visits = [.play 1, .play 0] ∧ t.isFree = true ∧
        (t.stages 0).instrument.queue.length = 6 ∧ (t.stages 0).instrument.current = some 0 ∧
        (t.stages 0).instrument.loops = [⟨.fresh, false⟩] ∧
        ¬(t.stages 0).IsAtRest justOpened.CarriesAll) ∧
      t'.visits = [.stop, .play 1, .play 0] ∧ t'.isFree = true ∧
        Midi.touches 60 (t'.stages 0).instrument.heard = [] ∧
        Midi.touches 60 ((t'.run goneBy).stages 0).instrument.heard =
          [true, false, true, false] := by
  intro t t'
  have queued : (t.stages 0).instrument.queue.length = 6 := by decide +kernel
  refine ⟨⟨by decide +kernel, by decide +kernel, queued, by decide +kernel, by decide +kernel,
    fun rest => ?_⟩, by decide +kernel, by decide +kernel, by decide +kernel, by decide +kernel⟩
  rw [rest.queue] at queued
  cases queued

end Keysong
