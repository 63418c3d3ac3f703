import Keysong.Proofs.Delivery
import Keysong.Proofs.Refusals
import Keysong.Proofs.Spelling
import Keysong.Proofs.Sums

/-!
# Scheduling a note

A note that is scheduled puts two signals into the queue, the release at the sum of its start and
its length.  An instrument is changed in place, so what was done before a fault is kept.  This
module says when the signals are in the queue behind a call and in which order they go out.

## Main Statements

* `Work.on_schedule_accepted`, `Work.on_schedule_refused` — what a call leaves behind
* `IsPair.strike_first_iff`, `IsPair.release_first_iff` — the order of the two signals
* `scheduling_order` — what a call does, for all machine numbers

### Which notes are struck first

At equal times a release goes out first, so that a note can be struck again at once.  For the two
signals of one note that means: the strike goes out first if and only if the sum of its start and
its length is above the start.  That the length is above zero is not enough, since the sum is
rounded.
-/

namespace Keysong

open Quantity

variable {τ : Type} [Quantity τ]

/-! ## The order of the two signals -/

namespace ScheduledNote

open Instrument

theorem IsPair.strike_first_iff {n : ScheduledNote τ} {pair : Signal τ × Signal τ}
    (isPair : n.IsPair pair) :
    pair.1.before pair.2 = true ↔ n.start < n.start + n.duration := by
  unfold Signal.before
  rw [isPair.strikes, isPair.releases, isPair.starts, isPair.ends]
  simp

theorem IsPair.release_first_iff {n : ScheduledNote τ} {pair : Signal τ × Signal τ}
    (isPair : n.IsPair pair) : pair.2.before pair.1 = true ↔
      n.start + n.duration < n.start ∨ (n.start + n.duration == n.start) = true := by
  unfold Signal.before
  rw [isPair.strikes, isPair.releases, isPair.starts, isPair.ends]
  simp

/-- Which notes are accepted, in machine numbers. -/
theorem isAccepted_iff {n : ScheduledNote Float} : n.IsAccepted ↔
    ¬ n.start < 0 ∧ ¬ n.duration ≤ 0 ∧ (n.velocity * 127.0).isFinite = true := by
  rw [← Midi.exists_attack_iff, ← zero_float]
  exact ⟨fun ⟨notEarly, notShort, strong⟩ => ⟨notEarly, notShort, strong⟩,
    fun ⟨notEarly, notShort, strong⟩ => ⟨notEarly, notShort, strong⟩⟩

end ScheduledNote

namespace Instrument.Work

variable {n : ScheduledNote τ} (i : Instrument τ)
  (inRange : 0 ≤ n.pitch.number ∧ n.pitch.number ≤ 127)

include inRange

/-- A call that gets through leaves both signals in the queue, and so does one that fails because
the pitch cannot be written. -/
theorem on_schedule_accepted (accepted : n.IsAccepted) :
    ∃ i' pair, (schedule n).on i = (n.pitch.spelling.map fun _ => (), i') ∧ n.IsPair pair ∧
      i'.queue.Perm (pair.1 :: pair.2 :: i.queue) := by
  obtain ⟨note, inside⟩ := Midi.Track.exists_noteOf? inRange
  obtain ⟨strength, strong⟩ := accepted.strong
  obtain ⟨outcome, used, told, scheduling, ran⟩ := exists_scheduling n
  have came : outcome = (n.pitch.spelling.map fun _ => ()) := by
    cases scheduling with
    | refused fault outOfTime =>
      exact absurd outOfTime (not_or.mpr ⟨accepted.notEarly, accepted.notShort⟩)
    | leftOut inTime outside => exact nomatch inside.symm.trans outside
    | weak fault inTime inside' refused => exact nomatch refused.symm.trans strong
    | queued inTime inside' strong' => rfl
  have signals := n.signals_inside accepted.notEarly accepted.notShort inside strong i.counter
  refine ⟨_, signalsOf i.counter note strength n.start n.duration, came ▸ ran i,
    ⟨rfl, rfl, rfl, rfl, inside, rfl, strong, rfl⟩, ?_⟩
  show (enqueueAll (n.signals i.counter) i.queue).Perm _
  rw [signals]
  exact (perm_enqueueAll _ _).trans List.perm_append_comm

/-- Any other call leaves the instrument as it was, but for a serial number. -/
theorem on_schedule_refused (refused : ¬ n.IsAccepted) :
    ∃ fault counter, (schedule n).on i = (.error fault, { i with counter }) := by
  obtain ⟨note, inside⟩ := Midi.Track.exists_noteOf? inRange
  obtain ⟨outcome, used, told, scheduling, ran⟩ := exists_scheduling n
  cases scheduling with
  | refused fault outOfTime =>
    refine ⟨fault, i.counter, ?_⟩
    rw [ran i, taking_of_nil (n.signals_outOfTime outOfTime _), List.append_nil]
    rfl
  | leftOut inTime outside => exact nomatch inside.symm.trans outside
  | weak fault inTime inside' weak =>
    refine ⟨fault, i.counter + 1, ?_⟩
    rw [ran i, taking_of_nil (n.signals_weak weak _), List.append_nil]
  | queued inTime inside' strong =>
    exact absurd ⟨(not_or.mp inTime).1, (not_or.mp inTime).2, _, strong⟩ refused

end Instrument.Work

open Decimal in
/-- **What a call to schedule a note does.**  For any pitch in the range of messages and any machine
numbers, it gets through if and only if the start is not below zero, the length not at or below it,
the velocity finite when it is scaled, and the pitch short enough to be written.  Whether it can be
written or not, the strike and the release are in the queue behind the call then; the strike goes
out first if and only if the length moves the start, and otherwise the release does, unless the
start or the length is no number.  In any other case the instrument is as it was, but for a serial
number. -/
theorem scheduling_order (i : Instrument Float) (n : ScheduledNote Float)
    (inRange : 0 ≤ n.pitch.number ∧ n.pitch.number ≤ 127) :
    ∃ outcome i', (Instrument.Work.schedule n).on i = (outcome, i') ∧
      (n.IsAccepted ↔
        ¬ n.start < 0 ∧ ¬ n.duration ≤ 0 ∧ (n.velocity * 127.0).isFinite = true) ∧
      (outcome.isOk = true ↔ n.IsAccepted ∧
        isWritable n.pitch.accidental = true ∧ isWritable n.pitch.octave = true) ∧
      (n.IsAccepted → ∃ pair, n.IsPair pair ∧ i'.queue.Perm (pair.1 :: pair.2 :: i.queue) ∧
        (pair.1.before pair.2 = true ↔
          Moves (Double.ofFloat n.start).size (Double.ofFloat n.duration).size) ∧
        (pair.2.before pair.1 = true ↔
          ¬ Moves (Double.ofFloat n.start).size (Double.ofFloat n.duration).size ∧
            (Double.ofFloat n.start).size ≠ .undefined ∧
            (Double.ofFloat n.duration).size ≠ .undefined)) ∧
      (¬ n.IsAccepted → ∃ counter, i' = { i with counter }) := by
  by_cases accepted : n.IsAccepted
  · obtain ⟨i', pair, ran, isPair, queue⟩ := Instrument.Work.on_schedule_accepted i inRange accepted
    obtain ⟨notEarly, notShort, -⟩ := ScheduledNote.isAccepted_iff.mp accepted
    have sum := isSum notEarly notShort
    refine ⟨_, i', ran, ScheduledNote.isAccepted_iff, ?_, fun _ => ⟨pair, isPair, queue, ?_, ?_⟩,
      absurd accepted⟩
    · unfold Pitch.spelling
      rw [and_iff_right accepted, ← Bool.and_eq_true]
      split <;> rename_i written <;> simp [written, Except.isOk, Except.toBool, Except.map]
    · rw [isPair.strike_first_iff]
      exact sum.lt_iff
    · rw [isPair.release_first_iff, or_iff_right sum.not_lt]
      exact sum.beq_iff
  · obtain ⟨fault, counter, ran⟩ := Instrument.Work.on_schedule_refused i inRange accepted
    refine ⟨_, _, ran, ScheduledNote.isAccepted_iff, ?_, fun holds => absurd holds accepted,
      fun _ => ⟨counter, rfl⟩⟩
    exact iff_of_false (by simp [Except.isOk, Except.toBool]) fun holds => accepted holds.1

/-- An instrument without an output. -/
def silent : Instrument Float :=
  .ofSelection { attempted := none, opened := none, printed := "", notices := [] } .null
    Midi.firstChannel none fun _ => true

/-- A middle C of one second. -/
def secondFrom (start : Float) : ScheduledNote Float := ⟨⟨.c, 0, 4⟩, start, 1.0, 0.5⟩

open Decimal in
/-- Beyond `2 ^ 53`, a second moves a start whose last digit is odd: the strike goes out first. -/
theorem scheduling_order_odd :
    (0 ≤ (secondFrom 9007199254740994.0).pitch.number ∧
      (secondFrom 9007199254740994.0).pitch.number ≤ 127) ∧
    ∃ i', (Instrument.Work.schedule (secondFrom 9007199254740994.0)).on silent = (.ok (), i') ∧
      ∃ pair, (secondFrom 9007199254740994.0).IsPair pair ∧ i'.queue.Perm [pair.1, pair.2] ∧
        pair.1.before pair.2 = true := by
  have inRange : 0 ≤ (secondFrom 9007199254740994.0).pitch.number ∧
      (secondFrom 9007199254740994.0).pitch.number ≤ 127 := by decide
  obtain ⟨outcome, i', ran, accepts, through, pairs, -⟩ := scheduling_order silent _ inRange
  have accepted := accepts.mpr ⟨by decide +kernel, by decide +kernel, by decide +kernel⟩
  obtain ⟨pair, isPair, queue, first, -⟩ := pairs accepted
  have start : (Double.ofFloat 9007199254740994.0).size = .finite (2 ^ 52 + 1) 1 := by
    decide +kernel
  have length : (Double.ofFloat 1.0).size = .finite (2 ^ 52) (-52) := by decide +kernel
  have moves : Moves (Double.ofFloat 9007199254740994.0).size (Double.ofFloat 1.0).size := by
    rw [start, length]
    exact .inr ⟨by norm_num, by decide⟩
  have ok := through.mpr ⟨accepted, by decide +kernel, by decide +kernel⟩
  cases outcome with
  | error fault => cases ok
  | ok done => exact ⟨inRange, i', ran, pair, isPair, queue, first.mpr moves⟩

/-- At `2 ^ 53` itself it does not: the call gets through, but the release goes out before the
strike. -/
theorem released_before_struck :
    ∃ i' pair,
      (Instrument.Work.schedule (secondFrom 9007199254740992.0)).on silent = (.ok (), i') ∧
      (secondFrom 9007199254740992.0).IsPair pair ∧ i'.queue.Perm [pair.1, pair.2] ∧
      pair.1.before pair.2 = false ∧ pair.2.before pair.1 = true := by
  have accepted : (secondFrom 9007199254740992.0).IsAccepted :=
    ScheduledNote.isAccepted_iff.mpr ⟨by decide +kernel, by decide +kernel, by decide +kernel⟩
  have written : (secondFrom 9007199254740992.0).pitch.spelling = .ok _ :=
    Pitch.spelling_eq (by decide) (by decide)
  obtain ⟨i', pair, ran, isPair, queue⟩ :=
    Instrument.Work.on_schedule_accepted silent (by decide) accepted
  rw [written] at ran
  refine ⟨i', pair, ran, isPair, queue, ?_, isPair.release_first_iff.mpr (.inr ?_)⟩
  · rw [← Bool.not_eq_true, isPair.strike_first_iff]
    decide +kernel
  · decide +kernel

end Keysong
