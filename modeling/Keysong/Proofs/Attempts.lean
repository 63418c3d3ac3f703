import Keysong.Proofs.Retiring

/-!
# What a reset attempts

An instrument is silenced by a row of messages: a release for every note that sounds, and then all
notes off.  The notes that sound are forgotten first, and the row is sent as one piece.  Over an
output that may lose any of its messages, this module says which of them are attempted.

## Main Definitions

* `Output.LosesLast` — the last of some messages gets lost
* `Attempts` — a row of messages is sent up to the first that gets lost

## Main Statements

* `attempts_sendAll` — sending a row of messages attempts them so
* `attempts_clear` — so does clearing an instrument, and what is left is forgotten
* `resets_attempt` — so does every reset of a run

### What one lost message costs

A message that gets lost ends the row.  Everything behind it is left out, all notes off included,
and the next reset does not make up for it, because the notes no longer count as sounding.  So a
reset attempts everything if and only if every release gets through.
-/

namespace Keysong

open Instrument

variable {τ : Type}

namespace Instrument

/-- The last of some messages gets lost. -/
def Output.LosesLast (output : Output) (tried : List Midi.Message) : Prop :=
  ∃ k, k + 1 = tried.length ∧ output.carries (output.attempts + k) = false

/-- Between two states, the first messages of a row were attempted and the others left out. -/
structure Attempts (now : τ) (output : Output) (tried left : List Midi.Message)
    (i i' : Instrument τ) : Prop where
  /-- Every attempt is a deed, which tells whether the message got through. -/
  deeds : i'.deeds = i.deeds ++ (tried.zipIdx output.attempts).map fun (m, k) =>
    .silenced now m (output.carries k)
  counted : i'.output = some { output with attempts := output.attempts + tried.length }
  through : ∀ k, k + 1 < tried.length → output.carries (output.attempts + k) = true
  stops : left ≠ [] → output.LosesLast tried
  /-- One report is all that is said about what got lost and what was left out. -/
  reports : output.LosesLast tried ∧
      i'.notices = i.notices ++ [⟨.error, "MIDI panic failed (device may be disconnected)"⟩] ∨
    ¬ output.LosesLast tried ∧ i'.notices = i.notices

/-- **A row of messages is sent up to the first that gets lost.** -/
theorem attempts_sendAll (now : τ) (messages : List Midi.Message) {i : Instrument τ}
    {output : Output} (isOpen : i.output = some output) :
    ∃ tried left, messages = tried ++ left ∧ (messages ≠ [] → tried ≠ []) ∧
      Attempts now output tried left i (sendAll now i messages) := by
  induction messages generalizing i output with
  | nil =>
    have nothing : ¬ output.LosesLast [] := by
      rintro ⟨k, same, -⟩
      cases same
    refine ⟨[], [], rfl, id, (List.append_nil _).symm, isOpen, ?_, ?_, .inr ⟨nothing, rfl⟩⟩
    · intro k inside
      cases inside
    · intro some
      exact absurd rfl some
  | cons message rest ih =>
    have sent : i.send = ({ i with output := some { output with attempts := output.attempts + 1 } },
        output.carries output.attempts) := by
      unfold send
      rw [isOpen]
    unfold sendAll
    rw [sent]
    dsimp only
    cases reached : output.carries output.attempts with
    | true =>
      rw [if_pos rfl]
      obtain ⟨tried, left, row, -, attempts⟩ := @ih
        { i with
          output := some { output with attempts := output.attempts + 1 }
          deeds := i.deeds ++ [.silenced now message true] } _ rfl
      have numbers (k : Nat) : output.attempts + (k + 1) = output.attempts + 1 + k := by omega
      -- the last of the others is the last of them all, since the first got through
      have last : output.LosesLast (message :: tried) ↔
          Output.LosesLast { output with attempts := output.attempts + 1 } tried := by
        constructor
        · rintro ⟨k, length, lost⟩
          cases k with
          | zero => exact Bool.noConfusion (reached.symm.trans lost)
          | succ k => exact ⟨k, Nat.succ.inj length, numbers k ▸ lost⟩
        · rintro ⟨k, length, lost⟩
          exact ⟨k + 1, congrArg Nat.succ length, (numbers k).symm ▸ lost⟩
      refine ⟨message :: tried, left, congrArg (message :: ·) row,
        fun _ => List.cons_ne_nil _ _, ?_, ?_, ?_, ?_, ?_⟩
      · rw [attempts.deeds, List.append_assoc, List.zipIdx_cons, List.map_cons]
        dsimp only
        rw [reached]
        rfl
      · rw [attempts.counted, List.length_cons, Nat.add_assoc, Nat.add_comm 1]
      · intro k inside
        cases k with
        | zero => exact reached
        | succ k =>
          rw [numbers]
          exact attempts.through k (Nat.lt_of_succ_lt_succ inside)
      · intro some
        exact last.mpr (attempts.stops some)
      · rw [last]
        exact attempts.reports
    | false =>
      have lost : output.LosesLast [message] := ⟨0, rfl, reached⟩
      rw [if_neg Bool.false_ne_true]
      refine ⟨[message], rest, rfl, fun _ => List.cons_ne_nil _ _, ?_, rfl, ?_, fun _ => lost,
        .inl ⟨lost, rfl⟩⟩
      · rw [List.zipIdx_cons, List.map_cons]
        dsimp only
        rw [reached]
        rfl
      · intro k inside
        exact absurd (Nat.lt_of_succ_lt_succ inside) (Nat.not_lt_zero k)

variable [Quantity τ]

/-- **Clearing an instrument attempts the messages that silence it up to the first that gets lost.**
What is left out is forgotten, and nothing is left out if and only if every release gets through. -/
theorem attempts_clear (now : τ) {i : Instrument τ} {output : Output}
    (isOpen : i.output = some output) :
    ∃ tried left, i.silencing = tried ++ left ∧ tried ≠ [] ∧
      Attempts now output tried left i (i.clear now) ∧ (i.clear now).sounding = [] ∧
      (left = [] ↔ ∀ k < i.sounding.length, output.carries (output.attempts + k) = true) := by
  obtain ⟨tried, left, row, some, attempts⟩ := attempts_sendAll now i.silencing
    (i := { i with running := false, queue := [], counter := 0, startTime := Quantity.zero
                   sounding := [] }) isOpen
  have sent : i.clear now = sendAll now { i with
      running := false, queue := [], counter := 0, startTime := Quantity.zero
      sounding := [] } i.silencing := by
    unfold clear silence
    dsimp only
    rw [isOpen]
    rfl
  have length : i.sounding.length + 1 = tried.length + left.length := by
    rw [← List.length_append, ← row, silencing, List.length_append, List.length_map]
    rfl
  refine ⟨tried, left, row, some (by simp [silencing]), ?_, sounding_silence now _, ?_⟩
  · rw [sent]
    exact ⟨attempts.deeds, attempts.counted, attempts.through, attempts.stops, attempts.reports⟩
  · constructor
    · rintro rfl k inside
      rw [List.length_nil] at length
      exact attempts.through k (by omega)
    · intro through
      by_contra more
      obtain ⟨k, last, lost⟩ := attempts.stops more
      have behind := List.length_pos_iff.mpr more
      exact Bool.noConfusion (lost.symm.trans (through k (by omega)))

end Instrument

variable [Quantity τ]

namespace Stage

/-- A move of a caller is what its action does. -/
def Move.IsFaithful (m : Move τ) : Prop :=
  ∀ action, m.action = some action → ∃ n, m.after = (m.before.act n action).1

/-- **The moves of a run are what their actions do.** -/
theorem isFaithful_of_mem_moves (s : Stage τ) (turns : List (Turn τ)) :
    ∀ m ∈ s.moves turns, Move.IsFaithful m := by
  have keeps : Keeps (τ := τ) (fun h _ _ _ => ∀ m ∈ h, Move.IsFaithful m)
      (fun _ h _ _ _ => ∀ m ∈ h, Move.IsFaithful m) :=
    { begins := fun _ holds => holds
      acts := fun {h s todo n action rest} holds _ _ _ =>
        List.forall_mem_append.mpr ⟨holds, List.forall_mem_singleton.mpr fun other same =>
          ⟨n, by rw [← Option.some.inj same]⟩⟩
      rests := fun holds _ => holds
      steps := fun holds _ =>
        List.forall_mem_append.mpr ⟨holds, List.forall_mem_singleton.mpr nofun⟩ }
  exact moves_invariant keeps (h := []) (fun m mem => absurd mem List.not_mem_nil) turns

end Stage

/-- **A reset attempts what silences the instrument up to the first message that gets lost.**
Whatever callers do on a stage and whatever turns are taken, every time a reset comes to clear an
instrument with an open output, and whichever messages that output loses: the releases of the notes
that sound and then all notes off are attempted in this order up to the first that gets lost, each
attempt is a deed, and one report is made if something got lost.  No note counts as sounding any
more, also none whose release was left out; and nothing was left out if and only if every release
got through. -/
theorem resets_attempt (s : Stage τ) (turns : List (Turn τ)) (m : Move τ) (mem : m ∈ s.moves turns)
    (clears : m.action = some .clear) (output : Output)
    (isOpen : m.before.instrument.output = some output) :
    ∃ tried left, m.before.instrument.silencing = tried ++ left ∧ tried ≠ [] ∧
      Attempts m.before.now output tried left m.before.instrument m.after.instrument ∧
      m.after.instrument.sounding = [] ∧
      (left = [] ↔ ∀ k < m.before.instrument.sounding.length,
        output.carries (output.attempts + k) = true) := by
  obtain ⟨n, after⟩ := Stage.isFaithful_of_mem_moves s turns m mem .clear clears
  rw [after]
  exact attempts_clear m.before.now isOpen

/-! ### One lost message -/

/-- An instrument whose output loses the third message that is sent, and no other. -/
def faltering : Instrument Rat :=
  ofSelection { attempted := some "Synth", opened := some "Synth", printed := "", notices := [] }
    .null Midi.firstChannel none fun k => k != 2

/-- A player of two notes, and one who resets. -/
def third : List (Program Rat) :=
  [[.schedule ⟨⟨.c, 0, 4⟩, 0, 1, 0.5⟩, .schedule ⟨⟨.e, 0, 4⟩, 0, 1, 0.5⟩, .cancel, .launch],
    Call.actions .reset]

/-- Both notes have been struck when the reset cancels the loop. -/
def broken : List (Turn Rat) :=
  [.of (.caller 0), .of (.loop 0), .of (.caller 1), .of (.loop 0), .of (.caller 1)]

/-- The reset of a broken third is a move to which this applies. -/
theorem resets_attempt_third :
    ∃ m ∈ (Stage.staffed 0 faltering third).moves broken, m.action = some .clear ∧
      ∃ output, m.before.instrument.output = some output ∧
        m.before.instrument.sounding = [60, 64] ∧
        ∃ tried left, m.before.instrument.silencing = tried ++ left ∧ tried ≠ [] ∧
          Attempts m.before.now output tried left m.before.instrument m.after.instrument ∧
          m.after.instrument.sounding = [] ∧
          (left = [] ↔ ∀ k < m.before.instrument.sounding.length,
            output.carries (output.attempts + k) = true) := by
  have found : (((Stage.staffed 0 faltering third).moves broken).any fun m =>
      m.action.any Action.isClear && m.before.instrument.output.isSome &&
        decide (m.before.instrument.sounding = [60, 64])) = true := by
    decide +kernel
  obtain ⟨m, mem, fits⟩ := List.any_eq_true.mp found
  simp only [Bool.and_eq_true, decide_eq_true_eq, Option.isSome_iff_exists] at fits
  obtain ⟨⟨clears, output, isOpen⟩, sounding⟩ := fits
  have clears : m.action = some .clear := by
    cases done : m.action with
    | none =>
      rw [done] at clears
      cases clears
    | some action =>
      rw [done] at clears
      cases action with
      | clear => rfl
      | _ => cases clears
  exact ⟨m, mem, clears, output, isOpen, sounding,
    resets_attempt (Stage.staffed 0 faltering third) broken m mem clears output isOpen⟩

/-- **One lost message keeps another note from being released.**  Two notes have been struck; the
release of the first gets lost, and neither the release of the second nor all notes off is
attempted, though both would get through. -/
theorem third_left_sounding :
    ((Stage.staffed 0 faltering third).run broken).instrument.deeds.map
        (fun d => (d.message? Midi.firstChannel, d.reached)) =
      [(some (.noteOn 0 60 64), true), (some (.noteOn 0 64 64), true),
        (some (.noteOff 0 60 0), false)] ∧
    ((Stage.staffed 0 faltering third).run broken).instrument.sounding = [] ∧
    ((Stage.staffed 0 faltering third).run broken).instrument.output.map
        (fun output => (List.range 6).map output.carries) =
      some [true, true, false, true, true, true] := by
  refine ⟨?_, ?_, ?_⟩ <;> decide +kernel

end Keysong
