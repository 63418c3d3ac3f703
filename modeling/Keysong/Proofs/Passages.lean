import Keysong.Proofs.FileReading

/-!
# Where the calls lie in a track

A track is built call by call.  Each call waits, strikes its notes together, and releases them
together when its length is over.  This module gives every call its place: where it starts and ends,
and which numbers its messages have.

## Main Definitions

* `Passage` — the notes of a call, with the ticks at which they are struck and released
* `Passage.pairs`, `Passage.messages` — its strikes with their releases, and both in one row
* `Lays` — calls that lie one behind the other

## Main Statements

* `Decimal.one_le_of_wholePart` — a quotient of one and more is not cut to nothing
* `Track.ticksOf_pos_iff` — which lengths are cut to nothing
* `exists_lays` — the messages of a track are those of the calls that it has taken
* `Lays.pairwise`, `Lays.serials` — the calls do not overlap, and no two messages share a number

### When a call has no ticks

Lengths are scaled to the resolution of the track, and what is behind the point is cut.  A beat has
eight thirty-second notes, so at a resolution below eight the shortest lengths are less than a tick,
and the call ends where it starts.  At eight and more none does.
-/

namespace Keysong

/-! ## Lengths in ticks -/

namespace Decimal

theorem leadingBit_le (num den : Nat) : leadingBit num den ≤ num.log2 - den.log2 := by
  unfold leadingBit
  dsimp only
  split <;> omega

/-- The quotient is not below one at the exponent that its leading digit asks for. -/
theorem den_mul_le {num den : Nat} (some : num ≠ 0) {e : Nat}
    (exponent : (e : Int) + 1 ≤ num.log2 - den.log2) : den * 2 ^ e ≤ num := by
  calc den * 2 ^ e ≤ 2 ^ (den.log2 + 1) * 2 ^ e :=
        Nat.mul_le_mul_right _ Nat.lt_log2_self.le
    _ = 2 ^ (den.log2 + 1 + e) := (Nat.pow_add ..).symm
    _ ≤ 2 ^ num.log2 := Nat.pow_le_pow_right (by decide) (by omega)
    _ ≤ num := Nat.log2_self_le some

/-- At an exponent that is not too large, a quotient of one and more keeps a digit in front of the
point. -/
theorem one_le_scaled {num den : Nat} {e : Int} (pos : 0 < den) (large : den ≤ num)
    (below : 0 ≤ e → den * pow2 e.toNat ≤ num) :
    1 ≤ roundDiv (num * pow2 (-e).toNat) (den * pow2 e.toNat) * pow2 e.toNat / pow2 (-e).toNat := by
  have one : pow2 0 = 1 := rfl
  rcases Int.le_total e 0 with fine | coarse
  · rw [Int.toNat_eq_zero.mpr fine, one, Nat.mul_one, Nat.mul_one]
    refine Nat.div_pos (le_trans ?_ (le_roundDiv _ _)) (Nat.two_pow_pos _)
    rw [Nat.le_div_iff_mul_le pos, Nat.mul_comm]
    exact Nat.mul_le_mul_right _ large
  · rw [Int.toNat_eq_zero.mpr (Int.neg_nonpos_of_nonneg coarse), one, Nat.div_one, Nat.mul_one]
    have digit : 1 ≤ num / (den * pow2 e.toNat) :=
      Nat.div_pos (below coarse) (Nat.mul_pos pos (Nat.two_pow_pos _))
    exact Nat.mul_pos (digit.trans (le_roundDiv _ _)) (Nat.two_pow_pos _)

/-- A quotient of one and more is not cut to nothing. -/
theorem one_le_of_wholePart {num den n : Nat} (pos : 0 < den) (large : den ≤ num)
    (whole : wholePart num den = some n) : 1 ≤ n := by
  have some : num ≠ 0 := by omega
  have bit := leadingBit_le num den
  unfold wholePart nearestDouble at whole
  rw [if_neg some] at whole
  dsimp only at whole
  split at whole
  · cases whole
  · obtain rfl := Option.some.inj whole
    exact one_le_scaled pos large fun _ => den_mul_le some (by omega)

end Decimal

namespace Midi.Track

theorem wholePart_small : ∀ j < 8, Decimal.wholePart (60 * j) standardResolution = some 0 := by
  decide +kernel

/-- A code has ticks unless its thirty-second notes and the resolution are too few. -/
theorem ticksOf_pos_iff {resolution ticks : Nat} {code : String}
    (known : ticksOf resolution code = .ok ticks) :
    0 < ticks ↔ 8 ≤ (NoteValue.ofCode code).units * resolution := by
  have scaled : (NoteValue.ofCode code).ticks * resolution =
      60 * ((NoteValue.ofCode code).units * resolution) := Nat.mul_assoc ..
  unfold ticksOf at known
  rw [scaled] at known
  generalize (NoteValue.ofCode code).units * resolution = units at known
  constructor
  · intro pos
    by_contra few
    rw [wholePart_small units (by omega)] at known
    obtain rfl := Except.ok.inj known
    exact absurd pos (Nat.lt_irrefl 0)
  · intro many
    split at known
    · rename_i whole
      obtain rfl := Except.ok.inj known
      exact Decimal.one_le_of_wholePart (by decide) (by unfold standardResolution; omega) whole
    · cases known

end Midi.Track

/-! ## Passages -/

namespace Midi

/-- What a call puts into a track: notes that are struck together at one tick and released together
at another.  Its messages are numbered from `serial` on. -/
structure Passage where
  start : Nat
  stop : Nat
  serial : Nat
  strength : Data
  notes : List Data

/-- The strikes of notes, each with its release. -/
def pairsFrom (channel : Channel) (start stop : Nat) (strength : Data) :
    Nat → List Data → List (Placed × Placed)
  | _, [] => []
  | serial, note :: rest =>
    ({ tick := start, isStrike := true, serial, message := .noteOn channel note strength },
      { tick := stop, isStrike := false, serial := serial + 1
        message := .noteOff channel note noStrength })
    :: pairsFrom channel start stop strength (serial + 2) rest

namespace Passage

/-- The strikes of a passage, each with its release. -/
def pairs (channel : Channel) (p : Passage) : List (Placed × Placed) :=
  pairsFrom channel p.start p.stop p.strength p.serial p.notes

/-- The messages of a passage: every strike in front of its release. -/
def messages (channel : Channel) (p : Passage) : List Placed :=
  (p.pairs channel).flatMap fun pair => [pair.1, pair.2]

/-- The number behind those of a passage. -/
def nextSerial (p : Passage) : Nat := p.serial + 2 * p.notes.length

/-- One passage is over before another begins, and its messages have the smaller numbers. -/
def Before (p q : Passage) : Prop := p.stop ≤ q.start ∧ p.nextSerial ≤ q.serial

end Passage

/-- How calls lie in a track: each behind the one before it and its own waiting, for as long as its
code says, with its messages numbered on. -/
inductive Lays (resolution : Nat) : Nat → Nat → List TimedNote → List Passage → Nat → Prop
  | nil (cursor serial : Nat) : Lays resolution cursor serial [] [] cursor
  | cons {call : TimedNote} {calls : List TimedNote} {notes : List Data} {waited length : Nat}
      {strength : Data} {passages : List Passage} {cursor serial last : Nat}
      (numbers : Track.notesOf call.numbers = .ok notes)
      (wait : Track.ticksOfAll resolution call.wait = .ok waited)
      (long : Track.ticksOf resolution call.code = .ok length)
      (strong : attack call.velocity = .ok strength)
      (behind : Lays resolution (cursor + waited + length) (serial + 2 * notes.length) calls
        passages last) :
      Lays resolution cursor serial (call :: calls)
        (⟨cursor + waited, cursor + waited + length, serial, strength, notes⟩ :: passages) last

variable {channel : Channel} {start stop serial : Nat} {strength : Data} {notes : List Data}

theorem placeNotes_eq_pairs (channel : Channel) (start stop : Nat) (strength : Data) (serial : Nat)
    (notes : List Data) :
    Track.placeNotes channel start stop strength serial notes =
      (pairsFrom channel start stop strength serial notes).flatMap fun pair =>
        [pair.1, pair.2] := by
  induction notes generalizing serial with
  | nil => rfl
  | cons note rest ih =>
    rw [Track.placeNotes, ih, pairsFrom, List.flatMap_cons]
    rfl

/-- What a strike of a passage and its release look like. -/
theorem of_mem_pairsFrom {pair : Placed × Placed}
    (mem : pair ∈ pairsFrom channel start stop strength serial notes) :
    ∃ note ∈ notes, ∃ n, serial ≤ n ∧ n + 1 < serial + 2 * notes.length ∧
      pair = (⟨start, true, n, .noteOn channel note strength⟩,
        ⟨stop, false, n + 1, .noteOff channel note noStrength⟩) := by
  induction notes generalizing serial with
  | nil => cases mem
  | cons note rest ih =>
    rcases List.mem_cons.mp mem with rfl | mem
    · exact ⟨note, List.mem_cons_self, serial, le_rfl, by rw [List.length_cons]; omega, rfl⟩
    · obtain ⟨other, here, n, least, most, same⟩ := ih mem
      exact ⟨other, List.mem_cons_of_mem note here, n, by omega, by rw [List.length_cons]; omega,
        same⟩

/-- Every note of a passage is struck and released. -/
theorem exists_mem_pairsFrom {note : Data} (mem : note ∈ notes) :
    ∃ n, (⟨start, true, n, .noteOn channel note strength⟩,
      ⟨stop, false, n + 1, .noteOff channel note noStrength⟩) ∈
        pairsFrom channel start stop strength serial notes := by
  induction notes generalizing serial with
  | nil => cases mem
  | cons other rest ih =>
    rcases List.mem_cons.mp mem with rfl | mem
    · exact ⟨serial, List.mem_cons_self⟩
    · obtain ⟨n, here⟩ := @ih (serial + 2) mem
      exact ⟨n, List.mem_cons_of_mem _ here⟩

/-- Messages that are placed together are numbered one by one. -/
theorem serials_pairsFrom :
    ((pairsFrom channel start stop strength serial notes).flatMap fun pair =>
      [pair.1, pair.2]).map Placed.serial = List.range' serial (2 * notes.length) := by
  induction notes generalizing serial with
  | nil => rfl
  | cons note rest ih =>
    have two : 2 * (note :: rest).length = 2 * rest.length + 1 + 1 := by
      rw [List.length_cons]
      omega
    rw [pairsFrom, List.flatMap_cons, List.map_append, ih, two, List.range'_succ, List.range'_succ]
    rfl

theorem length_placeNotes :
    (Track.placeNotes channel start stop strength serial notes).length = 2 * notes.length := by
  rw [placeNotes_eq_pairs, ← List.length_map Placed.serial, serials_pairsFrom, List.length_range']

/-- The numbers of the notes that a track takes are those that it is given. -/
theorem numbers_of_notesOf {numbers : List Int} {notes : List Data}
    (taken : Track.notesOf numbers = .ok notes) :
    numbers = notes.map (fun note => (note.val : Int)) ∧ notes ≠ [] := by
  unfold Track.notesOf at taken
  split at taken
  · cases taken
  rename_i some
  have same : numbers = notes.map fun note => (note.val : Int) := by
    clear some
    induction numbers generalizing notes with
    | nil =>
      obtain rfl := Except.ok.inj taken
      rfl
    | cons n rest ih =>
      rw [List.mapM_cons] at taken
      obtain ⟨note, here, taken⟩ := exists_of_bind taken
      obtain ⟨others, behind, same⟩ := exists_of_bind taken
      obtain rfl := Except.ok.inj same
      rw [List.map_cons, ← ih behind]
      unfold noteOf? at here
      split at here
      · rename_i note' found
        split at found
        · obtain rfl := Option.some.inj found
          obtain rfl := Except.ok.inj here
          exact congrArg (· :: rest) (by simp; omega)
        · cases found
      · cases here
  exact ⟨same, fun none => some (by rw [same, none]; rfl)⟩

/-- What is struck has a strength. -/
theorem ne_noStrength_of_attack {velocity : Float} {strength : Data}
    (strong : attack velocity = .ok strength) : strength ≠ noStrength := by
  unfold attack at strong
  dsimp only at strong
  split at strong
  · cases strong
  · cases strong
  · obtain rfl := Except.ok.inj strong
    intro none
    have zero := congrArg Fin.val none
    simp only [strengthOf, noStrength] at zero
    omega

/-! ## Calls -/

/-- **Calls that are all taken lie in the track one behind the other.** -/
theorem exists_lays {t t' : Track} {calls : List TimedNote} (taken : t.addAll calls = .ok t') :
    ∃ passages, Lays t.resolution t.cursor t.placed.length calls passages t'.cursor ∧
      t'.placed = t.placed ++ passages.flatMap (Passage.messages t.channel) ∧
      t.Extends t' := by
  induction calls generalizing t with
  | nil =>
    obtain rfl := Except.ok.inj taken
    exact ⟨[], .nil .., (List.append_nil _).symm, .refl t⟩
  | cons call calls ih =>
    unfold Track.addAll at taken
    rw [List.foldlM_cons] at taken
    obtain ⟨next, added, taken⟩ := exists_of_bind taken
    have step := Track.extends_add added
    obtain ⟨notes, waited, length, strength, numbers, wait, long, strong⟩ :=
      Track.exists_of_add added
    rw [Track.add_eq t call numbers wait long strong] at added
    obtain rfl := Except.ok.inj added
    obtain ⟨passages, lays, placed, behind⟩ := ih taken
    rw [List.length_append, length_placeNotes] at lays
    refine ⟨_, .cons numbers wait long strong lays, ?_, step.trans behind⟩
    rw [placed, List.append_assoc, List.flatMap_cons, placeNotes_eq_pairs]
    rfl

section Laid

variable {resolution cursor last : Nat} {calls : List TimedNote} {passages : List Passage}

/-- Passages lie between the cursors, and none ends before it starts. -/
theorem Lays.between (lays : Lays resolution cursor serial calls passages last) :
    cursor ≤ last ∧ ∀ p ∈ passages, cursor ≤ p.start ∧ p.start ≤ p.stop ∧ p.stop ≤ last ∧
      serial ≤ p.serial := by
  induction lays with
  | nil => exact ⟨le_rfl, fun p mem => absurd mem List.not_mem_nil⟩
  | cons numbers wait long strong lays ih =>
    obtain ⟨forth, inside⟩ := ih
    refine ⟨by omega, List.forall_mem_cons.mpr ⟨⟨?_, ?_, ?_, ?_⟩, fun p mem => ?_⟩⟩
    · exact Nat.le_add_right _ _
    · exact Nat.le_add_right _ _
    · exact forth
    · exact le_rfl
    · obtain ⟨first, second, third, fourth⟩ := inside p mem
      omega

/-- Passages lie one behind the other. -/
theorem Lays.pairwise (lays : Lays resolution cursor serial calls passages last) :
    passages.Pairwise Passage.Before := by
  induction lays with
  | nil => exact .nil
  | cons numbers wait long strong lays ih =>
    refine List.pairwise_cons.mpr ⟨fun q mem => ?_, ih⟩
    obtain ⟨first, -, -, fourth⟩ := lays.between.2 q mem
    exact ⟨first, fourth⟩

/-- The messages of passages are numbered one by one. -/
theorem Lays.serials (lays : Lays resolution cursor serial calls passages last)
    (channel : Channel) : ∃ n, (passages.flatMap (Passage.messages channel)).map Placed.serial =
      List.range' serial n := by
  induction lays with
  | nil => exact ⟨0, rfl⟩
  | @cons call calls notes waited length strength passages cursor serial last numbers wait long
      strong lays ih =>
    obtain ⟨n, same⟩ := ih
    refine ⟨2 * notes.length + n, ?_⟩
    rw [List.flatMap_cons, List.map_append, same, Passage.messages, Passage.pairs,
      serials_pairsFrom, List.range'_append_1]

/-- A call has ticks unless its thirty-second notes and the resolution are too few. -/
theorem Lays.lengths (lays : Lays resolution cursor serial calls passages last) :
    List.Forall₂ (fun call p => p.start < p.stop ↔
      8 ≤ (NoteValue.ofCode call.code).units * resolution) calls passages := by
  induction lays with
  | nil => exact .nil
  | cons numbers wait long strong lays ih =>
    exact .cons (by rw [← Track.ticksOf_pos_iff long]; exact Nat.lt_add_right_iff_pos) ih

/-- At a resolution of eight and more, every call has ticks. -/
theorem Lays.long (lays : Lays resolution cursor serial calls passages last)
    (fine : 8 ≤ resolution) : ∀ p ∈ passages, p.start < p.stop := by
  induction lays with
  | nil => exact fun p mem => absurd mem List.not_mem_nil
  | @cons call _ _ _ _ _ _ _ _ _ numbers wait long strong lays ih =>
    have units := (NoteValue.ofCode call.code).units_pos
    have ticks := (Track.ticksOf_pos_iff long).mpr (fine.trans (Nat.le_mul_of_pos_left _ units))
    exact List.forall_mem_cons.mpr ⟨Nat.lt_add_of_pos_right ticks, ih⟩

theorem Lays.distinct (lays : Lays resolution cursor serial calls passages last)
    (once : ∀ call ∈ calls, call.numbers.Nodup) : ∀ p ∈ passages, p.notes.Nodup := by
  induction lays with
  | nil => exact fun p mem => absurd mem List.not_mem_nil
  | cons numbers wait long strong lays ih =>
    obtain ⟨here, behind⟩ := List.forall_mem_cons.mp once
    refine List.forall_mem_cons.mpr ⟨?_, ih behind⟩
    rw [(numbers_of_notesOf numbers).1] at here
    exact List.Nodup.of_map _ here

theorem Lays.loud (lays : Lays resolution cursor serial calls passages last) :
    ∀ p ∈ passages, p.notes ≠ [] ∧ p.strength ≠ noStrength := by
  induction lays with
  | nil => exact fun p mem => absurd mem List.not_mem_nil
  | cons numbers wait long strong lays ih =>
    exact List.forall_mem_cons.mpr
      ⟨⟨(numbers_of_notesOf numbers).2, ne_noStrength_of_attack strong⟩, ih⟩

/-- The last passage ends at the cursor. -/
theorem Lays.exists_stop (lays : Lays resolution cursor serial calls passages last) :
    passages = [] ∧ last = cursor ∨ ∃ p ∈ passages, p.stop = last := by
  induction lays with
  | nil => exact .inl ⟨rfl, rfl⟩
  | cons numbers wait long strong lays ih =>
    refine .inr ?_
    rcases ih with ⟨-, same⟩ | ⟨p, mem, stop⟩
    · exact ⟨_, List.mem_cons_self, same.symm⟩
    · exact ⟨p, List.mem_cons_of_mem _ mem, stop⟩

end Laid

end Midi

end Keysong
