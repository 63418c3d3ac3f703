import Keysong.Proofs.Quotients
import Keysong.Proofs.Refusals
import Keysong.Proofs.Releasing

/-!
# What is cut off adds up

A track scales every length to its resolution by itself, cuts what is behind the point, and adds
the rest to its cursor.  This module follows what was cut off through any row of calls, and says at
which resolutions nothing is.

## Main Definitions

* `NoteValue.ticksAt`, `NoteValue.slip` — the ticks of a length, and what is cut off it
* `pasts` — for each note of a row, the lengths of everything before it
* `exactTick` — where a note would start without rounding
* `Track.KeepsWithin` — whether all starts stay within a bound of that

## Main Statements

* `NoteValue.slip_of_lt` — what is cut off a length
* `isExactAt_iff` — at which resolutions nothing is cut off
* `Lays.starts` — a note starts at the sum of the ticks of everything before it
* `slips_add_up` — how far a note starts from its exact tick, and where a bound is kept

### Why there is no bound

The cursor remembers whole ticks only, so what is cut off one length is not there when the next is
scaled.  At a resolution that is no multiple of eight a thirty-second note loses the same part of a
tick every time, and a row of enough of them exceeds any bound.  The thirty-second note decides
alone: the other lengths are multiples of it by powers of two.
-/

namespace Keysong

/-! ## Lengths -/

namespace NoteValue

/-- The ticks of a length at a resolution; none where there is no double. -/
def ticksAt (resolution : Nat) (v : NoteValue) : Nat :=
  (Decimal.wholePart (v.ticks * resolution) Midi.Track.standardResolution).getD 0

/-- What is cut off a length at a resolution, in ticks. -/
def slip (resolution : Nat) (v : NoteValue) : ℚ := resolution * v.beats - v.ticksAt resolution

theorem beats_eq (v : NoteValue) : (v.beats : ℚ) = v.units / 8 := by
  show ((v.units : Nat) : ℚ) / ((8 : Nat) : ℚ) = _
  norm_num

theorem ticks_mul (v : NoteValue) (resolution : Nat) :
    v.ticks * resolution = 60 * (v.units * resolution) := Nat.mul_assoc ..

/-- The lengths in thirty-second notes are powers of two. -/
theorem units_eq_pow (v : NoteValue) : ∃ k ≤ 5, v.units = 2 ^ k := by
  cases v with
  | whole => exact ⟨5, by decide, rfl⟩
  | half => exact ⟨4, by decide, rfl⟩
  | quarter => exact ⟨3, by decide, rfl⟩
  | eighth => exact ⟨2, by decide, rfl⟩
  | sixteenth => exact ⟨1, by decide, rfl⟩
  | thirtySecond => exact ⟨0, by decide, rfl⟩

/-- **What is cut off:** at a resolution below `2 ^ 48`, the eighths of a tick that are left over
from the length. -/
theorem slip_of_lt {resolution : Nat} (pos : 0 < resolution) (few : resolution < 2 ^ 48)
    (v : NoteValue) : v.slip resolution = (v.units * resolution % 8 : Nat) / 8 := by
  obtain ⟨k, small, units⟩ := v.units_eq_pow
  have most : v.units ≤ 2 ^ 5 := units ▸ Nat.pow_le_pow_right (by decide) small
  have fits : v.units * resolution < 2 ^ 53 := by
    calc v.units * resolution ≤ 2 ^ 5 * resolution := Nat.mul_le_mul_right _ most
      _ < 2 ^ 53 := by omega
  have whole := Decimal.wholePart_of_lt (Nat.mul_pos v.units_pos pos).ne' fits
  have parts := Nat.div_add_mod (v.units * resolution) 8
  have parts' : (8 : ℚ) * ((v.units * resolution / 8 : Nat) : ℚ) +
      ((v.units * resolution % 8 : Nat) : ℚ) = v.units * resolution := by exact_mod_cast parts
  unfold slip ticksAt Midi.Track.standardResolution
  rw [ticks_mul, whole, Option.getD_some, beats_eq]
  linarith

end NoteValue

namespace Midi

variable {resolution : Nat} {code : String}

/-- A code that has ticks has those of its length. -/
theorem ticksAt_of_ticksOf {ticks : Nat} (known : Track.ticksOf resolution code = .ok ticks) :
    (NoteValue.ofCode code).ticksAt resolution = ticks := by
  unfold Track.ticksOf at known
  split at known
  · rename_i ticks whole
    obtain rfl := Except.ok.inj known
    exact congrArg (Option.getD · 0) whole
  · cases known

/-- Nothing is cut off a length whose thirty-second notes come to a multiple of eight with few
digits. -/
theorem slip_eq_zero_iff (pos : 0 < resolution) {ticks : Nat}
    (known : Track.ticksOf resolution code = .ok ticks) :
    (NoteValue.ofCode code).slip resolution = 0 ↔
      8 ∣ (NoteValue.ofCode code).units * resolution ∧
        Decimal.IsShort ((NoteValue.ofCode code).units * resolution : Nat) := by
  have same := ticksAt_of_ticksOf known
  unfold Track.ticksOf at known
  generalize NoteValue.ofCode code = v at *
  split at known
  · rename_i ticks whole
    obtain rfl := Except.ok.inj known
    rw [NoteValue.ticks_mul] at whole
    rw [← Decimal.eight_mul_wholePart_iff (Nat.mul_pos v.units_pos pos).ne' whole, NoteValue.slip,
      same, NoteValue.beats_eq, sub_eq_zero, mul_div_assoc', div_eq_iff (by norm_num),
      ← Nat.cast_inj (R := ℚ)]
    push_cast
    constructor <;> intro exact <;> linarith
  · cases known

/-- Which codes have ticks. -/
theorem exists_ticksOf_iff (pos : 0 < resolution) (code : String) :
    (∃ ticks, Track.ticksOf resolution code = .ok ticks) ↔
      (NoteValue.ofCode code).units * resolution < 8 * Decimal.tooLargeFrom := by
  unfold Track.ticksOf
  generalize NoteValue.ofCode code = v
  obtain ⟨⟨m, e⟩, known⟩ : ∃ p, Decimal.nearestDouble (v.units * resolution) 1 = p := ⟨_, rfl⟩
  have whole := Decimal.wholePart_eighths (Nat.mul_pos v.units_pos pos).ne' known
  rw [NoteValue.ticks_mul]
  unfold Track.standardResolution
  rw [whole]
  split
  · rename_i ticks found
    split at found
    · cases found
    · exact iff_of_true ⟨ticks, rfl⟩ (by omega)
  · rename_i found
    split at found
    · exact iff_of_false (by simp) (by omega)
    · cases found

/-- Whether the lengths that have ticks at a resolution have the exact number of them. -/
def IsExactAt (resolution : Nat) : Prop :=
  ∀ code ticks, Track.ticksOf resolution code = .ok ticks →
    (resolution : ℚ) * (NoteValue.ofCode code).beats = ticks

/-- Where lengths are not exact, the thirty-second note has ticks, and something is cut off. -/
theorem exists_slip (pos : 0 < resolution) (inexact : ¬ (8 ∣ resolution ∧
    Decimal.IsShort resolution ∨ 8 * Decimal.tooLargeFrom ≤ resolution)) :
    ∃ ticks, Track.ticksOf resolution NoteValue.thirtySecond.code = .ok ticks ∧
      NoteValue.thirtySecond.slip resolution ≠ 0 := by
  obtain ⟨coarse, few⟩ := not_or.mp inexact
  have length := NoteValue.ofCode_code .thirtySecond
  have one : NoteValue.thirtySecond.units * resolution = resolution := Nat.one_mul resolution
  have known := exists_ticksOf_iff pos NoteValue.thirtySecond.code
  rw [length, one] at known
  obtain ⟨ticks, known⟩ := known.mpr (by omega)
  refine ⟨ticks, known, fun zero => coarse ?_⟩
  have exact := slip_eq_zero_iff pos known
  rw [length, one] at exact
  exact exact.mp zero

/-- **At which resolutions lengths are exact:** the multiples of eight with few digits, and those at
which no length has ticks. -/
theorem isExactAt_iff (pos : 0 < resolution) : IsExactAt resolution ↔
    8 ∣ resolution ∧ Decimal.IsShort resolution ∨ 8 * Decimal.tooLargeFrom ≤ resolution := by
  constructor
  · intro exact
    by_contra inexact
    obtain ⟨ticks, known, slip⟩ := exists_slip pos inexact
    have same := ticksAt_of_ticksOf known
    have zero := exact _ _ known
    rw [NoteValue.ofCode_code] at same zero
    exact slip (by rw [NoteValue.slip, same, zero, sub_self])
  · intro fits code ticks known
    have few := (exists_ticksOf_iff pos code).mp ⟨ticks, known⟩
    have least := Nat.le_mul_of_pos_left resolution (NoteValue.ofCode code).units_pos
    obtain ⟨eight, digits⟩ := fits.resolve_right (by omega)
    have same := ticksAt_of_ticksOf known
    have zero := slip_eq_zero_iff pos known
    obtain ⟨k, -, units⟩ := (NoteValue.ofCode code).units_eq_pow
    rw [NoteValue.slip, same, sub_eq_zero] at zero
    refine zero.mpr ⟨eight.mul_left _, ?_⟩
    have scaled := digits.mul_zpow k
    rw [zpow_natCast, mul_comm] at scaled
    rw [units]
    exact_mod_cast scaled

/-! ## Starts -/

end Midi

/-- What is waited for before a note. -/
def TimedNote.rests (note : TimedNote) : List NoteValue := note.wait.map NoteValue.ofCode

namespace Midi

/-- For each note of a row, the lengths of all rests and notes before it. -/
def pasts : List NoteValue → List TimedNote → List (List NoteValue)
  | _, [] => []
  | past, note :: rest =>
    (past ++ note.rests) :: pasts (past ++ note.rests ++ [NoteValue.ofCode note.code]) rest

/-- Where a note would start without rounding: the quarter notes before it, in ticks. -/
def exactTick (resolution : Nat) (past : List NoteValue) : ℚ :=
  resolution * (past.map NoteValue.beats).sum

theorem exactTick_sub (resolution : Nat) (past : List NoteValue) :
    exactTick resolution past - (past.map fun v => (v.ticksAt resolution : ℚ)).sum =
      (past.map (NoteValue.slip resolution)).sum := by
  unfold exactTick
  induction past with
  | nil => simp only [List.map_nil, List.sum_nil, mul_zero, sub_zero]
  | cons v rest ih =>
    rw [List.map_cons, List.map_cons, List.map_cons, List.sum_cons, List.sum_cons, List.sum_cons,
      ← ih, NoteValue.slip]
    ring

variable {f : NoteValue → ℚ}
  (timed : ∀ code ticks, Track.ticksOf resolution code = .ok ticks →
    f (NoteValue.ofCode code) = ticks)

include timed in
theorem sum_of_ticksOfAll {wait : List String} {waited : Nat}
    (known : Track.ticksOfAll resolution wait = .ok waited) :
    ((wait.map NoteValue.ofCode).map f).sum = waited := by
  induction wait generalizing waited with
  | nil =>
    obtain rfl := Except.ok.inj known
    simp
  | cons code rest ih =>
    obtain ⟨first, here, known⟩ := exists_of_bind known
    obtain ⟨others, behind, known⟩ := exists_of_bind known
    obtain rfl := Except.ok.inj known
    rw [List.map_cons, List.map_cons, List.sum_cons, timed code first here, ih behind, Nat.cast_add]

include timed in
/-- A note starts where the ticks of everything before it end. -/
theorem Lays.startsFrom {cursor serial last : Nat} {calls : List TimedNote}
    {passages : List Passage} (lays : Lays resolution cursor serial calls passages last)
    {past : List NoteValue} (here : (past.map f).sum = cursor) :
    List.Forall₂ (fun past p => (past.map f).sum = p.start) (pasts past calls) passages := by
  induction lays generalizing past with
  | nil => exact .nil
  | @cons call _ _ waits _ _ _ cursor _ _ numbers wait long strong lays ih =>
    have waited := sum_of_ticksOfAll timed wait
    have start : ((past ++ call.rests).map f).sum = (cursor + waits : Nat) := by
      rw [List.map_append, List.sum_append, here, TimedNote.rests, waited, ← Nat.cast_add]
    refine .cons start (ih ?_)
    rw [List.map_append, List.sum_append, start, List.map_singleton, List.sum_singleton,
      timed _ _ long, ← Nat.cast_add]

include timed in
/-- **A note starts at the sum of the ticks of everything before it.** -/
theorem Lays.starts {serial last : Nat} {calls : List TimedNote} {passages : List Passage}
    (lays : Lays resolution 0 serial calls passages last) :
    List.Forall₂ (fun past p => (past.map f).sum = p.start) (pasts [] calls) passages :=
  lays.startsFrom timed (by rw [List.map_nil, List.sum_nil, Nat.cast_zero])

/-- What a start falls short of its exact tick by is what was cut off everything before it. -/
theorem Lays.slips {serial last : Nat} {calls : List TimedNote} {passages : List Passage}
    (lays : Lays resolution 0 serial calls passages last) :
    List.Forall₂ (fun past p => exactTick resolution past - p.start =
      (past.map (NoteValue.slip resolution)).sum) (pasts [] calls) passages := by
  have starts := lays.starts (f := fun v => (v.ticksAt resolution : ℚ))
    fun code ticks known => congrArg Nat.cast (ticksAt_of_ticksOf known)
  refine starts.imp fun past p same => ?_
  rw [← same, exactTick_sub]

/-- A row of notes that are all taken leads to a track. -/
theorem exists_addAll {t : Track} {calls : List TimedNote}
    (taken : ∀ note ∈ calls, note.IsTaken t.resolution) : ∃ t', t.addAll calls = .ok t' := by
  induction calls generalizing t with
  | nil => exact ⟨t, rfl⟩
  | cons note rest ih =>
    obtain ⟨here, behind⟩ := List.forall_mem_cons.mp taken
    obtain ⟨next, added⟩ := exists_add_iff.mpr here
    obtain ⟨t', reached⟩ := ih fun other mem =>
      (Track.extends_add added).resolution ▸ behind other mem
    refine ⟨t', ?_⟩
    unfold Track.addAll
    rw [List.foldlM_cons, added]
    exact reached

/-- A thirty-second note, struck at once. -/
def tap : TimedNote := ⟨[60], NoteValue.thirtySecond.code, [], 0.5⟩

theorem isTaken_tap {ticks : Nat}
    (known : Track.ticksOf resolution NoteValue.thirtySecond.code = .ok ticks) :
    tap.IsTaken resolution where
  some := List.cons_ne_nil _ _
  inRange := by decide
  wait := fun code mem => absurd mem List.not_mem_nil
  long := ⟨ticks, known⟩
  loud := by decide +kernel

theorem mem_pasts_taps (past : List NoteValue) (count : Nat) :
    past ++ List.replicate count .thirtySecond ∈
      pasts past (List.replicate (count + 1) tap) := by
  induction count generalizing past with
  | zero => exact List.mem_cons_self
  | succ count ih =>
    have length : NoteValue.ofCode tap.code = .thirtySecond :=
      NoteValue.ofCode_code .thirtySecond
    have next := ih (past ++ tap.rests ++ [NoteValue.ofCode tap.code])
    rw [length, List.append_assoc _ [_], List.singleton_append, ← List.replicate_succ,
      show tap.rests = [] from rfl, List.append_nil] at next
    rw [List.replicate_succ, pasts, length]
    refine List.mem_cons_of_mem _ ?_
    rwa [show tap.rests = [] from rfl, List.append_nil]

/-- Whether the notes of a track that has just been opened start within a bound of their exact
ticks, whatever calls it takes. -/
def Track.KeepsWithin (opened : Track) (bound : ℚ) : Prop :=
  ∀ calls t, opened.addAll calls = .ok t → ∃ passages,
    Lays opened.resolution 0 0 calls passages t.cursor ∧
      t.placed = passages.flatMap (Passage.messages t.channel) ∧
      List.Forall₂ (fun past p => |(p.start : ℚ) - exactTick opened.resolution past| ≤ bound)
        (pasts [] calls) passages

/-- **Where something is cut off a thirty-second note, it adds up:** no bound is kept. -/
theorem not_keepsWithin_of_slip {opened : Track} {ticks : Nat}
    (known : Track.ticksOf opened.resolution NoteValue.thirtySecond.code = .ok ticks)
    (slip : NoteValue.thirtySecond.slip opened.resolution ≠ 0) (bound : ℚ) :
    ¬ opened.KeepsWithin bound := by
  intro keeps
  obtain ⟨count, many⟩ := exists_nat_gt (bound / |NoteValue.thirtySecond.slip opened.resolution|)
  have taps : ∀ note ∈ List.replicate (count + 1) tap, note.IsTaken opened.resolution :=
    fun note mem => List.eq_of_mem_replicate mem ▸ isTaken_tap known
  obtain ⟨t, taken⟩ := exists_addAll taps
  obtain ⟨passages, lays, -, near⟩ := keeps _ t taken
  have slips := lays.slips
  have within : ∀ past ∈ pasts [] (List.replicate (count + 1) tap),
      |(past.map (NoteValue.slip opened.resolution)).sum| ≤ bound := by
    have both := slips.mp (S := fun past _ =>
      |(past.map (NoteValue.slip opened.resolution)).sum| ≤ bound ∧ True)
      (fun past p same near => ⟨?_, trivial⟩) near
    · exact ((List.forall₂_and_left _ _).mp both).1
    · rwa [← same, abs_sub_comm]
  have far := within _ (mem_pasts_taps [] count)
  rw [List.nil_append, List.map_replicate, List.sum_replicate, nsmul_eq_mul, abs_mul,
    Nat.abs_cast] at far
  rw [div_lt_iff₀ (abs_pos.mpr slip)] at many
  exact absurd far many.not_ge

section Opened

variable {opened : Track} (fresh : opened.cursor = 0 ∧ opened.placed = [])

include fresh

theorem exists_lays_of_fresh {t : Track} {calls : List TimedNote}
    (taken : opened.addAll calls = .ok t) : ∃ passages,
      Lays opened.resolution 0 0 calls passages t.cursor ∧
        t.placed = passages.flatMap (Passage.messages t.channel) := by
  obtain ⟨passages, lays, placed, grown⟩ := exists_lays taken
  rw [fresh.1, fresh.2] at lays
  rw [fresh.2, List.nil_append, ← grown.channel] at placed
  exact ⟨passages, lays, placed⟩

/-- Where lengths are exact, so is every start. -/
theorem keepsWithin_of_exact (exact : IsExactAt opened.resolution) {bound : ℚ}
    (nonneg : 0 ≤ bound) : opened.KeepsWithin bound := by
  intro calls t taken
  obtain ⟨passages, lays, placed⟩ := exists_lays_of_fresh fresh taken
  refine ⟨passages, lays, placed, ?_⟩
  have starts := lays.starts (f := fun v => (opened.resolution : ℚ) * v.beats) exact
  refine starts.imp fun past p same => ?_
  rw [← same, exactTick, List.sum_map_mul_left, sub_self, abs_zero]
  exact nonneg

/-- **At which resolutions a bound is kept:** where lengths are exact, and nowhere else. -/
theorem keepsWithin_iff {bound : ℚ} (nonneg : 0 ≤ bound) : opened.KeepsWithin bound ↔
    8 ∣ opened.resolution ∧ Decimal.IsShort opened.resolution ∨
      8 * Decimal.tooLargeFrom ≤ opened.resolution := by
  have pos := opened.resolution_pos
  constructor
  · intro keeps
    by_contra inexact
    obtain ⟨ticks, known, slip⟩ := exists_slip pos inexact
    exact not_keepsWithin_of_slip known slip bound keeps
  · intro exact
    exact keepsWithin_of_exact fresh ((isExactAt_iff pos).mpr exact) nonneg

end Opened

/-- **What is cut off lengths adds up.**  A track is opened at any resolution, on any channel, at
any tempo and with any name, and calls are made that are all taken.  Each note then starts short of
its exact tick, which is the resolution times the quarter notes of all rests and notes before it, by
what was cut off each of these: below a resolution of `2 ^ 48`, the eighths of a tick that are left
over from its length.  So at a resolution that is a multiple of eight with few digits every start is
exact, and at any other no bound is kept by all rows of calls, unless it is so large that no call is
ever taken. -/
theorem slips_add_up {resolution channel : Int} {name bpm : Value} {opened : Track}
    (started : Track.start resolution channel name bpm = .ok opened) :
    opened.resolution = resolution.toNat ∧
    (∀ calls t, opened.addAll calls = .ok t → ∃ passages,
      Lays opened.resolution 0 0 calls passages t.cursor ∧
        t.placed = passages.flatMap (Passage.messages t.channel) ∧
        List.Forall₂ (fun past p => exactTick opened.resolution past - p.start =
          (past.map (NoteValue.slip opened.resolution)).sum) (pasts [] calls) passages) ∧
    (opened.resolution < 2 ^ 48 → ∀ v : NoteValue,
      v.slip opened.resolution = (v.units * opened.resolution % 8 : Nat) / 8) ∧
    ∀ bound : ℚ, 0 ≤ bound → (opened.KeepsWithin bound ↔
      8 ∣ opened.resolution ∧ Decimal.IsShort opened.resolution ∨
        8 * Decimal.tooLargeFrom ≤ opened.resolution) := by
  obtain ⟨same, -, nothing⟩ := Track.eq_of_start started
  have fresh := And.intro (Track.cursor_of_start started) nothing
  have pos := opened.resolution_pos
  refine ⟨same, fun calls t taken => ?_, fun few v => NoteValue.slip_of_lt pos few v,
    fun bound nonneg => keepsWithin_iff fresh nonneg⟩
  obtain ⟨passages, lays, placed⟩ := exists_lays_of_fresh fresh taken
  exact ⟨passages, lays, placed, lays.slips⟩

/-- At the standard resolution every note starts at its exact tick. -/
theorem slips_add_up_standard :
    Track.start 480 0 .null (.float 120.0) = .ok (Track.plain 480 (by decide)) ∧
      (Track.plain 480 (by decide)).KeepsWithin 0 := by
  have started := Track.start_plain 480 (by decide)
  obtain ⟨-, -, -, keeps⟩ := slips_add_up started
  have short : Decimal.IsShort (Track.plain 480 (by decide)).resolution :=
    ⟨480, 0, by norm_num [Track.plain], by norm_num⟩
  exact ⟨started, (keeps 0 le_rfl).mpr (.inl ⟨by decide, short⟩)⟩

/-- A quarter note behind sixteen rests of a thirty-second note. -/
def late : List TimedNote := [⟨[60], "4", List.replicate 16 "32", 0.5⟩]

/-- At a resolution of a hundred, half a tick is cut off every thirty-second note: behind sixteen of
them a note starts at 192, eight ticks before its exact tick. -/
theorem late_starts_early :
    ∃ t, Track.start 100 0 .null (.float 120.0) = .ok (Track.plain 100 (by decide)) ∧
      (Track.plain 100 (by decide)).addAll late = .ok t ∧
      t.placed = [⟨192, true, 0, .noteOn 0 60 64⟩, ⟨292, false, 1, .noteOff 0 60 0⟩] ∧
      (pasts [] late).map (exactTick 100) = [200] ∧
      ¬ (Track.plain 100 (by decide)).KeepsWithin 1 := by
  have started := Track.start_plain 100 (by decide)
  have taken : (Track.plain 100 (by decide)).addAll late =
      .ok ((Track.plain 100 (by decide)).afterCalls late) :=
    Track.addAll_of_isSome (by decide +kernel)
  have unbounded : ¬ (Track.plain 100 (by decide)).KeepsWithin 1 := by
    rw [keepsWithin_iff ⟨rfl, rfl⟩ zero_le_one]
    rintro (⟨eight, -⟩ | large)
    · exact absurd eight (by decide)
    · have small : 100 < 8 * Decimal.tooLargeFrom := by
        have limit := Decimal.le_tooLargeFrom
        omega
      exact absurd large small.not_ge
  refine ⟨_, started, taken, by decide +kernel, ?_, unbounded⟩
  have past : pasts [] late = [List.replicate 16 .thirtySecond] := by decide
  rw [past, List.map_singleton, exactTick, List.map_replicate, List.sum_replicate,
    NoteValue.beats_eq]
  norm_num [NoteValue.units]

end Midi

end Keysong
