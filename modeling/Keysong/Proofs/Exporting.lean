import Keysong.Proofs.FileReading

/-!
# What can be exported

An instrument plays at every tempo.  A file gives the length of a quarter note in 24 bits, so there
are tempos at which events that can be played are refused by an export, and tempos at which a file
says that a quarter note takes no time.

## Main Definitions

* `tempoOf?` — the tempo of a file
* `Tempo.slowLimit`, `Tempo.fastLimit` — the tempos at which a quarter note becomes too long for a
  file, and too short

## Main Statements

* `exportBytes_of_refused` — a length of the quarter note that is refused is refused by an export
* `exists_exportBytes` — every other one is written, and read back
* `fits_iff`, `vanishes_iff` — at which tempos a length fits, and at which nothing is left of it
* `export_playable` — what an export of playable events gives

### Where the limits lie

The longest quarter note of a file has `0xFFFFFF` microseconds, an odd number.  A length in the
middle behind it goes to the even neighbour, which does not fit, so the limit itself is refused.
Zero is even, so half a microsecond goes to zero.
-/

namespace Keysong

open Midi

namespace Midi

/-- The first tempo of a file. -/
def tempoOf? (entries : List (Nat × Message)) : Option Nat :=
  entries.findSome? fun
    | (_, .setTempo micros) => some micros
    | _ => none

/-- The tempo behind a name is the first one. -/
theorem tempoOf?_heading (heading : Option (List Text.CodePoint)) (micros : Nat)
    (entries : List (Nat × Message)) :
    tempoOf? ((heading.map fun s => (0, Message.trackName s)).toList ++
      (0, .setTempo micros) :: entries) = some micros := by
  cases heading with
  | none => rfl
  | some s => rfl

theorem note?_of_mem_cues {channel : Channel} {cues : List Cue} :
    ∀ p ∈ cues.map (Cue.placed channel), p.message.note?.isSome = true := by
  intro p mem
  obtain ⟨c, -, rfl⟩ := List.mem_map.mp mem
  unfold Cue.placed
  cases c.isStrike
  · rfl
  · rfl

theorem fileBytes_of_long {t : Track} (small : t.resolution ≤ 32767)
    {entries : List (Nat × Message)} (written : t.messages = .ok entries) {contents : Bytes}
    (inBytes : trackBytes none entries = .ok contents) (long : 2 ^ 32 ≤ contents.length) :
    fileBytes t = .error .trackTooLong := by
  have start : header t.resolution = .ok _ := if_pos small
  have track : trackChunk contents = .error .trackTooLong := if_neg (not_lt.mpr long)
  unfold fileBytes
  simp only [written, start, inBytes, track, bind, Except.bind]

section Export

variable {tempo : Tempo} {events : List Event} (writable : ∀ e ∈ events, e.IsWritable)

include writable

/-- A length of the quarter note that is refused is refused by an export. -/
theorem exportBytes_of_refused {fault : Fault} (refused : microseconds tempo.bpm = .error fault) :
    exportBytes tempo .null events = .error fault := by
  obtain ⟨cursor, added⟩ := exists_ofEvents writable tempo .null
  have messages : ((Track.atTempo tempo .null).placing (cuesFrom 0 0 events) cursor).messages =
      .error fault := by
    have unnamed : Track.nameOf ((Track.atTempo tempo .null).placing (cuesFrom 0 0 events) cursor) =
        .ok none := rfl
    have sameTempo : ((Track.atTempo tempo .null).placing (cuesFrom 0 0 events) cursor).tempo =
        tempo := rfl
    unfold Track.messages
    simp only [unnamed, sameTempo, refused, bind, Except.bind]
  unfold exportBytes fileBytes
  simp only [added, messages, bind, Except.bind]

/-- **Events are written at every tempo whose quarter notes have a length**, and read back. -/
theorem exists_exportBytes {micros : Nat} (fits : microseconds tempo.bpm = .ok micros) :
    ∃ track entries contents, Track.ofEvents tempo .null events = .ok track ∧
      track.messages = .ok entries ∧ tempoOf? entries = some micros ∧
      trackBytes none entries = .ok contents ∧
      (contents.length < 2 ^ 32 → ∃ bytes read, exportBytes tempo .null events = .ok bytes ∧
        readFile bytes = some (⟨1, Track.standardResolution, [read]⟩, []) ∧
        read.map entry? = entries.map some) ∧
      (2 ^ 32 ≤ contents.length → exportBytes tempo .null events = .error .trackTooLong) := by
  obtain ⟨cursor, added⟩ := exists_ofEvents writable tempo .null
  let track := (Track.atTempo tempo .null).placing (cuesFrom 0 0 events) cursor
  have exported : exportBytes tempo .null events = fileBytes track := by
    unfold exportBytes
    rw [added]
    rfl
  have small : track.resolution ≤ 32767 := by
    show Track.standardResolution ≤ 32767
    decide
  have unnamed : track.nameOf = .ok none := rfl
  have messages := messages_of_heading unnamed fits
  obtain ⟨contents, inBytes, read⟩ := readFile_fileBytes small messages
    (fitsFile_entries nofun (microseconds_lt fits) note?_of_mem_cues)
  refine ⟨track, _, contents, added, messages, rfl, inBytes, fun short => ?_, fun long => ?_⟩
  · rw [exported]
    exact read short
  · rw [exported]
    exact fileBytes_of_long small messages inBytes long

end Export

end Midi

/-! ## Which tempos fit -/

namespace Tempo

/-- The tempo in quarter notes a minute whose quarter notes lie in the middle behind `0xFFFFFF`
microseconds. -/
def slowLimit : Rat := 120000000 / 33554431

/-- The tempo in quarter notes a minute whose quarter notes take half a microsecond. -/
def fastLimit : Rat := 120000000

section Limits

variable (tempo : Tempo)

theorem beatLength_nonneg : 0 ≤ tempo.beatLength :=
  div_nonneg (by norm_num) tempo.quantity_pos.le

theorem nearestInt_nonneg : 0 ≤ nearestInt tempo.beatLength := by
  rw [nearestInt_eq tempo.beatLength_nonneg]
  exact Int.natCast_nonneg _

/-- **Quarter notes fit a file above the slow limit**, and not at it. -/
theorem fits_iff : nearestInt tempo.beatLength ≤ 0xFFFFFF ↔ slowLimit < tempo.quantity := by
  have positive := tempo.quantity_pos
  have odd : ¬ 0xFFFFFF % 2 = 0 := by decide
  have below : tempo.beatLength < (0xFFFFFF : Nat) + 1 / 2 ↔ slowLimit < tempo.quantity := by
    unfold beatLength slowLimit
    rw [div_lt_iff₀ positive, div_lt_iff₀ (by norm_num)]
    constructor <;> intro h <;> push_cast at * <;> linarith
  refine (nearestInt_le_iff tempo.beatLength_nonneg 0xFFFFFF).trans ⟨?_, fun h => Or.inl ?_⟩
  · rintro (less | ⟨-, even⟩)
    · exact below.mp less
    · exact absurd even odd
  · exact below.mpr h

/-- **Nothing is left of a quarter note from the fast limit on.** -/
theorem vanishes_iff : nearestInt tempo.beatLength ≤ 0 ↔ fastLimit ≤ tempo.quantity := by
  have positive := tempo.quantity_pos
  have below : tempo.beatLength ≤ 1 / 2 ↔ fastLimit ≤ tempo.quantity := by
    unfold beatLength fastLimit
    rw [div_le_iff₀ positive]
    constructor <;> intro h <;> linarith
  have half : ((0 : Nat) : Rat) + 1 / 2 = 1 / 2 := by norm_num
  refine (nearestInt_le_iff tempo.beatLength_nonneg 0).trans ?_
  rw [half, ← below, le_iff_lt_or_eq]
  exact or_congr_right (and_iff_left rfl)

/-- The length of a quarter note in a file, or why there is none. -/
theorem microseconds_of_rounded {tempo : Tempo} (rounded : tempo.IsRoundedOnce) :
    Midi.microseconds tempo.bpm =
      if slowLimit < tempo.quantity then .ok (nearestInt tempo.beatLength).toNat
      else .error .microsecondsOutOfRange := by
  rw [rounded, microseconds_eq]
  exact if_congr ((and_iff_right tempo.nearestInt_nonneg).trans tempo.fits_iff) rfl rfl

end Limits

end Tempo

/-- **What an export of playable events gives.**  Above the slow limit it gives a file, as long as
the bytes of the track are not too many for a chunk; the file is read back, and its quarter notes
have the nearest length, which is none from the fast limit on.  Down from the slow limit an export
is refused. -/
theorem export_playable {tempo : Tempo} {events : List Event} (rounded : tempo.IsRoundedOnce)
    (playable : ∀ e ∈ events, e.IsPlayable) :
    (Tempo.slowLimit < tempo.quantity → ∃ track entries contents micros,
      Track.ofEvents tempo .null events = .ok track ∧ track.messages = .ok entries ∧
      tempoOf? entries = some micros ∧ micros = nearestInt tempo.beatLength ∧ micros < 2 ^ 24 ∧
      (micros = 0 ↔ Tempo.fastLimit ≤ tempo.quantity) ∧ trackBytes none entries = .ok contents ∧
      (contents.length < 2 ^ 32 → ∃ bytes read, exportBytes tempo .null events = .ok bytes ∧
        readFile bytes = some (⟨1, Track.standardResolution, [read]⟩, []) ∧
        read.map entry? = entries.map some) ∧
      (2 ^ 32 ≤ contents.length → exportBytes tempo .null events = .error .trackTooLong)) ∧
    (tempo.quantity ≤ Tempo.slowLimit →
      exportBytes tempo .null events = .error .microsecondsOutOfRange) := by
  have writable : ∀ e ∈ events, e.IsWritable := fun e mem => (playable e mem).isWritable
  have length := Tempo.microseconds_of_rounded rounded
  refine ⟨fun above => ?_, fun slow => ?_⟩
  · rw [if_pos above] at length
    obtain ⟨track, entries, contents, added, messages, tempoIs, inBytes, written, tooLong⟩ :=
      exists_exportBytes writable length
    have whole : ((nearestInt tempo.beatLength).toNat : Int) = nearestInt tempo.beatLength :=
      Int.toNat_of_nonneg tempo.nearestInt_nonneg
    have vanishes := tempo.vanishes_iff
    refine ⟨track, entries, contents, _, added, messages, tempoIs, whole, microseconds_lt length, ?_,
      inBytes, written, tooLong⟩
    rw [← vanishes]
    omega
  · rw [if_neg (not_lt.mpr slow)] at length
    exact exportBytes_of_refused writable length

/-- The bytes of the phrase in a track do not depend on the tempo. -/
theorem length_phrase {tempo : Tempo} {track : Track} {entries : List (Nat × Message)}
    {contents : Bytes} (added : Track.ofEvents tempo .null phrase = .ok track)
    (messages : track.messages = .ok entries) (inBytes : trackBytes none entries = .ok contents) :
    contents.length = 36 := by
  obtain ⟨heading, micros, called, -, same⟩ := exists_of_messages messages
  obtain ⟨cursor, placed⟩ :=
    exists_ofEvents isWritable_of_mem_phrase tempo .null
  obtain rfl := Except.ok.inj (added.symm.trans placed)
  obtain rfl : none = heading := Except.ok.inj called
  have cues : (cuesFrom 0 0 phrase).map (Cue.placed firstChannel) =
      [⟨480, true, 0, .noteOn 0 60 64⟩, ⟨720, false, 1, .noteOff 0 60 0⟩,
        ⟨720, true, 2, .noteOn 0 60 127⟩, ⟨1200, false, 3, .noteOff 0 60 0⟩,
        ⟨720, true, 4, .noteOn 0 64 127⟩, ⟨1200, false, 5, .noteOff 0 64 0⟩] := by
    decide +kernel
  have sorted : ((Track.atTempo tempo .null).placing (cuesFrom 0 0 phrase) cursor).sorted =
      [⟨480, true, 0, .noteOn 0 60 64⟩, ⟨720, false, 1, .noteOff 0 60 0⟩,
        ⟨720, true, 2, .noteOn 0 60 127⟩, ⟨720, true, 4, .noteOn 0 64 127⟩,
        ⟨1200, false, 3, .noteOff 0 60 0⟩, ⟨1200, false, 5, .noteOff 0 64 0⟩] := by
    show ((cuesFrom 0 0 phrase).map (Cue.placed firstChannel)).mergeSort Placed.notAfter = _
    rw [cues]
    cbv
  have length : (trackBytes none entries).toOption.map List.length = some 36 := by
    rw [same, sorted]
    cbv
  rw [inBytes] at length
  exact Option.some.inj length

/-- At a moderate tempo the phrase is exported. -/
theorem export_playable_phrase :
    (Tempo.moderate.IsRoundedOnce ∧ (∀ e ∈ phrase, e.IsPlayable) ∧
      Tempo.slowLimit < Tempo.moderate.quantity) ∧
    ∃ bytes, exportBytes Tempo.moderate .null phrase = .ok bytes := by
  have rounded : Tempo.moderate.IsRoundedOnce :=
    Tempo.isRoundedOnce_of_nearest (by decide +kernel)
  have above : Tempo.slowLimit < Tempo.moderate.quantity := by decide +kernel
  obtain ⟨track, entries, contents, micros, added, messages, -, -, -, -, inBytes, written, -⟩ :=
    (export_playable rounded isPlayable_of_mem_phrase).1 above
  have length := length_phrase added messages inBytes
  obtain ⟨bytes, read, exported, -⟩ := written (by omega)
  exact ⟨⟨rounded, isPlayable_of_mem_phrase, above⟩, bytes, exported⟩

/-- A tempo of one quarter note a minute. -/
def Tempo.glacial : Tempo := ⟨1.0, by decide +kernel⟩

/-- A tempo of two hundred million quarter notes a minute. -/
def Tempo.frantic : Tempo := ⟨200000000.0, by decide +kernel⟩

/-- The phrase can be played at any tempo, but at one quarter note a minute it is not exported, and
at two hundred million it is with a tempo of zero. -/
theorem tempos_beyond_files :
    (∀ e ∈ phrase, e.IsPlayable) ∧
    exportBytes Tempo.glacial .null phrase = .error .microsecondsOutOfRange ∧
    ∃ bytes read entries, exportBytes Tempo.frantic .null phrase = .ok bytes ∧
      readFile bytes = some (⟨1, Track.standardResolution, [read]⟩, []) ∧
      read.map entry? = entries.map some ∧ tempoOf? entries = some 0 := by
  have refused : microseconds Tempo.glacial.bpm = .error .microsecondsOutOfRange := by
    have nearest : Quantity.nearest (unrounded Tempo.glacial.bpm) = some 60000000 := by
      decide +kernel
    exact microseconds_of_nearest nearest
  have nothing : microseconds Tempo.frantic.bpm = .ok 0 := by
    have nearest : Quantity.nearest (unrounded Tempo.frantic.bpm) = some 0 := by decide +kernel
    exact microseconds_of_nearest nearest
  obtain ⟨track, entries, contents, added, messages, tempoIs, inBytes, written, -⟩ :=
    exists_exportBytes isWritable_of_mem_phrase nothing
  have length := length_phrase added messages inBytes
  obtain ⟨bytes, read, exported, back, same⟩ := written (by omega)
  exact ⟨isPlayable_of_mem_phrase, exportBytes_of_refused isWritable_of_mem_phrase refused, bytes,
    read, entries, exported, back, same, tempoIs⟩

end Keysong
