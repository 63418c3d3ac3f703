import Keysong.Melody
import Keysong.Proofs.Compass
import Keysong.Proofs.Exporting

/-!
# Saving a melody

The file of a melody can be made in memory, or written to a place where another file may have been.
Both fail for the same reasons.  But a reason that comes up behind the header finds the file open
already: what was there before is gone, and a stump is left.

## Main Definitions

* `Saved.leaves` — what is there after an attempt to write a file
* `stump` — how far a file has come when a fault comes up
* `IsSpelled` — the names whose characters have a byte each
* `Melody.SavesWhole` — a melody is saved as a whole, or nothing has changed
* `Melody.IsSaved` — what an attempt to save a melody comes to

## Main Statements

* `save_eq` — writing a file agrees with making its bytes, up to the stump that a fault leaves
* `error_of_trackBytes`, `stump_of_messages` — which faults leave one
* `saving_leaves` — what an attempt to save the melody of a text comes to
* `unspelled_name_costs_file` — a name can cost the file that was there before

### Which faults come late

The entries of a track are made before the file is opened, and with them its tempo and its name are
looked at.  Their bytes are made behind the header: a name with a character beyond the first 256 has
none, and the length of the track may not fit its field.  The header itself holds the standard
resolution, which always fits.
-/

namespace Keysong

namespace Midi

/-- What is there after an attempt to write a file where `previous` was before; `none` is no file at
all. -/
def Saved.leaves (s : Saved) (previous : Option Bytes) : Option Bytes := s.contents.or previous

/-- How far a file that begins with `start` has come when a fault comes up: it is not opened before
its entries are there. -/
def stump (start : Bytes) : Fault → Option Bytes
  | .nameUnencodable _ _ _ => some start
  | .trackTooLong => some (start ++ chunkType "MTrk")
  | _ => none

/-- The header of a file with the standard resolution. -/
def standardHeader : Bytes :=
  chunk "MThd" (bigEndian 2 1 ++ bigEndian 2 1 ++ bigEndian 2 Track.standardResolution)

example : standardHeader =
    [0x4D, 0x54, 0x68, 0x64, 0, 0, 0, 6, 0, 1, 0, 1, 0x01, 0xE0] := by
  decide

/-! ## Names -/

/-- The names whose characters have a byte each.  What does not count as switched on is no name. -/
def IsSpelled (name : Value) : Prop :=
  name.isTruthy = true → ∀ p ∈ name.display, hasByte p = true

/-- A text is the name of a track unless it is empty. -/
theorem nameOf_eq {t : Track} (named : IsName t.name) :
    t.nameOf = .ok (if t.name.isTruthy = true then some t.name.display else none) := by
  unfold Track.nameOf
  cases kind : t.name with
  | null => rfl
  | text s =>
    dsimp only
    split <;> rfl
  | ragged points =>
    dsimp only
    split <;> rfl
  | _ =>
    rw [kind] at named
    exact named.elim

theorem singleBytes_of_missing {text : List Text.CodePoint} {p : Text.CodePoint} (mem : p ∈ text)
    (missing : hasByte p = false) :
    ∃ code first last, singleBytes text = .error (.nameUnencodable code first last) := by
  unfold singleBytes
  dsimp only
  split
  · rename_i nothing
    have single := List.dropWhile_eq_nil_iff.mp nothing p mem
    rw [missing] at single
    cases single
  · exact ⟨_, _, _, rfl⟩

theorem error_of_singleBytes {text : List Text.CodePoint} {fault : Fault}
    (failed : singleBytes text = .error fault) :
    (∃ code first last, fault = .nameUnencodable code first last) ∧
      ∃ p ∈ text, hasByte p = false := by
  by_cases single : ∀ p ∈ text, hasByte p = true
  · rw [singleBytes_eq single] at failed
    cases failed
  · push Not at single
    obtain ⟨p, mem, missing⟩ := single
    have missing := Bool.eq_false_iff.mpr missing
    obtain ⟨code, first, last, raised⟩ := singleBytes_of_missing mem missing
    obtain rfl := Except.error.inj (failed.symm.trans raised)
    exact ⟨⟨code, first, last, rfl⟩, p, mem, missing⟩

/-! ## Which faults come late -/

/-- Only a name can lack bytes. -/
theorem error_of_body {m : Message} {fault : Fault} (failed : body m = .error fault) :
    (∃ code first last, fault = .nameUnencodable code first last) ∧
      ∃ text, m = .trackName text ∧ ∃ p ∈ text, hasByte p = false := by
  cases m with
  | trackName text =>
    rcases of_bind_error failed with missing | ⟨bytes, -, made⟩
    · obtain ⟨fault, unspelled⟩ := error_of_singleBytes missing
      exact ⟨fault, text, rfl, unspelled⟩
    · cases made
  | _ => cases failed

/-- **The bytes of entries fail only for a name.** -/
theorem error_of_trackBytes {running : Option UInt8} {entries : List (Nat × Message)}
    {fault : Fault} (failed : trackBytes running entries = .error fault) :
    (∃ code first last, fault = .nameUnencodable code first last) ∧
      ∃ delta text, (delta, .trackName text) ∈ entries ∧ ∃ p ∈ text, hasByte p = false := by
  induction entries generalizing running with
  | nil => cases failed
  | cons e rest ih =>
    obtain ⟨delta, m⟩ := e
    rcases of_bind_error failed with here | ⟨contents, -, behind⟩
    · obtain ⟨fault, text, rfl, unspelled⟩ := error_of_body here
      exact ⟨fault, delta, text, List.mem_cons_self, unspelled⟩
    · rcases of_bind_error behind with later | ⟨bytes, -, made⟩
      · obtain ⟨fault, delta, text, mem, unspelled⟩ := ih later
        exact ⟨fault, delta, text, List.mem_cons_of_mem _ mem, unspelled⟩
      · cases made

/-- A name that lacks bytes is met, wherever it stands. -/
theorem trackBytes_of_missing (running : Option UInt8) {entries : List (Nat × Message)}
    {delta : Nat} {text : List Text.CodePoint} (mem : (delta, .trackName text) ∈ entries)
    {p : Text.CodePoint} (inside : p ∈ text) (missing : hasByte p = false) :
    ∃ code first last,
      trackBytes running entries = .error (.nameUnencodable code first last) := by
  cases inBytes : trackBytes running entries with
  | ok contents =>
    obtain ⟨bytes, written⟩ := exists_body inBytes _ mem
    obtain ⟨code, first, last, raised⟩ := singleBytes_of_missing inside missing
    obtain ⟨name, single, -⟩ := exists_of_bind written
    rw [raised] at single
    cases single
  | error fault =>
    obtain ⟨⟨code, first, last, rfl⟩, -⟩ := error_of_trackBytes inBytes
    exact ⟨code, first, last, rfl⟩

/-- A length of the quarter note that is refused comes up before a file is opened. -/
theorem stump_of_microseconds {bpm : Float} {fault : Fault}
    (refused : microseconds bpm = .error fault) (start : Bytes) : stump start fault = none := by
  unfold microseconds at refused
  dsimp only at refused
  split at refused
  · obtain rfl := Except.error.inj refused
    rfl
  · split at refused
    · cases refused
    · obtain rfl := Except.error.inj refused
      rfl

/-- **What keeps a track from having entries comes up before a file is opened.** -/
theorem stump_of_messages {t : Track} {fault : Fault} (refused : t.messages = .error fault)
    (start : Bytes) : stump start fault = none := by
  rcases of_bind_error refused with unnamed | ⟨heading, -, refused⟩
  · unfold Track.nameOf at unnamed
    split at unnamed
    · split at unnamed
      · cases unnamed
      · cases unnamed
      · obtain rfl := Except.error.inj unnamed
        rfl
    · cases unnamed
  · rcases of_bind_error refused with tempo | ⟨micros, -, made⟩
    · exact stump_of_microseconds tempo start
    · cases made

/-- The name of a track is the only name among its entries. -/
theorem heading_of_mem_entries {t : Track} {heading : Option (List Text.CodePoint)}
    {micros delta : Nat} {text : List Text.CodePoint}
    (notes : ∀ p ∈ t.placed, p.message.note?.isSome = true)
    (mem : (delta, .trackName text) ∈ (heading.map fun s => (0, Message.trackName s)).toList
      ++ (0, .setTempo micros) :: (Track.deltas 0 t.sorted ++ [(0, .endOfTrack)])) :
    heading = some text := by
  rcases List.mem_append.mp mem with first | mem
  · obtain ⟨s, rfl, same⟩ := Option.map_eq_some_iff.mp (Option.mem_toList.mp first)
    cases same
    rfl
  rcases List.mem_cons.mp mem with tempo | mem
  · cases tempo
  rcases List.mem_append.mp mem with among | last
  · obtain ⟨p, here, same⟩ := mem_deltas among
    have note := notes p ((List.mergeSort_perm t.placed _).mem_iff.mp here)
    rw [same] at note
    cases note
  · cases List.mem_singleton.mp last

/-! ## Writing agrees with making the bytes -/

/-- **Writing a file agrees with making its bytes**, up to the stump that a fault leaves. -/
theorem save_eq {t : Track} {start : Bytes} (small : header t.resolution = .ok start) :
    save t none =
      match fileBytes t with
      | .ok bytes => ⟨some bytes, none⟩
      | .error fault => ⟨stump start fault, some fault⟩ := by
  unfold save fileBytes
  cases messages : t.messages with
  | error fault =>
    show _ = Saved.mk (stump start fault) (some fault)
    rw [stump_of_messages messages]
  | ok entries =>
    rw [small]
    cases inBytes : trackBytes none entries with
    | error fault =>
      obtain ⟨⟨code, first, last, rfl⟩, -⟩ := error_of_trackBytes inBytes
      simp [inBytes, bind, Except.bind, stump]
    | ok contents =>
      unfold trackChunk
      by_cases short : contents.length < 0x100000000
      · simp [inBytes, short, bind, Except.bind, pure, Except.pure]
      · simp [inBytes, short, bind, Except.bind, stump]

/-! ### What a file fails for -/

section Failing

variable {t : Track} (small : t.resolution ≤ 32767)

include small

/-- A file fails for the entries of its track, for their bytes, or for the length of these. -/
theorem error_of_fileBytes {fault : Fault} (failed : fileBytes t = .error fault) :
    t.messages = .error fault ∨ ∃ entries, t.messages = .ok entries ∧
      (trackBytes none entries = .error fault ∨ ∃ contents, trackBytes none entries = .ok contents ∧
        2 ^ 32 ≤ contents.length ∧ fault = .trackTooLong) := by
  have fits : header t.resolution = .ok _ := if_pos small
  rcases of_bind_error failed with refused | ⟨entries, messages, failed⟩
  · exact Or.inl refused
  rcases of_bind_error failed with large | ⟨start, -, failed⟩
  · rw [fits] at large
    cases large
  rcases of_bind_error failed with unspelled | ⟨contents, inBytes, failed⟩
  · exact Or.inr ⟨entries, messages, Or.inl unspelled⟩
  rcases of_bind_error failed with refused | ⟨track, -, made⟩
  · unfold trackChunk at refused
    split at refused
    · cases refused
    · rename_i long
      exact Or.inr ⟨entries, messages, Or.inr
        ⟨contents, inBytes, not_lt.mp long, (Except.error.inj refused).symm⟩⟩
  · cases made

theorem fileBytes_of_trackBytes {entries : List (Nat × Message)}
    (messages : t.messages = .ok entries) {fault : Fault}
    (failed : trackBytes none entries = .error fault) : fileBytes t = .error fault := by
  have fits : header t.resolution = .ok _ := if_pos small
  unfold fileBytes
  simp only [messages, fits, failed, bind, Except.bind]

/-- A file fails for its length if and only if the bytes of its track are too many. -/
theorem fileBytes_tooLong_iff :
    fileBytes t = .error .trackTooLong ↔ ∃ entries contents, t.messages = .ok entries ∧
      trackBytes none entries = .ok contents ∧ 2 ^ 32 ≤ contents.length := by
  constructor
  · intro failed
    rcases error_of_fileBytes small failed with refused | ⟨entries, messages, late⟩
    · have early := stump_of_messages refused []
      cases early
    rcases late with unspelled | ⟨contents, inBytes, long, -⟩
    · obtain ⟨⟨code, first, last, other⟩, -⟩ := error_of_trackBytes unspelled
      cases other
    · exact ⟨entries, contents, messages, inBytes, long⟩
  · rintro ⟨entries, contents, messages, inBytes, long⟩
    exact fileBytes_of_long small messages inBytes long

/-- A file with a name or none fails for a character if and only if its tempo fits and its name is
not spelled in bytes. -/
theorem fileBytes_unencodable_iff (notes : ∀ p ∈ t.placed, p.message.note?.isSome = true)
    (named : IsName t.name) :
    (∃ code first last, fileBytes t = .error (.nameUnencodable code first last)) ↔
      ¬ IsSpelled t.name ∧ ∃ micros, microseconds t.tempo.bpm = .ok micros := by
  have called := nameOf_eq named
  constructor
  · rintro ⟨code, first, last, failed⟩
    rcases error_of_fileBytes small failed with refused | ⟨entries, messages, late⟩
    · have early := stump_of_messages refused []
      cases early
    obtain ⟨heading, micros, called', fits, rfl⟩ := exists_of_messages messages
    -- What lacks bytes is a name among the entries, and there is no other than that of the track.
    rcases late with unspelled | ⟨contents, -, -, other⟩
    · obtain ⟨-, delta, text, mem, p, inside, missing⟩ := error_of_trackBytes unspelled
      obtain rfl := heading_of_mem_entries notes mem
      rw [called] at called'
      refine ⟨fun spelled => ?_, micros, fits⟩
      split at called'
      · rename_i truthy
        obtain rfl := Option.some.inj (Except.ok.inj called')
        rw [spelled truthy p inside] at missing
        cases missing
      · cases called'
    · cases other
  · rintro ⟨unspelled, micros, fits⟩
    unfold IsSpelled at unspelled
    push Not at unspelled
    obtain ⟨truthy, p, inside, missing⟩ := unspelled
    rw [if_pos truthy] at called
    have messages := messages_of_heading called fits
    obtain ⟨code, first, last, raised⟩ :=
      trackBytes_of_missing none List.mem_cons_self inside (Bool.eq_false_iff.mpr missing)
    exact ⟨code, first, last, fileBytes_of_trackBytes small messages raised⟩

/-- A file with a name or none is made if and only if its tempo fits, its name is spelled in bytes,
and the bytes of its track are not too many. -/
theorem fileBytes_ok_iff (notes : ∀ p ∈ t.placed, p.message.note?.isSome = true)
    (named : IsName t.name) :
    (∃ bytes, fileBytes t = .ok bytes) ↔ (∃ micros, microseconds t.tempo.bpm = .ok micros) ∧
      IsSpelled t.name ∧ fileBytes t ≠ .error .trackTooLong := by
  constructor
  · rintro ⟨bytes, made⟩
    obtain ⟨-, entries, -, messages, -⟩ := exists_of_fileBytes made
    obtain ⟨-, micros, -, fits, -⟩ := exists_of_messages messages
    refine ⟨⟨micros, fits⟩, by_contra fun unspelled => ?_, by simp [made]⟩
    obtain ⟨code, first, last, failed⟩ :=
      (fileBytes_unencodable_iff small notes named).mpr ⟨unspelled, micros, fits⟩
    rw [made] at failed
    cases failed
  · rintro ⟨⟨micros, fits⟩, spelled, short⟩
    cases made : fileBytes t with
    | ok bytes => exact ⟨bytes, rfl⟩
    | error fault =>
      rcases error_of_fileBytes small made with refused | ⟨entries, -, unspelled | ⟨-, -, -, rfl⟩⟩
      · rw [messages_of_heading (nameOf_eq named) fits] at refused
        cases refused
      · obtain ⟨⟨code, first, last, rfl⟩, -⟩ := error_of_trackBytes unspelled
        obtain ⟨unspelled, -⟩ :=
          (fileBytes_unencodable_iff small notes named).mp ⟨code, first, last, made⟩
        exact absurd spelled unspelled
      · exact absurd made short

end Failing

/-- A tempo that does not fit a file is what the file fails for, if its track has a name or none. -/
theorem fileBytes_of_refused {t : Track} (named : IsName t.name) {fault : Fault}
    (refused : microseconds t.tempo.bpm = .error fault) : fileBytes t = .error fault := by
  unfold fileBytes Track.messages
  rw [nameOf_eq named, refused]
  rfl

end Midi

/-! ## Melodies -/

open Midi

namespace Melody

/-- A melody is saved as a whole, or the attempt fails and nothing has changed. -/
def SavesWhole (m : Melody) (previous : Option Bytes) : Prop :=
  (∃ bytes, m.bytes = .ok bytes ∧ (m.save none).fault = none ∧
    (m.save none).leaves previous = some bytes) ∨
  ((∃ fault, m.bytes = .error fault) ∧ (m.save none).fault ≠ none ∧
    (m.save none).leaves previous = previous)

/-- What an attempt to save a melody comes to, in a place where a file may have been before. -/
structure IsSaved (m : Melody) (previous : Option Bytes) : Prop where
  /-- Saving fails for what its bytes fail for. -/
  alike : ∀ fault, (m.save none).fault = some fault ↔ m.bytes = .error fault
  /-- Without a fault, the bytes are there. -/
  written : ∀ bytes, m.bytes = .ok bytes → (m.save none).leaves previous = some bytes
  /-- With a fault, its stump is there, if it leaves one. -/
  left : ∀ fault, m.bytes = .error fault →
    (m.save none).leaves previous = (stump standardHeader fault).or previous
  /-- A tempo that does not fit comes before everything else, and changes nothing. -/
  slow : ∀ fault, microseconds m.tempo.bpm = .error fault →
    m.bytes = .error fault ∧ (m.save none).leaves previous = previous
  unspelled_iff : (∃ code first last, m.bytes = .error (.nameUnencodable code first last)) ↔
    ¬ IsSpelled m.name ∧ ∃ micros, microseconds m.tempo.bpm = .ok micros
  tooLong_iff : m.bytes = .error .trackTooLong ↔ ∃ track entries contents,
    Track.ofEvents m.tempo m.name m.events = .ok track ∧ track.messages = .ok entries ∧
      trackBytes none entries = .ok contents ∧ 2 ^ 32 ≤ contents.length
  made_iff : (∃ bytes, m.bytes = .ok bytes) ↔
    (∃ micros, microseconds m.tempo.bpm = .ok micros) ∧ IsSpelled m.name ∧
      m.bytes ≠ .error .trackTooLong
  /-- Nothing but a stump keeps a melody from being saved as a whole. -/
  savesWhole_iff : m.SavesWhole previous ↔ ∀ fault left, m.bytes = .error fault →
    stump standardHeader fault = some left → previous = some left
  savesWhole : IsSpelled m.name → m.bytes ≠ .error .trackTooLong → m.SavesWhole previous

/-- The track of a melody is both written and turned into bytes. -/
theorem exists_track {m : Melody} (writable : ∀ e ∈ m.events, e.IsWritable) :
    ∃ track, Track.ofEvents m.tempo m.name m.events = .ok track ∧ track.tempo = m.tempo ∧
      track.name = m.name ∧ track.resolution = Track.standardResolution ∧
      (∀ p ∈ track.placed, p.message.note?.isSome = true) ∧ m.bytes = fileBytes track ∧
      m.save none = Midi.save track none := by
  obtain ⟨cursor, added⟩ := exists_ofEvents writable m.tempo m.name
  refine ⟨_, added, rfl, rfl, rfl, note?_of_mem_cues, ?_, ?_⟩
  · unfold bytes exportBytes
    rw [added]
    rfl
  · unfold save
    rw [added]

section Saved

variable {m : Melody} (writable : ∀ e ∈ m.events, e.IsWritable)

include writable

/-- Saving a melody agrees with making its bytes, up to the stump that a fault leaves. -/
theorem save_eq_bytes :
    m.save none =
      match m.bytes with
      | .ok bytes => ⟨some bytes, none⟩
      | .error fault => ⟨stump standardHeader fault, some fault⟩ := by
  obtain ⟨track, -, -, -, resolution, -, bytes, saved⟩ := exists_track writable
  have header : header track.resolution = .ok standardHeader := by
    rw [resolution]
    rfl
  rw [saved, bytes]
  exact save_eq header

/-- Nothing but a stump keeps a melody from being saved as a whole. -/
theorem savesWhole_iff (previous : Option Bytes) :
    m.SavesWhole previous ↔ ∀ fault left, m.bytes = .error fault →
      stump standardHeader fault = some left → previous = some left := by
  unfold SavesWhole
  rw [save_eq_bytes writable]
  cases m.bytes with
  | ok bytes => simp [Saved.leaves]
  | error fault =>
    show _ ∨ (_ ∧ _ ∧ (stump standardHeader fault).or previous = previous) ↔ _
    constructor
    · rintro (⟨bytes, other, -⟩ | ⟨-, -, kept⟩) fault' stub same remains
      · cases other
      · cases same
        rw [remains] at kept
        exact kept.symm
    · intro kept
      -- A stump changes nothing only where the same stump was before.
      refine Or.inr ⟨⟨fault, rfl⟩, Option.some_ne_none fault, ?_⟩
      cases remains : stump standardHeader fault with
      | none => rfl
      | some stub => exact (kept fault stub rfl remains).symm

/-- **What an attempt to save a melody of writable events comes to.** -/
theorem isSaved_of_isWritable (named : IsName m.name) (previous : Option Bytes) :
    m.IsSaved previous := by
  obtain ⟨track, added, tempo, name, resolution, notes, bytes, -⟩ := exists_track writable
  have small : track.resolution ≤ 32767 := by
    rw [resolution]
    decide
  rw [← name] at named
  have unspelled := fileBytes_unencodable_iff small notes named
  have made := fileBytes_ok_iff small notes named
  rw [tempo, name, ← bytes] at unspelled made
  have saved := save_eq_bytes writable
  have whole := savesWhole_iff writable previous
  have left : ∀ fault, m.bytes = .error fault →
      (m.save none).leaves previous = (stump standardHeader fault).or previous := by
    intro fault failed
    rw [saved, failed]
    rfl
  refine ⟨fun fault => ?_, fun bytes written => ?_, left, fun fault refused => ?_, unspelled, ?_,
    made, whole, fun spelled short => ?_⟩
  · rw [saved]
    cases m.bytes <;> simp
  · rw [saved, written]
    rfl
  · have failed : m.bytes = .error fault := by
      rw [bytes]
      exact fileBytes_of_refused named (by rwa [tempo])
    refine ⟨failed, ?_⟩
    rw [left fault failed, stump_of_microseconds refused]
    rfl
  · rw [bytes, fileBytes_tooLong_iff small]
    constructor
    · rintro ⟨entries, contents, long⟩
      exact ⟨track, entries, contents, added, long⟩
    · rintro ⟨track', entries, contents, added', long⟩
      obtain rfl := Except.ok.inj (added.symm.trans added')
      exact ⟨entries, contents, long⟩
  · refine whole.mpr fun fault stub failed remains => ?_
    cases fault with
    | nameUnencodable code first last =>
      obtain ⟨unspelled, -⟩ := unspelled.mp ⟨code, first, last, failed⟩
      exact absurd spelled unspelled
    | trackTooLong => exact absurd failed short
    | _ => cases remains

end Saved

/-- The melody of a text at an accepted tempo. -/
theorem ofText_eq (c : Compiler) (text : String) {bpm : Value} {tempo : Tempo}
    (accepted : Tempo.ofValue bpm = .ok tempo) (name : Value) :
    ofText c text bpm name = .ok { text, tempo, name, events := c.events text.toList } := by
  unfold ofText
  rw [accepted, c.compile_eq]
  rfl

/-- The melody of a text without rests. -/
def cat (name : Value) : Melody where
  text := "cat"
  tempo := Tempo.moderate
  name := name
  events := Compiler.standard.events "cat".toList

theorem isWritable_of_mem_cat (name : Value) : ∀ e ∈ (cat name).events, e.IsWritable := fun e mem =>
  (Compiler.isPlayable_of_mem_events rfl "cat".toList e mem).isWritable

/-- The bytes of its track are few, if it has a short name. -/
theorem bytes_cat_ne : (cat (.text "Café")).bytes ≠ .error .trackTooLong := by
  intro failed
  have saved := isSaved_of_isWritable (isWritable_of_mem_cat (.text "Café")) trivial none
  obtain ⟨track, entries, contents, added, messages, inBytes, long⟩ := saved.tooLong_iff.mp failed
  obtain ⟨cursor, placed⟩ :=
    exists_ofEvents (isWritable_of_mem_cat (.text "Café")) Tempo.moderate (.text "Café")
  obtain rfl := Except.ok.inj (added.symm.trans placed)
  obtain ⟨heading, micros, called, -, same⟩ := exists_of_messages messages
  obtain rfl : some (Text.codePoints "Café".toList) = heading := Except.ok.inj called
  have cues : (cuesFrom 0 0 (cat (.text "Café")).events).map (Cue.placed firstChannel) =
      [⟨0, true, 0, .noteOn 0 52 64⟩, ⟨480, false, 1, .noteOff 0 52 0⟩,
        ⟨480, true, 2, .noteOn 0 60 64⟩, ⟨960, false, 3, .noteOff 0 60 0⟩,
        ⟨960, true, 4, .noteOn 0 79 64⟩, ⟨1440, false, 5, .noteOff 0 79 0⟩] := by
    decide +kernel
  have length : (trackBytes none entries).toOption.map List.length = some 46 := by
    rw [same]
    unfold Track.sorted Track.placing
    dsimp only [Track.atTempo]
    rw [List.nil_append, cues]
    cbv
  rw [inBytes] at length
  obtain length : contents.length = 46 := Option.some.inj length
  omega

end Melody

/-- **A melody is saved as a whole, or a stump of its file is left.**  On the standard keyboard, at
every accepted tempo and with every name or none, the melody of a text has the same faults when it
is saved as when its bytes are made, and what is saved are these bytes.  A fault changes nothing if
it comes up before the file is opened, as a tempo that does not fit does.  A name that is not
spelled in bytes, and a track with too many of them, leave a stump; nothing else does. -/
theorem saving_leaves (c : Compiler) (standard : c.keyboard = .letters) (text : String)
    {bpm : Value} {tempo : Tempo} (accepted : Tempo.ofValue bpm = .ok tempo) (name : Value)
    (named : IsName name) (previous : Option Bytes) :
    ∃ m, Melody.ofText c text bpm name = .ok m ∧ m.name = name ∧ m.tempo = tempo ∧
      m.IsSaved previous := by
  have playable := Compiler.isPlayable_of_mem_events standard text.toList
  have writable := fun e mem => (playable e mem).isWritable
  exact ⟨_, Melody.ofText_eq c text accepted name, rfl, rfl,
    Melody.isSaved_of_isWritable writable named previous⟩

/-- A name with an accent is spelled in bytes, and takes the place of the file that was there. -/
theorem saving_leaves_cafe :
    (Compiler.standard.keyboard = .letters ∧
      Tempo.ofValue (.float 120.0) = .ok Tempo.moderate ∧ IsName (.text "Café")) ∧
    ∃ m bytes, Melody.ofText .standard "cat" (.float 120.0) (.text "Café") = .ok m ∧
      m.bytes = .ok bytes ∧ (m.save none).leaves (some [0]) = some bytes := by
  obtain ⟨m, made, -, -, saved⟩ :=
    saving_leaves .standard rfl "cat" ofValue_moderate (.text "Café") trivial (some [0])
  have same := Melody.ofText_eq .standard "cat" ofValue_moderate (.text "Café")
  obtain rfl : Melody.cat (.text "Café") = m := Except.ok.inj (same.symm.trans made)
  have spelled : IsSpelled (.text "Café") := fun _ => by decide
  obtain ⟨bytes, written⟩ :=
    saved.made_iff.mpr ⟨⟨500000, microseconds_moderate⟩, spelled, Melody.bytes_cat_ne⟩
  exact ⟨⟨rfl, ofValue_moderate, trivial⟩, _, bytes, made, written, saved.written bytes written⟩

/-- **A name can cost a file.**  The name of one letter beyond the first 256 characters is refused
behind the header: a file appears where none was, and one that was there is lost. -/
theorem unspelled_name_costs_file :
    Compiler.standard.keyboard = .letters ∧
    Tempo.ofValue (.float 120.0) = .ok Tempo.moderate ∧ IsName (.text "Ā") ∧
    ∃ m, Melody.ofText .standard "cat" (.float 120.0) (.text "Ā") = .ok m ∧
      ((m.save none).leaves none = some standardHeader ∧ ¬ m.SavesWhole none) ∧
      (m.save none).leaves (some [0]) = some standardHeader ∧ ¬ m.SavesWhole (some [0]) := by
  have made := Melody.ofText_eq .standard "cat" ofValue_moderate (.text "Ā")
  have writable := Melody.isWritable_of_mem_cat (.text "Ā")
  have saved := Melody.isSaved_of_isWritable writable trivial
  have unspelled : ¬ IsSpelled (.text "Ā") := fun spelled =>
    absurd (spelled rfl _ List.mem_cons_self) (by decide)
  obtain ⟨code, first, last, failed⟩ :=
    (saved none).unspelled_iff.mpr ⟨unspelled, 500000, microseconds_moderate⟩
  refine ⟨rfl, ofValue_moderate, trivial, _, made,
    ⟨(saved none).left _ failed, fun whole => ?_⟩, (saved (some [0])).left _ failed,
    fun whole => ?_⟩
  · cases (saved none).savesWhole_iff.mp whole _ _ failed rfl
  · have kept := (saved (some [0])).savesWhole_iff.mp whole _ _ failed rfl
    exact absurd kept (by decide)

end Keysong
