import Keysong.Proofs.Performance
import Keysong.Proofs.StandardFile

/-!
# Files are read as they were written

A reader of standard MIDI files gives back the entries of a track from the bytes of its file:
nothing is added, nothing is lost and nothing is left over.

## Main Definitions

* `Message.FitsFile` — the messages that a file can hold
* `IsSingleByteName` — the names that a file can hold
* `IsGenuine` — the texts whose halves are halves
* `Track.afterCalls` — a track after a row of notes, some of which may have been refused

## Main Statements

* `readQuantity_vlq`, `readNumber_bigEndian` — numbers of either form are read back
* `readEvent_message` — so is a message, whether or not its status byte was left out
* `readEvents_trackBytes` — so are the entries of a track
* `readFile_fileBytes` — so is a file
* `readFile_of_fileBytes` — whatever has become a file is read back
* `file_reads_back` — in particular the file of a track after any calls

### Which status byte is left out

The writer leaves out a status byte that equals the last one, and forgets the last one at an entry
that only files have.  The reader keeps the same byte in mind: what it has read last is what the
writer has written last, so both agree on what is left out.  Bytes of data lie below 128, so a
reader always knows whether a status byte is there.
-/

namespace Keysong.Midi

/-! ## Numbers -/

theorem length_bigEndian (width n : Nat) : (bigEndian width n).length = width := by
  induction width generalizing n with
  | zero => rfl
  | succ width ih => rw [bigEndian, List.length_append, ih, List.length_singleton]

theorem number_append (bytes : Bytes) (b : UInt8) :
    number (bytes ++ [b]) = 256 * number bytes + b.toNat := by
  unfold number
  rw [List.foldl_append]
  rfl

theorem number_bigEndian {width n : Nat} (fits : n < 256 ^ width) :
    number (bigEndian width n) = n := by
  induction width generalizing n with
  | zero =>
    rw [pow_zero] at fits
    obtain rfl : n = 0 := by omega
    rfl
  | succ width ih =>
    have digit : (UInt8.ofNat (n % 256)).toNat = n % 256 :=
      UInt8.toNat_ofNat_of_lt' (Nat.mod_lt n (by decide))
    have high : n / 256 < 256 ^ width := Nat.div_lt_of_lt_mul (by rwa [pow_succ'] at fits)
    rw [bigEndian, number_append, ih high, digit, Nat.div_add_mod]

theorem readBytes_append (taken rest : Bytes) :
    readBytes taken.length (taken ++ rest) = some (taken, rest) := by
  unfold readBytes
  rw [if_pos (by rw [List.length_append]; exact Nat.le_add_right _ _), List.take_left',
    List.drop_left'] <;> rfl

theorem readNumber_bigEndian {width n : Nat} (fits : n < 256 ^ width) (rest : Bytes) :
    readNumber width (bigEndian width n ++ rest) = some (n, rest) := by
  have read := readBytes_append (bigEndian width n) rest
  rw [length_bigEndian] at read
  have written : number (bigEndian width n) = n := number_bigEndian fits
  unfold readNumber
  rw [read, Option.bind_eq_bind, Option.bind_some]
  exact congrArg (fun n => some (n, rest)) written

/-- Groups that are marked are read up to the last of them. -/
theorem readQuantity_vlqMarked (n : Nat) (rest : Bytes) :
    readQuantity 0 (vlqMarked n ++ rest) = readQuantity n rest := by
  induction n using Nat.strongRecOn generalizing rest with
  | ind n ih =>
    rw [vlqMarked]
    split
    · rename_i nothing
      rw [nothing, List.nil_append]
    · have small : n % 128 < 128 := Nat.mod_lt n (by decide)
      have marked : (UInt8.ofNat (128 + n % 128)).toNat = 128 + n % 128 :=
        UInt8.toNat_ofNat_of_lt' (Nat.add_lt_add_left small 128)
      have fewer : n / 128 < n := Nat.div_lt_self (by omega) (by decide)
      rw [List.append_assoc, ih (n / 128) fewer, List.singleton_append, readQuantity, marked,
        if_neg (by omega), Nat.add_mod_left, Nat.mod_mod, Nat.div_add_mod']

theorem readQuantity_vlq (n : Nat) (rest : Bytes) :
    readQuantity 0 (vlq n ++ rest) = some (n, rest) := by
  have small : n % 128 < 128 := Nat.mod_lt n (by decide)
  have last : (UInt8.ofNat (n % 128)).toNat = n % 128 :=
    UInt8.toNat_ofNat_of_lt' (small.trans (by decide))
  rw [vlq, List.append_assoc, readQuantity_vlqMarked, List.singleton_append, readQuantity, last,
    if_pos small, Nat.mod_mod, Nat.div_add_mod']

/-! ## Messages -/

/-- The messages that a file can hold: texts whose characters have a byte of their own, and tempos
of 24 bits. -/
def Message.FitsFile : Message → Prop
  | .trackName text => ∀ p ∈ text, ∃ c : Char, p = .char c ∧ c.toNat < 256
  | .setTempo micros => micros < 2 ^ 24
  | _ => True

/-- The status byte of a message as it is written behind that of another one. -/
def leadOf (running : Option UInt8) (m : Message) : Bytes :=
  if status? m = running then [] else (status? m).toList

/-- A status byte, or the one that is still in mind, says how two bytes of data are read. -/
theorem readEvent_data {status : UInt8} (isChannel : 0x80 ≤ status.toNat ∧ status.toNat < 0xC0)
    (first second : Data) (running : Option UInt8) (rest : Bytes) :
    readEvent running ((if some status = running then [] else [status]) ++
        [UInt8.ofNat first.val, UInt8.ofNat second.val] ++ rest) =
      some (.ofChannel status [UInt8.ofNat first.val, UInt8.ofNat second.val], rest) := by
  have byte : ∀ d : Data, (UInt8.ofNat d.val).toNat = d.val := fun d =>
    UInt8.toNat_ofNat_of_lt' (d.isLt.trans (by decide))
  have pair : dataLength status = 2 := if_neg (by omega)
  have data : readData status
      ([UInt8.ofNat first.val, UInt8.ofNat second.val] ++ rest) =
        some (.ofChannel status [UInt8.ofNat first.val, UInt8.ofNat second.val], rest) := by
    have low : ([UInt8.ofNat first.val, UInt8.ofNat second.val].all
        fun b => decide (b.toNat < 128)) = true := by
      simp [byte]
    have read := readBytes_append [UInt8.ofNat first.val, UInt8.ofNat second.val] rest
    unfold readData
    rw [pair]
    rw [List.length_cons, List.length_singleton] at read
    rw [read, Option.bind_eq_bind, Option.bind_some]
    exact if_pos low
  split
  · rename_i same
    rw [← same, List.nil_append, List.cons_append, readEvent,
      if_pos (by rw [byte]; exact first.isLt)]
    exact data
  · rw [List.append_assoc, List.singleton_append, readEvent, if_neg (by omega), if_pos (by omega)]
    exact data

/-- An entry that only files have is read whatever byte was in mind. -/
theorem readEvent_metaEntry (type : UInt8) (contents : Bytes) (running : Option UInt8)
    (rest : Bytes) :
    readEvent running (metaEntry type contents ++ rest) = some (.ofFile type contents, rest) := by
  have read : readContents (vlq contents.length ++ contents ++ rest) = some (contents, rest) := by
    unfold readContents
    rw [List.append_assoc, readQuantity_vlq]
    exact readBytes_append contents rest
  rw [metaEntry, List.cons_append, List.cons_append, readEvent, if_neg (by decide),
    if_neg (by decide), if_pos rfl, readTyped, read]
  rfl

theorem data?_ofNat (d : Data) : data? (UInt8.ofNat d.val) = some d := by
  have byte : (UInt8.ofNat d.val).toNat = d.val :=
    UInt8.toNat_ofNat_of_lt' (d.isLt.trans (by decide))
  unfold data?
  simp only [byte, d.isLt, dif_pos]

/-- A message of a channel is read back from its status byte and its data. -/
theorem readEvent_channel {m : Message} {base : Nat} {channel : Channel} {first second : Data}
    (isBase : base = 0x80 ∨ base = 0x90 ∨ base = 0xB0)
    (status : status? m = some (UInt8.ofNat (base + channel.val)))
    (stands : ∀ s : UInt8, s.toNat = base + channel.val →
      channelMessage? s first second = some m) (running : Option UInt8) (rest : Bytes) :
    ∃ event, readEvent running (leadOf running m ++
        [UInt8.ofNat first.val, UInt8.ofNat second.val] ++ rest) = some (event, rest) ∧
      event.running? = status? m ∧ event.message? = some m := by
  have inside := channel.isLt
  have byte : (UInt8.ofNat (base + channel.val)).toNat = base + channel.val :=
    UInt8.toNat_ofNat_of_lt' (by show _ < 256; omega)
  refine ⟨.ofChannel (UInt8.ofNat (base + channel.val))
    [UInt8.ofNat first.val, UInt8.ofNat second.val], ?_, status.symm, ?_⟩
  · unfold leadOf
    rw [status]
    exact readEvent_data (by omega) first second running rest
  · rw [TrackEvent.message?, data?_ofNat, data?_ofNat]
    exact stands _ byte

/-- An entry that only files have is read back as the message that it stands for. -/
theorem readEvent_entry {m : Message} {type : UInt8} {contents : Bytes} (status : status? m = none)
    (stands : (TrackEvent.ofFile type contents).message? = some m) (running : Option UInt8)
    (rest : Bytes) :
    ∃ event, readEvent running (leadOf running m ++ metaEntry type contents ++ rest) =
        some (event, rest) ∧ event.running? = status? m ∧ event.message? = some m := by
  have nothing : leadOf running m = [] := by
    unfold leadOf
    rw [status]
    split <;> rfl
  refine ⟨.ofFile type contents, ?_, status.symm, stands⟩
  rw [nothing, List.nil_append]
  exact readEvent_metaEntry type contents running rest

theorem hasByte_of_fits {text : List Text.CodePoint}
    (single : ∀ p ∈ text, ∃ c : Char, p = .char c ∧ c.toNat < 256) :
    ∀ p ∈ text, hasByte p = true := by
  intro p mem
  obtain ⟨c, rfl, small⟩ := single p mem
  exact decide_eq_true small

/-- A text whose characters have a byte of their own is written in those bytes. -/
theorem singleBytes_eq {text : List Text.CodePoint} (single : ∀ p ∈ text, hasByte p = true) :
    singleBytes text = .ok (text.map fun p => UInt8.ofNat p.code) := by
  have nothing : text.dropWhile hasByte = [] := List.dropWhile_eq_nil_iff.mpr single
  unfold singleBytes
  rw [nothing]

/-- The bytes of such a text stand for its characters. -/
theorem characters_bytes {text : List Text.CodePoint}
    (single : ∀ p ∈ text, ∃ c : Char, p = .char c ∧ c.toNat < 256) :
    (text.map fun p => UInt8.ofNat p.code).map
      (fun b => Text.CodePoint.char (Char.ofNat b.toNat)) = text := by
  rw [List.map_map]
  refine (List.map_congr_left fun p mem => ?_).trans (List.map_id text)
  obtain ⟨c, rfl, small⟩ := single p mem
  have byte : (UInt8.ofNat c.toNat).toNat = c.toNat := UInt8.toNat_ofNat_of_lt' small
  show Text.CodePoint.char (Char.ofNat (UInt8.ofNat c.toNat).toNat) = .char c
  rw [byte, Char.ofNat_toNat]

/-- **A message is read back**, whatever message was written before it. -/
theorem readEvent_message {m : Message} (fits : m.FitsFile) (running : Option UInt8) :
    ∃ contents, body m = .ok contents ∧ ∀ rest,
      ∃ event, readEvent running (leadOf running m ++ contents ++ rest) = some (event, rest) ∧
        event.running? = status? m ∧ event.message? = some m := by
  cases m with
  | noteOn channel note strength =>
    refine ⟨_, rfl, readEvent_channel (Or.inr (Or.inl rfl)) rfl (fun s byte => ?_) running⟩
    have high : s.toNat / 16 = 9 := by omega
    have low : s.toNat % 16 = channel.val := by omega
    simp [channelMessage?, high, low]
  | noteOff channel note strength =>
    refine ⟨_, rfl, readEvent_channel (Or.inl rfl) rfl (fun s byte => ?_) running⟩
    have high : s.toNat / 16 = 8 := by omega
    have low : s.toNat % 16 = channel.val := by omega
    simp [channelMessage?, high, low]
  | control channel controller value =>
    refine ⟨_, rfl, readEvent_channel (Or.inr (Or.inr rfl)) rfl (fun s byte => ?_) running⟩
    have high : s.toNat / 16 = 11 := by omega
    have low : s.toNat % 16 = channel.val := by omega
    simp [channelMessage?, high, low]
  | trackName text =>
    have written : body (.trackName text) =
        .ok (metaEntry 0x03 (text.map fun p => UInt8.ofNat p.code)) := by
      rw [body, singleBytes_eq (hasByte_of_fits fits)]
      rfl
    have stands : (TrackEvent.ofFile 0x03 (text.map fun p => UInt8.ofNat p.code)).message? =
        some (.trackName text) := by
      rw [TrackEvent.message?, if_pos rfl, characters_bytes fits]
    exact ⟨_, written, readEvent_entry rfl stands running⟩
  | setTempo micros =>
    have fits : micros < 256 ^ 3 := fits
    have stands : (TrackEvent.ofFile 0x51 (bigEndian 3 micros)).message? =
        some (.setTempo micros) := by
      rw [TrackEvent.message?, if_neg (by decide), if_pos ⟨rfl, length_bigEndian 3 micros⟩,
        number_bigEndian fits]
    exact ⟨_, rfl, readEvent_entry rfl stands running⟩
  | endOfTrack => exact ⟨_, rfl, readEvent_entry rfl rfl running⟩

/-! ## Tracks -/

theorem readEvents_cons {running : Option UInt8} {bytes rest : Bytes} {entry : Nat × TrackEvent}
    (read : readEntry running bytes = some (entry, rest)) :
    readEvents running bytes = (readEvents entry.2.running? rest).map (entry :: ·) := by
  have some : bytes ≠ [] := by
    rintro rfl
    exact absurd (readEntry_shortens read) (Nat.not_lt_zero _)
  rw [readEvents, if_neg some]
  split
  · rename_i nothing
    rw [read] at nothing
    cases nothing
  · rename_i found
    rw [read] at found
    obtain ⟨rfl, rfl⟩ := Prod.mk.inj (Option.some.inj found)
    rfl

/-- **The entries of a track are read back**: the status byte that the reader has in mind is always
the one that the writer has. -/
theorem readEvents_trackBytes {entries : List (Nat × Message)}
    (fits : ∀ e ∈ entries, e.2.FitsFile) (running : Option UInt8) :
    ∃ contents events, trackBytes running entries = .ok contents ∧
      readEvents running contents = some events ∧ events.map entry? = entries.map some := by
  induction entries generalizing running with
  | nil => exact ⟨[], [], rfl, by rw [readEvents, if_pos rfl], rfl⟩
  | cons e rest ih =>
    obtain ⟨delta, m⟩ := e
    obtain ⟨fitsHere, fitsBehind⟩ := List.forall_mem_cons.mp fits
    obtain ⟨here, written, read⟩ := readEvent_message fitsHere running
    obtain ⟨behind, events, writtenBehind, readBehind, same⟩ := ih fitsBehind (status? m)
    obtain ⟨event, readHere, inMind, stands⟩ := read behind
    refine ⟨vlq delta ++ leadOf running m ++ here ++ behind, (delta, event) :: events, ?_, ?_, ?_⟩
    · rw [trackBytes, written]
      show (do return vlq delta ++ leadOf running m ++ here ++ (← trackBytes (status? m) rest)) = _
      rw [writtenBehind]
      rfl
    · have entry : readEntry running (vlq delta ++ leadOf running m ++ here ++ behind) =
          some ((delta, event), behind) := by
        unfold readEntry
        rw [List.append_assoc, List.append_assoc, readQuantity_vlq, Option.bind_eq_bind,
          Option.bind_some]
        dsimp only
        rw [← List.append_assoc, readHere]
        rfl
      rw [readEvents_cons entry]
      dsimp only
      rw [inMind, readBehind]
      rfl
    · rw [List.map_cons, List.map_cons, same]
      unfold entry?
      dsimp only
      rw [stands]
      rfl

/-! ## Files -/

theorem readChunk_chunk {type : String} (four : (chunkType type).length = 4) {contents : Bytes}
    (short : contents.length < 2 ^ 32) (rest : Bytes) :
    readChunk type (chunk type contents ++ rest) = some (contents, rest) := by
  have named := readBytes_append (chunkType type)
    (bigEndian 4 contents.length ++ (contents ++ rest))
  rw [four] at named
  unfold readChunk chunk
  rw [List.append_assoc, List.append_assoc, named, Option.bind_eq_bind, Option.bind_some]
  dsimp only
  rw [if_pos rfl, readNumber_bigEndian short, Option.bind_eq_bind, Option.bind_some]
  exact readBytes_append contents rest

theorem readTracks_chunk {contents : Bytes} (short : contents.length < 2 ^ 32)
    {events : List (Nat × TrackEvent)} (read : readEvents none contents = some events) :
    readTracks 1 (chunk "MTrk" contents) = some ([events], []) := by
  have track : readChunk "MTrk" (chunk "MTrk" contents ++ []) = some (contents, []) :=
    readChunk_chunk rfl short []
  rw [List.append_nil] at track
  rw [readTracks, track, Option.bind_eq_bind, Option.bind_some]
  dsimp only
  rw [read]
  rfl

/-- A header and the chunk of a track are read back as a file with that track. -/
theorem readFile_chunks {resolution : Nat} (small : resolution ≤ 32767) {contents : Bytes}
    (short : contents.length < 2 ^ 32) {events : List (Nat × TrackEvent)}
    (read : readEvents none contents = some events) :
    readFile (chunk "MThd" (bigEndian 2 1 ++ bigEndian 2 1 ++ bigEndian 2 resolution) ++
        chunk "MTrk" contents) = some ({ format := 1, resolution, tracks := [events] }, []) := by
  have six : (bigEndian 2 1 ++ bigEndian 2 1 ++ bigEndian 2 resolution).length < 2 ^ 32 := by
    simp [length_bigEndian]
  have head : readChunk "MThd" (chunk "MThd" _ ++ chunk "MTrk" contents) =
      some (_, chunk "MTrk" contents) := readChunk_chunk rfl six (chunk "MTrk" contents)
  have one : ∀ rest, readNumber 2 (bigEndian 2 1 ++ rest) = some (1, rest) :=
    readNumber_bigEndian (by decide)
  have last : readNumber 2 (bigEndian 2 resolution) = some (resolution, []) := by
    have twoBytes : resolution < 256 ^ 2 := by omega
    have read := readNumber_bigEndian twoBytes []
    rwa [List.append_nil] at read
  have ticks : resolution < 0x8000 := by omega
  rw [List.append_assoc] at head ⊢
  unfold readFile
  simp only [head, one, last, ticks, readTracks_chunk short read, Option.bind_eq_bind,
    Option.bind_some, if_true]
  rfl

/-- **A file is read back**: its format, its resolution, and the entries of its one track. -/
theorem readFile_fileBytes {t : Track} (small : t.resolution ≤ 32767)
    {entries : List (Nat × Message)} (written : t.messages = .ok entries)
    (fits : ∀ e ∈ entries, e.2.FitsFile) :
    ∃ contents, trackBytes none entries = .ok contents ∧ (contents.length < 2 ^ 32 →
      ∃ bytes events, fileBytes t = .ok bytes ∧
        readFile bytes = some ({ format := 1, resolution := t.resolution, tracks := [events] }, [])
        ∧ events.map entry? = entries.map some) := by
  obtain ⟨contents, events, bytes, read, same⟩ := readEvents_trackBytes fits none
  refine ⟨contents, bytes, fun short => ⟨_, events, ?_, readFile_chunks small short read, same⟩⟩
  have start : header t.resolution =
      .ok (chunk "MThd" (bigEndian 2 1 ++ bigEndian 2 1 ++ bigEndian 2 t.resolution)) :=
    if_pos small
  have track : trackChunk contents = .ok (chunk "MTrk" contents) := if_pos short
  unfold fileBytes
  simp only [written, start, bytes, track, bind, Except.bind]
  rfl

/-! ## Tracks after any calls -/

namespace Track

/-- A track after a row of notes.  What is refused leaves it as it was. -/
def afterCalls (t : Track) (notes : List TimedNote) : Track :=
  notes.foldl (fun t note => (t.add note).toOption.getD t) t

/-- What a note that is taken leaves as it was: everything but the messages and the cursor.  The new
messages are strikes and releases. -/
structure Extends (t t' : Track) : Prop where
  tempo : t'.tempo = t.tempo
  resolution : t'.resolution = t.resolution
  channel : t'.channel = t.channel
  name : t'.name = t.name
  placed : ∃ more, t'.placed = t.placed ++ more ∧ ∀ p ∈ more, p.message.note?.isSome = true

theorem note?_placeNotes (channel : Channel) (start stop : Nat) (strength : Data) (serial : Nat)
    (notes : List Data) :
    ∀ p ∈ placeNotes channel start stop strength serial notes, p.message.note?.isSome = true := by
  induction notes generalizing serial with
  | nil => exact fun p mem => absurd mem List.not_mem_nil
  | cons note rest ih =>
    refine List.forall_mem_cons.mpr ⟨rfl, List.forall_mem_cons.mpr ⟨rfl, ih (serial + 2)⟩⟩

theorem extends_add {t t' : Track} {note : TimedNote} (added : t.add note = .ok t') :
    t.Extends t' := by
  obtain ⟨notes, waited, length, strength, numbers, wait, long, strong⟩ := exists_of_add added
  rw [add_eq t note numbers wait long strong] at added
  obtain rfl := Except.ok.inj added
  exact ⟨rfl, rfl, rfl, rfl, _, rfl, note?_placeNotes _ _ _ _ _ _⟩

theorem Extends.refl (t : Track) : t.Extends t :=
  ⟨rfl, rfl, rfl, rfl, [], (List.append_nil _).symm, fun _ mem => absurd mem List.not_mem_nil⟩

theorem Extends.trans {t t' t'' : Track} (first : t.Extends t') (next : t'.Extends t'') :
    t.Extends t'' := by
  obtain ⟨more, placed, notes⟩ := first.placed
  obtain ⟨more', placed', notes'⟩ := next.placed
  refine ⟨next.tempo.trans first.tempo, next.resolution.trans first.resolution,
    next.channel.trans first.channel, next.name.trans first.name, more ++ more', ?_,
    fun p mem => (List.mem_append.mp mem).elim (notes p) (notes' p)⟩
  rw [placed', placed, List.append_assoc]

/-- **A track only grows**, whatever calls are made. -/
theorem extends_afterCalls (t : Track) (notes : List TimedNote) :
    t.Extends (t.afterCalls notes) := by
  induction notes generalizing t with
  | nil => exact Extends.refl t
  | cons note rest ih =>
    have step : t.Extends ((t.add note).toOption.getD t) := by
      cases added : t.add note with
      | error fault => exact Extends.refl t
      | ok t' => exact extends_add added
    exact step.trans (ih _)

end Track

/-! ## Reading a track back -/

/-- The names that a file can hold: none, or a text whose characters have a byte of their own. -/
def IsSingleByteName (name : Value) : Prop :=
  name.isTruthy = true → ∃ s : String, name = .text s ∧ ∀ c ∈ s.toList, c.toNat < 256

/-- A name is written unless it is empty. -/
theorem exists_heading {t : Track} (named : IsSingleByteName t.name) :
    ∃ heading, t.nameOf = .ok heading ∧ heading.isSome = t.name.isTruthy ∧
      ∀ s ∈ heading, (Message.trackName s).FitsFile := by
  unfold Track.nameOf
  cases truthy : t.name.isTruthy with
  | false => exact ⟨none, rfl, rfl, fun s mem => absurd mem (Option.not_mem_none s)⟩
  | true =>
    obtain ⟨s, text, single⟩ := named truthy
    rw [text]
    refine ⟨some (Text.codePoints s.toList), rfl, rfl, fun s' mem => ?_⟩
    obtain rfl := Option.mem_some_iff.mp mem
    intro p mem
    obtain ⟨c, here, rfl⟩ := List.mem_map.mp mem
    exact ⟨c, rfl, single c here⟩

theorem microseconds_lt {bpm : Float} {length : Nat} (fits : microseconds bpm = .ok length) :
    length < 2 ^ 24 := by
  unfold microseconds at fits
  dsimp only at fits
  split at fits
  · cases fits
  · split at fits
    · rename_i inside
      obtain rfl := Except.ok.inj fits
      omega
    · cases fits

theorem mem_deltas {last : Nat} {placed : List Placed} {e : Nat × Message}
    (mem : e ∈ Track.deltas last placed) : ∃ p ∈ placed, p.message = e.2 := by
  induction placed generalizing last with
  | nil => cases mem
  | cons p rest ih =>
    rcases List.mem_cons.mp mem with rfl | later
    · exact ⟨p, List.mem_cons_self, rfl⟩
    · obtain ⟨q, here, same⟩ := ih later
      exact ⟨q, List.mem_cons_of_mem p here, same⟩

theorem Message.fitsFile_of_note? {m : Message} (isNote : m.note?.isSome = true) :
    m.FitsFile := by
  cases m with
  | noteOn | noteOff => trivial
  | _ => cases isNote

/-- The entries of a track fit a file if its name does and its placed messages are notes. -/
theorem fitsFile_entries {t : Track} {heading : Option (List Text.CodePoint)} {length : Nat}
    (headed : ∀ s ∈ heading, (Message.trackName s).FitsFile) (short : length < 2 ^ 24)
    (notes : ∀ p ∈ t.placed, p.message.note?.isSome = true) :
    ∀ e ∈ (heading.map fun s => (0, Message.trackName s)).toList
        ++ (0, .setTempo length) :: (Track.deltas 0 t.sorted ++ [(0, .endOfTrack)]),
      e.2.FitsFile := by
  intro e mem
  rcases List.mem_append.mp mem with first | mem
  · obtain ⟨s, here, rfl⟩ := Option.mem_map.mp (Option.mem_toList.mp first)
    exact headed s here
  rcases List.mem_cons.mp mem with rfl | mem
  · exact short
  rcases List.mem_append.mp mem with among | last
  · obtain ⟨p, here, same⟩ := mem_deltas among
    rw [← same]
    exact Message.fitsFile_of_note? (notes p ((List.mergeSort_perm t.placed _).mem_iff.mp here))
  · obtain rfl := List.mem_singleton.mp last
    trivial

/-! ### Whatever is written -/

/-- Code points whose halves have the numbers of halves. -/
def IsGenuine (text : List Text.CodePoint) : Prop :=
  ∀ code, .half code ∈ text → Text.CodePoint.isHalfCode code = true

/-- The name of a track is genuine if it was given as a string, or as a genuine text. -/
theorem isGenuine_of_nameOf {t : Track}
    (genuine : ∀ points, t.name = .ragged points → IsGenuine points) {text : List Text.CodePoint}
    (called : t.nameOf = .ok (some text)) : IsGenuine text := by
  unfold Track.nameOf at called
  split at called
  · split at called
    · obtain rfl := Option.some.inj (Except.ok.inj called)
      intro code mem
      obtain ⟨c, -, character⟩ := List.mem_map.mp mem
      cases character
    · rename_i given
      obtain rfl := Option.some.inj (Except.ok.inj called)
      exact genuine _ given
    · cases called
  · cases called

/-- A genuine text that can be written fits a file: no half has a byte of its own. -/
theorem fitsFile_of_singleBytes {text : List Text.CodePoint} (genuine : IsGenuine text)
    {bytes : Bytes} (written : singleBytes text = .ok bytes) : (Message.trackName text).FitsFile := by
  have single : ∀ p ∈ text, hasByte p = true := by
    unfold singleBytes at written
    dsimp only at written
    split at written
    · rename_i nothing
      exact List.dropWhile_eq_nil_iff.mp nothing
    · cases written
  intro p mem
  have small : p.code < 256 := of_decide_eq_true (single p mem)
  cases p with
  | char c => exact ⟨c, rfl, small⟩
  | half code =>
    have high := genuine code mem
    unfold Text.CodePoint.isHalfCode at high
    rw [Bool.and_eq_true, decide_eq_true_eq] at high
    exact absurd small (not_lt.mpr (le_trans (by decide) high.1))

/-- Every message of a track that is written has been written. -/
theorem exists_body {running : Option UInt8} {entries : List (Nat × Message)} {contents : Bytes}
    (written : trackBytes running entries = .ok contents) :
    ∀ e ∈ entries, ∃ bytes, body e.2 = .ok bytes := by
  induction entries generalizing running contents with
  | nil => exact fun e mem => absurd mem List.not_mem_nil
  | cons e rest ih =>
    obtain ⟨here, first, written⟩ := exists_of_bind written
    obtain ⟨behind, others, -⟩ := exists_of_bind written
    exact List.forall_mem_cons.mpr ⟨⟨here, first⟩, ih others⟩

/-- What has to go well before a track has become a file. -/
theorem exists_of_fileBytes {t : Track} {bytes : Bytes} (written : fileBytes t = .ok bytes) :
    t.resolution ≤ 32767 ∧ ∃ entries contents, t.messages = .ok entries ∧
      trackBytes none entries = .ok contents ∧ contents.length < 2 ^ 32 := by
  obtain ⟨entries, messages, written⟩ := exists_of_bind written
  obtain ⟨start, head, written⟩ := exists_of_bind written
  obtain ⟨contents, inBytes, written⟩ := exists_of_bind written
  obtain ⟨track, length, -⟩ := exists_of_bind written
  refine ⟨?_, entries, contents, messages, inBytes, ?_⟩
  · by_contra large
    rw [header, if_neg large] at head
    cases head
  · by_contra long
    have long : ¬ contents.length < 0x100000000 := long
    rw [trackChunk, if_neg long] at length
    cases length

/-- **Whatever is written is read back**, if the messages that were placed are notes and the halves
in the name are halves. -/
theorem readFile_of_fileBytes {t : Track} {bytes : Bytes} (written : fileBytes t = .ok bytes)
    (notes : ∀ p ∈ t.placed, p.message.note?.isSome = true)
    (genuine : ∀ points, t.name = .ragged points → IsGenuine points) :
    ∃ entries events, t.messages = .ok entries ∧
      readFile bytes = some ({ format := 1, resolution := t.resolution, tracks := [events] }, [])
      ∧ events.map entry? = entries.map some := by
  obtain ⟨small, entries, contents, messages, inBytes, short⟩ := exists_of_fileBytes written
  obtain ⟨heading, length, called, fits, rfl⟩ := exists_of_messages messages
  have headed : ∀ s ∈ heading, (Message.trackName s).FitsFile := by
    intro s mem
    obtain rfl := Option.mem_def.mp mem
    obtain ⟨bytes, named⟩ := exists_body inBytes (0, .trackName s) List.mem_cons_self
    obtain ⟨name, single, -⟩ := exists_of_bind named
    exact fitsFile_of_singleBytes (isGenuine_of_nameOf genuine called) single
  obtain ⟨contents', inBytes', read⟩ :=
    readFile_fileBytes small messages (fitsFile_entries headed (microseconds_lt fits) notes)
  obtain rfl := Except.ok.inj (inBytes.symm.trans inBytes')
  obtain ⟨bytes', events, written', back, same⟩ := read short
  obtain rfl := Except.ok.inj (written.symm.trans written')
  exact ⟨_, events, messages, back, same⟩

/-! ### What calls leave behind -/

/-- What a track is opened with. -/
theorem Track.eq_of_start {resolution channel : Int} {name bpm : Value} {opened : Track}
    (started : Track.start resolution channel name bpm = .ok opened) :
    opened.resolution = resolution.toNat ∧ opened.name = name ∧ opened.placed = [] := by
  unfold Track.start at started
  split at started
  · obtain ⟨channel, -, started⟩ := exists_of_bind started
    obtain ⟨tempo, -, started⟩ := exists_of_bind started
    obtain rfl := Except.ok.inj started
    exact ⟨rfl, rfl, rfl⟩
  · cases started

/-- **What is written is read back.**  A track is opened at any resolution up to 32767, at a tempo
of 24 bits, and with a name whose characters have a byte of their own, and any calls are made, of
which some may be refused.  Its entries are a name unless it is empty, the tempo, the notes in order
with ticks that add up to their own, and the end.  If their bytes are not too many for a chunk, a
reader of standard MIDI files gets exactly these entries from the file, in the one track of a file of
format 1 with the resolution of the track, and nothing is left over. -/
theorem file_reads_back {resolution channel : Int} {name bpm : Value} {opened : Track}
    {length : Nat} (started : Track.start resolution channel name bpm = .ok opened)
    (small : resolution ≤ 32767) (named : IsSingleByteName name)
    (fits : microseconds opened.tempo.bpm = .ok length) (calls : List TimedNote) :
    let t := opened.afterCalls calls
    ∃ heading entries contents, t.nameOf = .ok heading ∧ heading.isSome = name.isTruthy ∧
      t.messages = .ok entries ∧
      entries = (heading.map fun s => (0, Message.trackName s)).toList
        ++ (0, .setTempo length) :: (Track.deltas 0 t.sorted ++ [(0, .endOfTrack)]) ∧
      absolute 0 (Track.deltas 0 t.sorted) = t.sorted.map (fun p => (p.tick, p.message)) ∧
      trackBytes none entries = .ok contents ∧ (contents.length < 2 ^ 32 →
        ∃ bytes events, fileBytes t = .ok bytes ∧
          readFile bytes = some (⟨1, resolution.toNat, [events]⟩, []) ∧
          events.map entry? = entries.map some) := by
  intro t
  obtain ⟨resolution', name', placed'⟩ := Track.eq_of_start started
  have grown : opened.Extends t := Track.extends_afterCalls opened calls
  obtain ⟨more, placed, notes⟩ := grown.placed
  rw [placed', List.nil_append] at placed
  have ticks : t.resolution = resolution.toNat := grown.resolution.trans resolution'
  have sameName : t.name = name := grown.name.trans name'
  obtain ⟨heading, called, headed, single⟩ :=
    exists_heading (t := t) (by rw [sameName]; exact named)
  have written := messages_of_heading called (by rw [grown.tempo]; exact fits)
  have sum : absolute 0 (Track.deltas 0 t.sorted) = t.sorted.map fun p => (p.tick, p.message) :=
    absolute_deltas (fun p _ => Nat.zero_le p.tick) (ascending_sorted t)
  obtain ⟨contents, inBytes, read⟩ :=
    readFile_fileBytes (t := t) (by omega) written
      (fitsFile_entries single (microseconds_lt fits) (by rw [placed]; exact notes))
  rw [ticks] at read
  exact ⟨heading, _, contents, called, headed.trans (congrArg _ sameName), written, rfl, sum,
    inBytes, read⟩

/-- A track with a name, on another channel and at another resolution than the usual ones. -/
def Track.drums : Track where
  tempo := Tempo.moderate
  resolution := 96
  channel := 9
  name := .text "Café"
  placed := []
  cursor := 0
  resolution_pos := by decide

/-- A chord behind a rest, a row of no notes, and a note that the chord has struck before. -/
def fills : List TimedNote :=
  [⟨[60, 64], "8", ["2"], 0.5⟩, ⟨[], "4", [], 0.5⟩, ⟨[60], "2", [], 1.0⟩]

theorem sorted_fills : (Track.drums.afterCalls fills).sorted =
    [⟨192, true, 0, .noteOn 9 60 64⟩, ⟨192, true, 2, .noteOn 9 64 64⟩,
      ⟨240, false, 1, .noteOff 9 60 0⟩, ⟨240, false, 3, .noteOff 9 64 0⟩,
      ⟨240, true, 4, .noteOn 9 60 127⟩, ⟨432, false, 5, .noteOff 9 60 0⟩] := by
  have placed : (Track.drums.afterCalls fills).placed =
      [⟨192, true, 0, .noteOn 9 60 64⟩, ⟨240, false, 1, .noteOff 9 60 0⟩,
        ⟨192, true, 2, .noteOn 9 64 64⟩, ⟨240, false, 3, .noteOff 9 64 0⟩,
        ⟨240, true, 4, .noteOn 9 60 127⟩, ⟨432, false, 5, .noteOff 9 60 0⟩] := by
    decide +kernel
  unfold Track.sorted
  rw [placed]
  cbv

/-- A name beyond the usual characters and chords that leave out status bytes are read back, and
nothing is written of the call that is refused. -/
theorem file_reads_back_fills :
    (Track.start 96 9 (.text "Café") (.float 120.0) = .ok Track.drums ∧ (96 : Int) ≤ 32767 ∧
      IsSingleByteName (.text "Café") ∧
      microseconds Track.drums.tempo.bpm = .ok 500000) ∧
    ∃ entries contents bytes events, (Track.drums.afterCalls fills).messages = .ok entries ∧
      entries.length = 9 ∧ trackBytes none entries = .ok contents ∧ contents.length = 43 ∧
      fileBytes (Track.drums.afterCalls fills) = .ok bytes ∧
      readFile bytes = some (⟨1, 96, [events]⟩, []) ∧ events.map entry? = entries.map some := by
  have tempo : Tempo.ofValue (.float 120.0) = .ok Tempo.moderate := by
    unfold Tempo.ofValue Tempo.ofFloat
    exact dif_pos Tempo.moderate.valid
  have started : Track.start 96 9 (.text "Café") (.float 120.0) = .ok Track.drums := by
    unfold Track.start
    rw [dif_pos (by decide), tempo]
    rfl
  have named : IsSingleByteName (.text "Café") := fun _ => ⟨_, rfl, by simp⟩
  obtain ⟨heading, entries, contents, called, headed, written, same, -, inBytes, read⟩ :=
    file_reads_back started (by decide) named microseconds_moderate fills
  have kept : (Track.drums.afterCalls fills).name = .text "Café" :=
    (Track.extends_afterCalls Track.drums fills).name
  have name : heading = some (Text.codePoints "Café".toList) := by
    unfold Track.nameOf at called
    rw [kept] at called
    exact (Except.ok.inj called).symm
  rw [sorted_fills, name] at same
  have length : (trackBytes none entries).toOption.map List.length = some 43 := by
    rw [same]
    cbv
  rw [inBytes] at length
  have size : contents.length = 43 := Option.some.inj length
  obtain ⟨bytes, events, inFile, back, agree⟩ := read (by omega)
  exact ⟨⟨started, by decide, named, microseconds_moderate⟩, entries, contents, bytes, events,
    written, by rw [same]; rfl, inBytes, size, inFile, back, agree⟩

end Keysong.Midi
