import Keysong.Midi.File

/-!
# Reading standard MIDI files

What a reader makes of the bytes of a file, whoever wrote them.  It knows the whole format: files
of several tracks, messages and entries of any kind, status bytes that are left out.  It gives back
what it has read, together with the bytes that it has not looked at.

## Main Definitions

* `readQuantity` — a number in groups of seven bits, all but the last of them marked
* `TrackEvent` — what stands behind a delta in a track
* `readEvent` — one such event, behind the status byte that may be left out
* `readEvents` — all events of a track chunk
* `Contents`, `readFile` — a whole file
* `TrackEvent.message?` — the message that an event stands for

## Main Statements

* `readEntry_shortens` — an event with its delta takes at least one byte, so a track is read to its
  end
-/

namespace Keysong.Midi

/-! ## Numbers -/

/-- Bytes as a number, the most significant first. -/
def number (bytes : Bytes) : Nat := bytes.foldl (fun n b => 256 * n + b.toNat) 0

/-- A row of bytes of a given length. -/
def readBytes (length : Nat) (bytes : Bytes) : Option (Bytes × Bytes) :=
  if length ≤ bytes.length then some (bytes.take length, bytes.drop length) else none

/-- A number of a given width. -/
def readNumber (width : Nat) (bytes : Bytes) : Option (Nat × Bytes) := do
  let (digits, rest) ← readBytes width bytes
  return (number digits, rest)

/-- A number in groups of seven bits, behind the groups of `high`. -/
def readQuantity (high : Nat) : Bytes → Option (Nat × Bytes)
  | [] => none
  | b :: rest =>
    let n := high * 128 + b.toNat % 128
    if b.toNat < 128 then some (n, rest) else readQuantity n rest

/-! ## Tracks -/

/-- What stands behind a delta in a track. -/
inductive TrackEvent where
  /-- A message of a channel. -/
  | ofChannel (status : UInt8) (data : Bytes)
  /-- An entry that only files have. -/
  | ofFile (type : UInt8) (contents : Bytes)
  /-- A message that only some instruments understand, or a piece of one. -/
  | exclusive (contents : Bytes)
  deriving Repr, DecidableEq

/-- The status byte that may be left out behind an event. -/
def TrackEvent.running? : TrackEvent → Option UInt8
  | ofChannel status _ => some status
  | ofFile .. | exclusive _ => none

/-- How many bytes follow the status byte of a message of a channel. -/
def dataLength (status : UInt8) : Nat :=
  if status.toNat / 16 = 0xC ∨ status.toNat / 16 = 0xD then 1 else 2

/-- A message of a channel behind its status byte. -/
def readData (status : UInt8) (bytes : Bytes) : Option (TrackEvent × Bytes) := do
  let (data, rest) ← readBytes (dataLength status) bytes
  if data.all fun b => decide (b.toNat < 128) then return (.ofChannel status data, rest) else none

/-- Contents behind their length. -/
def readContents (bytes : Bytes) : Option (Bytes × Bytes) := do
  let (length, rest) ← readQuantity 0 bytes
  readBytes length rest

/-- An entry that only files have, behind its first byte. -/
def readTyped : Bytes → Option (TrackEvent × Bytes)
  | [] => none
  | type :: rest => do
    let (contents, rest) ← readContents rest
    return (.ofFile type contents, rest)

/-- A message that only some instruments understand, behind its first byte. -/
def readExclusive (bytes : Bytes) : Option (TrackEvent × Bytes) := do
  let (contents, rest) ← readContents bytes
  return (.exclusive contents, rest)

/-- An event of a track.  If it does not begin with a status byte, it has that of the event before
it, `running`. -/
def readEvent (running : Option UInt8) : Bytes → Option (TrackEvent × Bytes)
  | [] => none
  | first :: rest =>
    if first.toNat < 0x80 then do readData (← running) (first :: rest)
    else if first.toNat < 0xF0 then readData first rest
    else if first = 0xFF then readTyped rest
    else if first = 0xF0 ∨ first = 0xF7 then readExclusive rest
    else none

/-- An event with its delta. -/
def readEntry (running : Option UInt8) (bytes : Bytes) : Option ((Nat × TrackEvent) × Bytes) := do
  let (delta, rest) ← readQuantity 0 bytes
  let (event, rest) ← readEvent running rest
  return ((delta, event), rest)

theorem readBytes_le {length : Nat} {bytes taken rest : Bytes}
    (h : readBytes length bytes = some (taken, rest)) : rest.length ≤ bytes.length := by
  unfold readBytes at h
  split at h
  · obtain ⟨-, rfl⟩ := Prod.mk.inj (Option.some.inj h)
    rw [List.length_drop]
    exact Nat.sub_le _ _
  · cases h

theorem readQuantity_shortens {high n : Nat} {bytes rest : Bytes}
    (h : readQuantity high bytes = some (n, rest)) : rest.length < bytes.length := by
  induction bytes generalizing high with
  | nil => cases h
  | cons b bytes ih =>
    rw [readQuantity] at h
    split at h
    · obtain ⟨-, rfl⟩ := Prod.mk.inj (Option.some.inj h)
      exact Nat.lt_succ_self _
    · exact Nat.lt_succ_of_lt (ih h)

theorem readData_le {status : UInt8} {bytes rest : Bytes} {event : TrackEvent}
    (h : readData status bytes = some (event, rest)) : rest.length ≤ bytes.length := by
  unfold readData at h
  obtain ⟨⟨data, left⟩, read, h⟩ := Option.bind_eq_some_iff.mp h
  dsimp only at h
  split at h
  · obtain ⟨-, rfl⟩ := Prod.mk.inj (Option.some.inj h)
    exact readBytes_le read
  · cases h

theorem readContents_le {bytes contents rest : Bytes}
    (h : readContents bytes = some (contents, rest)) : rest.length ≤ bytes.length := by
  unfold readContents at h
  obtain ⟨⟨length, left⟩, read, h⟩ := Option.bind_eq_some_iff.mp h
  exact Nat.le_trans (readBytes_le h) (Nat.le_of_lt (readQuantity_shortens read))

theorem readTyped_le {bytes rest : Bytes} {event : TrackEvent}
    (h : readTyped bytes = some (event, rest)) : rest.length ≤ bytes.length := by
  cases bytes with
  | nil => cases h
  | cons type bytes =>
    rw [readTyped] at h
    obtain ⟨⟨contents, left⟩, read, h⟩ := Option.bind_eq_some_iff.mp h
    obtain ⟨-, rfl⟩ := Prod.mk.inj (Option.some.inj h)
    exact Nat.le_trans (readContents_le read) (Nat.le_succ _)

theorem readExclusive_le {bytes rest : Bytes} {event : TrackEvent}
    (h : readExclusive bytes = some (event, rest)) : rest.length ≤ bytes.length := by
  unfold readExclusive at h
  obtain ⟨⟨contents, left⟩, read, h⟩ := Option.bind_eq_some_iff.mp h
  obtain ⟨-, rfl⟩ := Prod.mk.inj (Option.some.inj h)
  exact readContents_le read

theorem readEvent_le {running : Option UInt8} {bytes rest : Bytes} {event : TrackEvent}
    (h : readEvent running bytes = some (event, rest)) : rest.length ≤ bytes.length := by
  cases bytes with
  | nil => cases h
  | cons first bytes =>
    rw [readEvent] at h
    split at h
    · obtain ⟨status, -, h⟩ := Option.bind_eq_some_iff.mp h
      exact readData_le h
    split at h
    · exact Nat.le_trans (readData_le h) (Nat.le_succ _)
    split at h
    · exact Nat.le_trans (readTyped_le h) (Nat.le_succ _)
    split at h
    · exact Nat.le_trans (readExclusive_le h) (Nat.le_succ _)
    · cases h

/-- An event with its delta takes at least one byte. -/
theorem readEntry_shortens {running : Option UInt8} {bytes rest : Bytes} {entry : Nat × TrackEvent}
    (h : readEntry running bytes = some (entry, rest)) : rest.length < bytes.length := by
  unfold readEntry at h
  obtain ⟨⟨delta, left⟩, read, h⟩ := Option.bind_eq_some_iff.mp h
  obtain ⟨⟨event, left'⟩, read', h⟩ := Option.bind_eq_some_iff.mp h
  obtain ⟨-, rfl⟩ := Prod.mk.inj (Option.some.inj h)
  exact Nat.lt_of_le_of_lt (readEvent_le read') (readQuantity_shortens read)

/-- The events of a track, up to the end of its chunk. -/
def readEvents (running : Option UInt8) (bytes : Bytes) : Option (List (Nat × TrackEvent)) :=
  if bytes = [] then some []
  else
    match read : readEntry running bytes with
    | none => none
    | some (entry, rest) =>
      have : rest.length < bytes.length := readEntry_shortens read
      (readEvents entry.2.running? rest).map (entry :: ·)
termination_by bytes.length

/-! ## Files -/

/-- The contents of a chunk of a given type. -/
def readChunk (type : String) (bytes : Bytes) : Option (Bytes × Bytes) := do
  let (found, rest) ← readBytes 4 bytes
  if found = chunkType type then
    let (length, rest) ← readNumber 4 rest
    readBytes length rest
  else none

/-- Some tracks, each in a chunk of its own. -/
def readTracks : Nat → Bytes → Option (List (List (Nat × TrackEvent)) × Bytes)
  | 0, bytes => some ([], bytes)
  | count + 1, bytes => do
    let (chunk, rest) ← readChunk "MTrk" bytes
    let events ← readEvents none chunk
    let (others, rest) ← readTracks count rest
    return (events :: others, rest)

/-- What a file holds. -/
structure Contents where
  format : Nat
  /-- Ticks per quarter note. -/
  resolution : Nat
  tracks : List (List (Nat × TrackEvent))
  deriving Repr, DecidableEq

/-- A file: its header, and as many tracks as the header says.  Files whose ticks are parts of a
second are not read. -/
def readFile (bytes : Bytes) : Option (Contents × Bytes) := do
  let (head, rest) ← readChunk "MThd" bytes
  let (format, head) ← readNumber 2 head
  let (count, head) ← readNumber 2 head
  let (resolution, _) ← readNumber 2 head
  if resolution < 0x8000 then
    let (tracks, rest) ← readTracks count rest
    return ({ format, resolution, tracks }, rest)
  else none

/-! ## What events stand for -/

/-- A byte that fits a message. -/
def data? (b : UInt8) : Option Data := if fits : b.toNat < 128 then some ⟨b.toNat, fits⟩ else none

/-- The message of a channel with a status byte. -/
def channelMessage? (status : UInt8) (first second : Data) : Option Message :=
  let channel : Channel := ⟨status.toNat % 16, Nat.mod_lt _ (by decide)⟩
  if status.toNat / 16 = 0x8 then some (.noteOff channel first second)
  else if status.toNat / 16 = 0x9 then some (.noteOn channel first second)
  else if status.toNat / 16 = 0xB then some (.control channel first second)
  else none

/-- The message that an event stands for, if it is one of those that a track is written with. -/
def TrackEvent.message? : TrackEvent → Option Message
  | ofChannel status [first, second] => do channelMessage? status (← data? first) (← data? second)
  | ofFile type contents =>
    if type = 0x03 then some (.trackName (contents.map fun b => .char (Char.ofNat b.toNat)))
    else if type = 0x51 ∧ contents.length = 3 then some (.setTempo (number contents))
    else if type = 0x2F ∧ contents = [] then some .endOfTrack
    else none
  | _ => none

/-- The entry that an event with its delta stands for. -/
def entry? (read : Nat × TrackEvent) : Option (Nat × Message) :=
  read.2.message?.map fun message => (read.1, message)

end Keysong.Midi
