import Keysong.Midi.Track

/-!
# MIDI files

How the entries of a track are written as bytes: a header chunk, and one track chunk in which
every entry follows the number of ticks since the one before it.

## Main Definitions

* `vlq` — a number in groups of seven bits, all but the last of them marked
* `singleBytes` — a text with one byte for each character
* `trackBytes` — the entries of a track, without status bytes that repeat
* `fileBytes` — a whole file
* `Saved`, `save` — what a file holds after an attempt to write it
-/

namespace Keysong.Midi

/-- Bytes as numbers below 256. -/
abbrev Bytes : Type := List UInt8

/-- A number in exactly `width` bytes, the most significant first. -/
def bigEndian : Nat → Nat → Bytes
  | 0, _ => []
  | width + 1, n => bigEndian width (n / 256) ++ [UInt8.ofNat (n % 256)]

/-- The groups of seven bits before the last one, each of them marked by its top bit. -/
def vlqMarked (n : Nat) : Bytes :=
  if n = 0 then [] else vlqMarked (n / 128) ++ [UInt8.ofNat (128 + n % 128)]
termination_by n

/-- A number in groups of seven bits, all but the last of them marked by their top bit. -/
def vlq (n : Nat) : Bytes := vlqMarked (n / 128) ++ [UInt8.ofNat (n % 128)]

/-- Whether a code point has a byte of its own. -/
def hasByte (p : Text.CodePoint) : Bool := decide (p.code < 256)

/-- The code points of a text as bytes.  The fault names the first run without a byte. -/
def singleBytes (text : List Text.CodePoint) : Except Fault Bytes :=
  let before := text.takeWhile hasByte
  match text.dropWhile hasByte with
  | [] => .ok (text.map fun p => UInt8.ofNat p.code)
  | p :: rest =>
    let run := (p :: rest).takeWhile fun p => !hasByte p
    .error (.nameUnencodable p.code before.length (before.length + run.length - 1))

/-- An entry that only files have: its type and its contents. -/
def metaEntry (type : UInt8) (contents : Bytes) : Bytes :=
  0xFF :: type :: (vlq contents.length ++ contents)

/-- The first byte of a message of a channel. -/
def status? : Message → Option UInt8
  | .noteOff channel _ _ => some (UInt8.ofNat (0x80 + channel.val))
  | .noteOn channel _ _ => some (UInt8.ofNat (0x90 + channel.val))
  | .control channel _ _ => some (UInt8.ofNat (0xB0 + channel.val))
  | _ => none

/-- What follows the first byte of a message of a channel, or a whole entry of a file. -/
def body : Message → Except Fault Bytes
  | .noteOff _ first second | .noteOn _ first second | .control _ first second =>
    .ok [UInt8.ofNat first.val, UInt8.ofNat second.val]
  | .trackName text => do return metaEntry 0x03 (← singleBytes text)
  | .setTempo micros => .ok (metaEntry 0x51 (bigEndian 3 micros))
  | .endOfTrack => .ok (metaEntry 0x2F [])

/-- The entries of a track.  A status byte that equals the one before it is left out, unless an
entry that only files have stands between. -/
def trackBytes : Option UInt8 → List (Nat × Message) → Except Fault Bytes
  | _, [] => .ok []
  | running, (delta, message) :: rest => do
    let contents ← body message
    let status := status? message
    let behind ← trackBytes status rest
    let first := if status = running then [] else status.toList
    return vlq delta ++ first ++ contents ++ behind

/-- The type of a chunk. -/
def chunkType (type : String) : Bytes := type.toList.map fun c => UInt8.ofNat c.toNat

/-- A chunk: its type, its length and its contents. -/
def chunk (type : String) (contents : Bytes) : Bytes :=
  chunkType type ++ bigEndian 4 contents.length ++ contents

/-- The chunk of a track.  Its length has to fit its field. -/
def trackChunk (contents : Bytes) : Except Fault Bytes :=
  if contents.length < 0x100000000 then .ok (chunk "MTrk" contents) else .error .trackTooLong

/-- The header of a file with one track. -/
def header (resolution : Nat) : Except Fault Bytes :=
  if resolution ≤ 32767 then
    .ok (chunk "MThd" (bigEndian 2 1 ++ bigEndian 2 1 ++ bigEndian 2 resolution))
  else .error .resolutionTooLarge

/-- The bytes of a track as a file. -/
def fileBytes (t : Track) : Except Fault Bytes := do
  let entries ← t.messages
  let start ← header t.resolution
  let track ← trackChunk (← trackBytes none entries)
  return start ++ track

/-- What an attempt to write a file leaves behind. -/
structure Saved where
  /-- What the file holds; nothing if it was never opened. -/
  contents : Option Bytes
  /-- Why the attempt failed, if it did. -/
  fault : Option Fault

/-- Writes a track to a file that cannot be opened for the reason `blocked`, if there is one.  The
file is opened once all entries are there; the header is written before the track is turned into
bytes, and the type of its chunk before its length. -/
def save (t : Track) (blocked : Option Fault) : Saved :=
  match t.messages with
  | .error fault => ⟨none, some fault⟩
  | .ok entries =>
    match blocked with
    | some fault => ⟨none, some fault⟩
    | none =>
      match header t.resolution with
      | .error fault => ⟨some [], some fault⟩
      | .ok start =>
        match trackBytes none entries with
        | .error fault => ⟨some start, some fault⟩
        | .ok contents =>
          match trackChunk contents with
          | .error fault => ⟨some (start ++ chunkType "MTrk"), some fault⟩
          | .ok track => ⟨some (start ++ track), none⟩

/-- What is reported when a track is written to a file. -/
def saveNotices (t : Track) (path : List Text.CodePoint) (blocked : Option Fault) : List Notice :=
  ⟨.info, "Saving MIDI file (" ++ toString t.placed.length ++ " messages) to " ++ path ++ "..."⟩
    :: match (save t blocked).fault with
      | none => [⟨.info, "Saved " ++ path⟩]
      | some _ => []

end Keysong.Midi
