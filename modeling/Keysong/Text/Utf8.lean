import Keysong.Text.CodePoint

/-!
# Characters as bytes

Bytes that are meant as a text need not be the encoding of one.  A byte that is part of no character
stays in the text as a half of a surrogate pair, of which there is one for every byte from 128 on,
so that no byte is lost.

## Main Definitions

* `Utf8.decode` — the text of bytes
* `Utf8.isEncodable`, `Utf8.size` — whether a code point stands for bytes, and for how many
* `Utf8.byteCount` — the number of bytes of a text
-/

namespace Keysong.Text.Utf8

/-- The half that stands for a byte. -/
def halfOf (b : UInt8) : CodePoint := .half (0xDC00 + b.toNat)

/-- The character that bytes start with. -/
def leading? (bytes : List UInt8) : Option Char :=
  [1, 2, 3, 4].findSome? fun n =>
    (String.fromUTF8? ⟨(bytes.take n).toArray⟩).bind fun s => s.toList.head?

/-- The text of bytes, some of which belong to a character before them. -/
def decodeBehind : Nat → List UInt8 → List CodePoint
  | _, [] => []
  | n + 1, _ :: rest => decodeBehind n rest
  | 0, b :: rest =>
    match leading? (b :: rest) with
    | some c => .char c :: decodeBehind (c.utf8Size - 1) rest
    | none => halfOf b :: decodeBehind 0 rest

/-- The text of bytes. -/
def decode (bytes : List UInt8) : List CodePoint := decodeBehind 0 bytes

/-- Whether a code point stands for bytes: it is a character or the half of a byte. -/
def isEncodable (p : CodePoint) : Bool :=
  match p with
  | .char _ => true
  | .half code => decide (0xDC80 ≤ code) && decide (code ≤ 0xDCFF)

/-- The number of bytes that a code point stands for. -/
def size (p : CodePoint) : Nat :=
  match p with
  | .char c => c.utf8Size
  | .half _ => 1

/-- The number of bytes that a text stands for. -/
def byteCount (text : List CodePoint) : Nat := (text.map size).foldr (· + ·) 0

end Keysong.Text.Utf8
