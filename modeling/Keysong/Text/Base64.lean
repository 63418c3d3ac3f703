/-!
# Base 64

Bytes as a text, six bits to a character and four characters to three bytes.  What is no digit does
not count, and neither does anything behind the padding.

## Main Definitions

* `Base64.digit?` — the six bits of a character
* `Base64.decode?` — the bytes of a text
-/

namespace Keysong.Text.Base64

/-- The six bits that a character stands for. -/
def digit? (c : Char) : Option Nat :=
  let n := c.toNat
  if 65 ≤ n ∧ n ≤ 90 then some (n - 65)
  else if 97 ≤ n ∧ n ≤ 122 then some (n - 71)
  else if 48 ≤ n ∧ n ≤ 57 then some (n + 4)
  else if c = '+' then some 62
  else if c = '/' then some 63
  else none

/-- How far a group of four characters has come. -/
structure Group where
  /-- The number of digits read. -/
  size : Nat
  /-- The bits that do not fill a byte yet. -/
  bits : Nat
  /-- The number of padding characters since the last digit. -/
  padding : Nat

/-- The group that starts behind a full one. -/
def Group.empty : Group := ⟨0, 0, 0⟩

/-- The bytes of a text, read on from within a group.  Padding ends the text where it fills a group
of at least two digits; a text may not end within a group. -/
def decodeFrom (g : Group) : List Char → Option (List UInt8)
  | [] => if g.size = 0 then some [] else none
  | c :: rest =>
    if c = '=' then
      if 2 ≤ g.size ∧ 4 ≤ g.size + g.padding + 1 then some []
      else decodeFrom { g with padding := if 2 ≤ g.size then g.padding + 1 else g.padding } rest
    else
      match digit? c with
      | none => decodeFrom g rest
      | some d =>
        match g.size with
        | 0 => decodeFrom ⟨1, d, 0⟩ rest
        | 1 => (decodeFrom ⟨2, d % 16, 0⟩ rest).map (UInt8.ofNat (g.bits * 4 + d / 16) :: ·)
        | 2 => (decodeFrom ⟨3, d % 4, 0⟩ rest).map (UInt8.ofNat (g.bits * 16 + d / 4) :: ·)
        | _ => (decodeFrom .empty rest).map (UInt8.ofNat (g.bits * 64 + d) :: ·)

/-- The bytes of a text, if it is complete. -/
def decode? (text : List Char) : Option (List UInt8) := decodeFrom .empty text

end Keysong.Text.Base64
