import Keysong.Text.Span

/-!
# Blank characters

The characters that separate words and that are dropped around a name or a number: the white
space of Unicode 14 together with the four information separators U+001C to U+001F.

## Main Definitions

* `isBlank` — the property
* `trim` — a text without the blanks at its two ends
-/

namespace Keysong.Text

/-- The blank characters, as runs of code points. -/
def blankSpans : List Span :=
  [.solid 0x9 0xD, .solid 0x1C 0x20, .solid 0x85 0x85, .solid 0xA0 0xA0, .solid 0x1680 0x1680,
   .solid 0x2000 0x200A, .solid 0x2028 0x2029, .solid 0x202F 0x202F, .solid 0x205F 0x205F,
   .solid 0x3000 0x3000]

/-- White space of any script, and the information separators. -/
def isBlank (c : Char) : Bool := Span.anyHolds blankSpans c.toNat

/-- A text without the blanks at its two ends. -/
def trim (text : List Char) : List Char :=
  ((text.dropWhile isBlank).reverse.dropWhile isBlank).reverse

/-- What holds of the first 128 characters, as far as they are letters, holds of all letters. -/
theorem forall_isAlpha {P : Char → Prop}
    (ascii : ∀ n < 128, (Char.ofNat n).isAlpha = true → P (Char.ofNat n)) {x : Char}
    (letter : x.isAlpha = true) : P x := by
  have below : x.toNat < 128 := by
    delta Char.isAlpha Char.isUpper Char.isLower at letter
    simp [UInt32.le_iff_toNat_le] at letter
    omega
  have here := ascii x.toNat below
  rw [Char.ofNat_toNat] at here
  exact here letter

/-- No letter is blank. -/
theorem isBlank_of_isAlpha {x : Char} (letter : x.isAlpha = true) : isBlank x = false := by
  refine forall_isAlpha (P := fun x => isBlank x = false) ?_ letter
  decide +kernel

@[simp] theorem trim_nil : trim [] = [] := rfl

end Keysong.Text
