import Keysong.Text.Span

/-!
# Letter case

Which letters are capitals, and which small letter belongs to a letter, for all alphabets of
Unicode 14.  A key of the keyboard is found whatever the case it is typed in, so a text is
compared in its small form.  One letter, U+0130, has a small form of two code points; the small
form of a character is therefore a list.

## Main Definitions

* `isCapital` — the upper-case property
* `small` — the small form of a character
* `smallForm` — the small form of a text, character by character
-/

namespace Keysong.Text

/-- The upper-case characters, as runs of code points. -/
def capitalSpans : List Span :=
  [.solid 0x41 0x5A, .solid 0xC0 0xD6, .solid 0xD8 0xDE, ⟨0x100, 0x136, 2⟩, ⟨0x139, 0x147, 2⟩,
   ⟨0x14A, 0x178, 2⟩, ⟨0x179, 0x17D, 2⟩, .solid 0x181 0x182, ⟨0x184, 0x186, 2⟩,
   ⟨0x187, 0x189, 2⟩, .solid 0x18A 0x18B, .solid 0x18E 0x191, .solid 0x193 0x194,
   .solid 0x196 0x198, .solid 0x19C 0x19D, .solid 0x19F 0x1A0, ⟨0x1A2, 0x1A6, 2⟩,
   ⟨0x1A7, 0x1A9, 2⟩, ⟨0x1AC, 0x1AE, 2⟩, ⟨0x1AF, 0x1B1, 2⟩, .solid 0x1B2 0x1B3,
   ⟨0x1B5, 0x1B7, 2⟩, .solid 0x1B8 0x1B8, .solid 0x1BC 0x1BC, .solid 0x1C4 0x1C4,
   .solid 0x1C7 0x1C7, .solid 0x1CA 0x1CA, ⟨0x1CD, 0x1DB, 2⟩, ⟨0x1DE, 0x1EE, 2⟩,
   .solid 0x1F1 0x1F1, ⟨0x1F4, 0x1F6, 2⟩, .solid 0x1F7 0x1F8, ⟨0x1FA, 0x232, 2⟩,
   .solid 0x23A 0x23B, .solid 0x23D 0x23E, ⟨0x241, 0x243, 2⟩, .solid 0x244 0x246,
   ⟨0x248, 0x24E, 2⟩, ⟨0x370, 0x372, 2⟩, .solid 0x376 0x376, .solid 0x37F 0x37F,
   ⟨0x386, 0x388, 2⟩, .solid 0x389 0x38A, ⟨0x38C, 0x38E, 2⟩, ⟨0x38F, 0x391, 2⟩,
   .solid 0x392 0x3A1, .solid 0x3A3 0x3AB, .solid 0x3CF 0x3CF, .solid 0x3D2 0x3D4,
   ⟨0x3D8, 0x3EE, 2⟩, .solid 0x3F4 0x3F4, ⟨0x3F7, 0x3F9, 2⟩, .solid 0x3FA 0x3FA,
   .solid 0x3FD 0x42F, ⟨0x460, 0x480, 2⟩, ⟨0x48A, 0x4C0, 2⟩, ⟨0x4C1, 0x4CD, 2⟩,
   ⟨0x4D0, 0x52E, 2⟩, .solid 0x531 0x556, .solid 0x10A0 0x10C5, .solid 0x10C7 0x10C7,
   .solid 0x10CD 0x10CD, .solid 0x13A0 0x13F5, .solid 0x1C90 0x1CBA, .solid 0x1CBD 0x1CBF,
   ⟨0x1E00, 0x1E94, 2⟩, ⟨0x1E9E, 0x1EFE, 2⟩, .solid 0x1F08 0x1F0F, .solid 0x1F18 0x1F1D,
   .solid 0x1F28 0x1F2F, .solid 0x1F38 0x1F3F, .solid 0x1F48 0x1F4D, ⟨0x1F59, 0x1F5F, 2⟩,
   .solid 0x1F68 0x1F6F, .solid 0x1FB8 0x1FBB, .solid 0x1FC8 0x1FCB, .solid 0x1FD8 0x1FDB,
   .solid 0x1FE8 0x1FEC, .solid 0x1FF8 0x1FFB, .solid 0x2102 0x2102, .solid 0x2107 0x2107,
   .solid 0x210B 0x210D, .solid 0x2110 0x2112, .solid 0x2115 0x2115, .solid 0x2119 0x211D,
   ⟨0x2124, 0x212A, 2⟩, .solid 0x212B 0x212D, .solid 0x2130 0x2133, .solid 0x213E 0x213F,
   .solid 0x2145 0x2145, .solid 0x2160 0x216F, .solid 0x2183 0x2183, .solid 0x24B6 0x24CF,
   .solid 0x2C00 0x2C2F, ⟨0x2C60, 0x2C62, 2⟩, .solid 0x2C63 0x2C64, ⟨0x2C67, 0x2C6D, 2⟩,
   .solid 0x2C6E 0x2C70, .solid 0x2C72 0x2C72, .solid 0x2C75 0x2C75, .solid 0x2C7E 0x2C80,
   ⟨0x2C82, 0x2CE2, 2⟩, ⟨0x2CEB, 0x2CED, 2⟩, .solid 0x2CF2 0x2CF2, ⟨0xA640, 0xA66C, 2⟩,
   ⟨0xA680, 0xA69A, 2⟩, ⟨0xA722, 0xA72E, 2⟩, ⟨0xA732, 0xA76E, 2⟩, ⟨0xA779, 0xA77D, 2⟩,
   ⟨0xA77E, 0xA786, 2⟩, ⟨0xA78B, 0xA78D, 2⟩, ⟨0xA790, 0xA792, 2⟩, ⟨0xA796, 0xA7AA, 2⟩,
   .solid 0xA7AB 0xA7AE, .solid 0xA7B0 0xA7B4, ⟨0xA7B6, 0xA7C4, 2⟩, .solid 0xA7C5 0xA7C7,
   .solid 0xA7C9 0xA7C9, .solid 0xA7D0 0xA7D0, ⟨0xA7D6, 0xA7D8, 2⟩, .solid 0xA7F5 0xA7F5,
   .solid 0xFF21 0xFF3A, .solid 0x10400 0x10427, .solid 0x104B0 0x104D3, .solid 0x10570 0x1057A,
   .solid 0x1057C 0x1058A, .solid 0x1058C 0x10592, .solid 0x10594 0x10595,
   .solid 0x10C80 0x10CB2, .solid 0x118A0 0x118BF, .solid 0x16E40 0x16E5F,
   .solid 0x1D400 0x1D419, .solid 0x1D434 0x1D44D, .solid 0x1D468 0x1D481, ⟨0x1D49C, 0x1D49E, 2⟩,
   .solid 0x1D49F 0x1D49F, .solid 0x1D4A2 0x1D4A2, .solid 0x1D4A5 0x1D4A6,
   .solid 0x1D4A9 0x1D4AC, .solid 0x1D4AE 0x1D4B5, .solid 0x1D4D0 0x1D4E9,
   .solid 0x1D504 0x1D505, .solid 0x1D507 0x1D50A, .solid 0x1D50D 0x1D514,
   .solid 0x1D516 0x1D51C, .solid 0x1D538 0x1D539, .solid 0x1D53B 0x1D53E,
   .solid 0x1D540 0x1D544, .solid 0x1D546 0x1D546, .solid 0x1D54A 0x1D550,
   .solid 0x1D56C 0x1D585, .solid 0x1D5A0 0x1D5B9, .solid 0x1D5D4 0x1D5ED,
   .solid 0x1D608 0x1D621, .solid 0x1D63C 0x1D655, .solid 0x1D670 0x1D689,
   .solid 0x1D6A8 0x1D6C0, .solid 0x1D6E2 0x1D6FA, .solid 0x1D71C 0x1D734,
   .solid 0x1D756 0x1D76E, .solid 0x1D790 0x1D7A8, .solid 0x1D7CA 0x1D7CA,
   .solid 0x1E900 0x1E921, .solid 0x1F130 0x1F149, .solid 0x1F150 0x1F169,
   .solid 0x1F170 0x1F189]

/-- Whether a character is an upper-case letter or letter-like sign. -/
def isCapital (c : Char) : Bool := Span.anyHolds capitalSpans c.toNat

/-- Runs of characters whose small form lies at a fixed distance. -/
def smallShifts : List (Span × Int) :=
  [(.solid 0x41 0x5A, 32), (.solid 0xC0 0xD6, 32), (.solid 0xD8 0xDE, 32),
   (⟨0x100, 0x12E, 2⟩, 1), (⟨0x132, 0x136, 2⟩, 1), (⟨0x139, 0x147, 2⟩, 1),
   (⟨0x14A, 0x176, 2⟩, 1), (.solid 0x178 0x178, -121), (⟨0x179, 0x17D, 2⟩, 1),
   (.solid 0x181 0x181, 210), (⟨0x182, 0x184, 2⟩, 1), (.solid 0x186 0x186, 206),
   (.solid 0x187 0x187, 1), (.solid 0x189 0x18A, 205), (.solid 0x18B 0x18B, 1),
   (.solid 0x18E 0x18E, 79), (.solid 0x18F 0x18F, 202), (.solid 0x190 0x190, 203),
   (.solid 0x191 0x191, 1), (.solid 0x193 0x193, 205), (.solid 0x194 0x194, 207),
   (.solid 0x196 0x196, 211), (.solid 0x197 0x197, 209), (.solid 0x198 0x198, 1),
   (.solid 0x19C 0x19C, 211), (.solid 0x19D 0x19D, 213), (.solid 0x19F 0x19F, 214),
   (⟨0x1A0, 0x1A4, 2⟩, 1), (.solid 0x1A6 0x1A6, 218), (.solid 0x1A7 0x1A7, 1),
   (.solid 0x1A9 0x1A9, 218), (.solid 0x1AC 0x1AC, 1), (.solid 0x1AE 0x1AE, 218),
   (.solid 0x1AF 0x1AF, 1), (.solid 0x1B1 0x1B2, 217), (⟨0x1B3, 0x1B5, 2⟩, 1),
   (.solid 0x1B7 0x1B7, 219), (.solid 0x1B8 0x1B8, 1), (.solid 0x1BC 0x1BC, 1),
   (.solid 0x1C4 0x1C4, 2), (.solid 0x1C5 0x1C5, 1), (.solid 0x1C7 0x1C7, 2),
   (.solid 0x1C8 0x1C8, 1), (.solid 0x1CA 0x1CA, 2), (⟨0x1CB, 0x1DB, 2⟩, 1),
   (⟨0x1DE, 0x1EE, 2⟩, 1), (.solid 0x1F1 0x1F1, 2), (⟨0x1F2, 0x1F4, 2⟩, 1),
   (.solid 0x1F6 0x1F6, -97), (.solid 0x1F7 0x1F7, -56), (⟨0x1F8, 0x21E, 2⟩, 1),
   (.solid 0x220 0x220, -130), (⟨0x222, 0x232, 2⟩, 1), (.solid 0x23A 0x23A, 10795),
   (.solid 0x23B 0x23B, 1), (.solid 0x23D 0x23D, -163), (.solid 0x23E 0x23E, 10792),
   (.solid 0x241 0x241, 1), (.solid 0x243 0x243, -195), (.solid 0x244 0x244, 69),
   (.solid 0x245 0x245, 71), (⟨0x246, 0x24E, 2⟩, 1), (⟨0x370, 0x372, 2⟩, 1),
   (.solid 0x376 0x376, 1), (.solid 0x37F 0x37F, 116), (.solid 0x386 0x386, 38),
   (.solid 0x388 0x38A, 37), (.solid 0x38C 0x38C, 64), (.solid 0x38E 0x38F, 63),
   (.solid 0x391 0x3A1, 32), (.solid 0x3A3 0x3AB, 32), (.solid 0x3CF 0x3CF, 8),
   (⟨0x3D8, 0x3EE, 2⟩, 1), (.solid 0x3F4 0x3F4, -60), (.solid 0x3F7 0x3F7, 1),
   (.solid 0x3F9 0x3F9, -7), (.solid 0x3FA 0x3FA, 1), (.solid 0x3FD 0x3FF, -130),
   (.solid 0x400 0x40F, 80), (.solid 0x410 0x42F, 32), (⟨0x460, 0x480, 2⟩, 1),
   (⟨0x48A, 0x4BE, 2⟩, 1), (.solid 0x4C0 0x4C0, 15), (⟨0x4C1, 0x4CD, 2⟩, 1),
   (⟨0x4D0, 0x52E, 2⟩, 1), (.solid 0x531 0x556, 48), (.solid 0x10A0 0x10C5, 7264),
   (.solid 0x10C7 0x10C7, 7264), (.solid 0x10CD 0x10CD, 7264), (.solid 0x13A0 0x13EF, 38864),
   (.solid 0x13F0 0x13F5, 8), (.solid 0x1C90 0x1CBA, -3008), (.solid 0x1CBD 0x1CBF, -3008),
   (⟨0x1E00, 0x1E94, 2⟩, 1), (.solid 0x1E9E 0x1E9E, -7615), (⟨0x1EA0, 0x1EFE, 2⟩, 1),
   (.solid 0x1F08 0x1F0F, -8), (.solid 0x1F18 0x1F1D, -8), (.solid 0x1F28 0x1F2F, -8),
   (.solid 0x1F38 0x1F3F, -8), (.solid 0x1F48 0x1F4D, -8), (⟨0x1F59, 0x1F5F, 2⟩, -8),
   (.solid 0x1F68 0x1F6F, -8), (.solid 0x1F88 0x1F8F, -8), (.solid 0x1F98 0x1F9F, -8),
   (.solid 0x1FA8 0x1FAF, -8), (.solid 0x1FB8 0x1FB9, -8), (.solid 0x1FBA 0x1FBB, -74),
   (.solid 0x1FBC 0x1FBC, -9), (.solid 0x1FC8 0x1FCB, -86), (.solid 0x1FCC 0x1FCC, -9),
   (.solid 0x1FD8 0x1FD9, -8), (.solid 0x1FDA 0x1FDB, -100), (.solid 0x1FE8 0x1FE9, -8),
   (.solid 0x1FEA 0x1FEB, -112), (.solid 0x1FEC 0x1FEC, -7), (.solid 0x1FF8 0x1FF9, -128),
   (.solid 0x1FFA 0x1FFB, -126), (.solid 0x1FFC 0x1FFC, -9), (.solid 0x2126 0x2126, -7517),
   (.solid 0x212A 0x212A, -8383), (.solid 0x212B 0x212B, -8262), (.solid 0x2132 0x2132, 28),
   (.solid 0x2160 0x216F, 16), (.solid 0x2183 0x2183, 1), (.solid 0x24B6 0x24CF, 26),
   (.solid 0x2C00 0x2C2F, 48), (.solid 0x2C60 0x2C60, 1), (.solid 0x2C62 0x2C62, -10743),
   (.solid 0x2C63 0x2C63, -3814), (.solid 0x2C64 0x2C64, -10727), (⟨0x2C67, 0x2C6B, 2⟩, 1),
   (.solid 0x2C6D 0x2C6D, -10780), (.solid 0x2C6E 0x2C6E, -10749),
   (.solid 0x2C6F 0x2C6F, -10783), (.solid 0x2C70 0x2C70, -10782), (.solid 0x2C72 0x2C72, 1),
   (.solid 0x2C75 0x2C75, 1), (.solid 0x2C7E 0x2C7F, -10815), (⟨0x2C80, 0x2CE2, 2⟩, 1),
   (⟨0x2CEB, 0x2CED, 2⟩, 1), (.solid 0x2CF2 0x2CF2, 1), (⟨0xA640, 0xA66C, 2⟩, 1),
   (⟨0xA680, 0xA69A, 2⟩, 1), (⟨0xA722, 0xA72E, 2⟩, 1), (⟨0xA732, 0xA76E, 2⟩, 1),
   (⟨0xA779, 0xA77B, 2⟩, 1), (.solid 0xA77D 0xA77D, -35332), (⟨0xA77E, 0xA786, 2⟩, 1),
   (.solid 0xA78B 0xA78B, 1), (.solid 0xA78D 0xA78D, -42280), (⟨0xA790, 0xA792, 2⟩, 1),
   (⟨0xA796, 0xA7A8, 2⟩, 1), (.solid 0xA7AA 0xA7AA, -42308), (.solid 0xA7AB 0xA7AB, -42319),
   (.solid 0xA7AC 0xA7AC, -42315), (.solid 0xA7AD 0xA7AD, -42305),
   (.solid 0xA7AE 0xA7AE, -42308), (.solid 0xA7B0 0xA7B0, -42258),
   (.solid 0xA7B1 0xA7B1, -42282), (.solid 0xA7B2 0xA7B2, -42261), (.solid 0xA7B3 0xA7B3, 928),
   (⟨0xA7B4, 0xA7C2, 2⟩, 1), (.solid 0xA7C4 0xA7C4, -48), (.solid 0xA7C5 0xA7C5, -42307),
   (.solid 0xA7C6 0xA7C6, -35384), (⟨0xA7C7, 0xA7C9, 2⟩, 1), (.solid 0xA7D0 0xA7D0, 1),
   (⟨0xA7D6, 0xA7D8, 2⟩, 1), (.solid 0xA7F5 0xA7F5, 1), (.solid 0xFF21 0xFF3A, 32),
   (.solid 0x10400 0x10427, 40), (.solid 0x104B0 0x104D3, 40), (.solid 0x10570 0x1057A, 39),
   (.solid 0x1057C 0x1058A, 39), (.solid 0x1058C 0x10592, 39), (.solid 0x10594 0x10595, 39),
   (.solid 0x10C80 0x10CB2, 64), (.solid 0x118A0 0x118BF, 32), (.solid 0x16E40 0x16E5F, 32),
   (.solid 0x1E900 0x1E921, 34)]

/-- The small form of a character: itself if it is no capital. -/
def small (c : Char) : List Char :=
  if c = 'İ' then ['i', '\u0307']
  else match smallShifts.find? (·.1.holds c.toNat) with
    | some (_, shift) => [Char.ofNat ((c.toNat : Int) + shift).toNat]
    | none => [c]

/-- The small form of a text, character by character. -/
def smallForm (text : List Char) : List Char := text.flatMap small

@[simp] theorem smallForm_nil : smallForm [] = [] := rfl

@[simp] theorem smallForm_singleton (c : Char) : smallForm [c] = small c := by
  simp [smallForm]

end Keysong.Text
