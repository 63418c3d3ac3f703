import Keysong.Midi.Message
import Keysong.Tempo
import Mathlib

/-!
# Machine numbers and their exact values

A machine number is compared and multiplied by core's model of the format, and read as an exact
number by `Decimal.Double`.  This module ties the two readings together, and settles the two
questions about machine numbers on which a performance hangs.

## Main Definitions

* `Decimal.unpackedSize` — the size of an unpacked number, its sign left aside
* `Decimal.rank` — the place of a number among those between zero and one
* `Midi.strengthAt` — the strength of a velocity that can be scaled

## Main Statements

* `Decimal.size_ofFloat` — both readings give the same size
* `Decimal.le_iff_rank`, `Decimal.lt_iff_rank` — numbers between zero and one are ordered
* `Tempo.quantity_pos` — the exact value of a tempo is above zero
* `Midi.attack_eq` — every velocity between zero and one has a strength

### Why a strength never overflows

A product is rounded twice: once to fit the digits, and once more if the rounding carried.  Either
step only raises the exponent, to no more than the position of the leading digit asks for.  So the
exponent of a product of two small numbers stays far below the largest one, whatever the digits.
-/

namespace Keysong

open Float.Model Float.Model.UnpackedFloat

namespace Decimal

/-! ## Comparing -/

theorem lt_iff_unpack (x y : Float) : x < y ↔ x.toModel.unpack.lt y.toModel.unpack = true := by
  show decide (x.toModel < y.toModel) = true ↔ _
  rw [decide_eq_true_iff]
  rfl

theorem le_iff_unpack (x y : Float) : x ≤ y ↔ x.toModel.unpack.le y.toModel.unpack = true := by
  show decide (x.toModel ≤ y.toModel) = true ↔ _
  rw [decide_eq_true_iff]
  rfl

theorem unpack_zero : (0 : Float).toModel.unpack = .zero .positive := rfl

theorem unpack_one :
    (1 : Float).toModel.unpack = .finite .positive (2 ^ 52) (-52) (by decide) := rfl

/-! ## The fields of a number -/

/-- The size of an unpacked number, its sign left aside. -/
def unpackedSize : UnpackedFloat → Size
  | .infinity _ => .infinite
  | .notANumber => .undefined
  | .zero _ => .finite 0 (-1074)
  | .finite _ mantissa exponent _ => .finite mantissa exponent

theorem toNat_exponentField (bits : UInt64) :
    ((bits >>> 52) &&& 0x7FF).toNat =
      (@unpackExponent .binary64 bits.toBitVec).toNat := by
  rw [UInt64.toNat_and, UInt64.toNat_shiftRight]
  simp only [unpackExponent, BitVec.toNat_cast, BitVec.extractLsb_toNat]
  exact Nat.and_two_pow_sub_one_eq_mod (bits.toNat >>> 52) 11

theorem toNat_mantissaField (bits : UInt64) :
    (bits &&& 0xFFFFFFFFFFFFF).toNat =
      (@unpackMantissa .binary64 bits.toBitVec).toNat := by
  rw [UInt64.toNat_and]
  simp only [unpackMantissa, BitVec.toNat_cast, BitVec.extractLsb_toNat]
  exact Nat.and_two_pow_sub_one_eq_mod bits.toNat 52

theorem toNat_signField (bits : UInt64) :
    (bits >>> 63).toNat = (@unpackSign .binary64 bits.toBitVec).toNat := by
  rw [UInt64.toNat_shiftRight]
  simp only [unpackSign, BitVec.toNat_cast, BitVec.extractLsb_toNat]
  have := bits.toNat_lt
  show bits.toNat >>> 63 = (bits.toNat >>> 63) % 2
  rw [Nat.shiftRight_eq_div_pow]
  omega

/-- The leading digit of a normal number is not written. -/
theorem toNat_implicit (v : BitVec 52) : (1#1 ++ v).toNat = 2 ^ 52 + v.toNat := by
  rw [BitVec.toNat_append, ← Nat.shiftLeft_add_eq_or_of_lt v.isLt]
  simp [Nat.shiftLeft_eq]

theorem size_ofBits (bits : UInt64) :
    (Double.ofBits bits).size = unpackedSize (UnpackedFloat.unpack .binary64 bits.toBitVec) := by
  have ones (v : BitVec 11) : v = -1#11 ↔ v.toNat = 0x7FF := by
    rw [← BitVec.toNat_inj]
    rfl
  have zeros (v : BitVec 11) : v = 0#11 ↔ v.toNat = 0 := by
    rw [← BitVec.toNat_inj]
    rfl
  have noDigits (v : BitVec 52) : v = 0#52 ↔ v.toNat = 0 := by
    rw [← BitVec.toNat_inj]
    rfl
  simp only [Double.ofBits, toNat_exponentField, toNat_mantissaField, UnpackedFloat.unpack,
    ones, zeros, noDigits, beq_iff_eq]
  -- Both readings split alike: the two ends of the range of exponents, and what is between them.
  by_cases allOnes : (@unpackExponent .binary64 bits.toBitVec).toNat = 0x7FF
  · rw [if_pos allOnes, if_pos allOnes]
    split <;> rfl
  rw [if_neg allOnes, if_neg allOnes]
  by_cases subnormal : (@unpackExponent .binary64 bits.toBitVec).toNat = 0
  · rw [if_pos subnormal, if_pos subnormal]
    by_cases zero : (@unpackMantissa .binary64 bits.toBitVec).toNat = 0
    · rw [dif_pos zero, zero]
      rfl
    · rw [dif_neg zero, subnormal]
      rfl
  · rw [if_neg subnormal, if_neg subnormal]
    exact congrArg (Size.finite · _) (toNat_implicit _).symm

/-- The size of a machine number is the one that core's model unpacks. -/
theorem size_ofFloat (x : Float) : (Double.ofFloat x).size = unpackedSize x.toModel.unpack :=
  size_ofBits x.toBits

theorem mantissa_lt_of_unpack {b : BitVec 64} {s : Sign} {m : Nat} {e : Int} {h : 0 < m}
    (u : UnpackedFloat.unpack .binary64 b = .finite s m e h) : m < 2 ^ 53 := by
  have field := (@unpackMantissa .binary64 b).isLt
  unfold UnpackedFloat.unpack at u
  simp only at u
  split at u
  · split at u <;> cases u
  · split at u
    · split at u <;> cases u
      exact Nat.lt_trans field (by decide)
    · cases u
      rw [toNat_implicit]
      change _ < 2 ^ 52 at field
      omega

theorem unpackSign_of_unpack {b : BitVec 64} {s : Sign} {m : Nat} {e : Int} {h : 0 < m}
    (u : UnpackedFloat.unpack .binary64 b = .finite s m e h) :
    Sign.ofBitVec (@unpackSign .binary64 b) = s := by
  unfold UnpackedFloat.unpack at u
  simp only at u
  split at u
  · split at u <;> cases u
  · split at u
    · split at u <;> cases u
      rfl
    · cases u
      rfl

/-! ## Numbers above zero -/

theorem unpack_of_pos {x : Float} (finite : x.isFinite = true) (pos : 0 < x) :
    ∃ m e h, x.toModel.unpack = .finite .positive m e h := by
  have above : (UnpackedFloat.zero .positive).lt x.toModel.unpack = true := by
    rw [← unpack_zero]
    exact (lt_iff_unpack 0 x).mp pos
  have finite : x.toModel.unpack.isFinite = true := finite
  cases u : x.toModel.unpack with
  | notANumber => rw [u] at finite; cases finite
  | infinity s => rw [u] at finite; cases finite
  | zero s => rw [u] at above; cases above
  | finite s m e h =>
    cases s with
    | positive => exact ⟨m, e, h, rfl⟩
    | negative => rw [u] at above; cases above

theorem negative_of_unpack {x : Float} {m : Nat} {e : Int} {h : 0 < m}
    (u : x.toModel.unpack = .finite .positive m e h) : (Double.ofFloat x).negative = false := by
  have sign := unpackSign_of_unpack u
  have clear : ¬ x.toBits >>> 63 = 1 := by
    intro one
    have field : (@unpackSign .binary64 x.toBits.toBitVec).toNat = 1 := by
      rw [← toNat_signField, one]
      rfl
    have set : @unpackSign .binary64 x.toBits.toBitVec = 1#1 := BitVec.eq_of_toNat_eq field
    change Sign.ofBitVec (@unpackSign .binary64 x.toBits.toBitVec) = _ at sign
    rw [set] at sign
    cases sign
  exact beq_eq_false_iff_ne.mpr clear

theorem toRat_pos {x : Float} (finite : x.isFinite = true) (pos : 0 < x) :
    0 < (Double.ofFloat x).toRat := by
  obtain ⟨m, e, h, u⟩ := unpack_of_pos finite pos
  have size : (Double.ofFloat x).size = .finite m e := by
    rw [size_ofFloat, u]
    rfl
  have num : 0 < Double.numerator m e := Nat.mul_pos h (Nat.two_pow_pos _)
  have den : 0 < Double.denominator e := Double.denominator_pos e
  rw [Double.toRat, size, negative_of_unpack u]
  simp only [Double.signed, Bool.false_eq_true, if_false]
  rw [Rat.mkRat_eq_div]
  exact div_pos (by exact_mod_cast num) (by exact_mod_cast den)

/-! ## Products that do not overflow -/

theorem isFinite_unpack {b : BitVec 64} (h : @unpackExponent .binary64 b ≠ -1#11) :
    (UnpackedFloat.unpack .binary64 b).isFinite = true := by
  unfold UnpackedFloat.unpack
  simp only
  rw [if_neg h]
  split
  · split <;> rfl
  · rfl

/-- A number with a small exponent is packed into a finite one. -/
theorem unpackExponent_pack_ne {u : UnpackedFloat} (finite : u.isFinite = true)
    (small : ∀ s m e h, u = .finite s m e h → e ≤ 970) :
    unpackExponent (UnpackedFloat.pack .binary64 u) ≠ -1#11 := by
  cases u with
  | notANumber => cases finite
  | infinity s => cases finite
  | zero s =>
    rw [UnpackedFloat.pack, packedZero, unpackExponent_packComponents]
    decide
  | finite s m e h =>
    have bound := small s m e h rfl
    -- The exponent that stands for infinity is 2047.
    have biased : (e + (Format.exponentBias .binary64 : Nat) + (52 : Nat)).toNat ≤ 2045 := by
      show (e + (1023 : Nat) + (52 : Nat)).toNat ≤ 2045
      omega
    have fits : ¬ 2 ^ 11 ≤ (e + (Format.exponentBias .binary64 : Nat) + (52 : Nat)).toNat + 1 := by
      omega
    rw [UnpackedFloat.pack]
    simp only
    rw [if_neg fits]
    split
    · rw [unpackExponent_packComponents]
      intro ones
      have field := congrArg BitVec.toNat ones
      rw [BitVec.toNat_ofNat, Nat.mod_eq_of_lt (by omega)] at field
      change _ = 2047 at field
      omega
    · rw [unpackExponent_packComponents]
      decide

theorem mantissa_shiftRight_le (em : ExtendedMantissa) (n : Nat) :
    (em >>> n).mantissa ≤ em.mantissa := by
  induction n with
  | zero => exact Nat.le_refl _
  | succ n ih =>
    show (em >>> n).mantissa / 2 ≤ _
    exact Nat.le_trans (Nat.div_le_self _ 2) ih

theorem roundedMantissa_le (em : ExtendedMantissa) : em.roundedMantissa ≤ em.mantissa + 1 := by
  obtain ⟨m, round, sticky⟩ := em
  cases round <;> cases sticky <;>
    simp [ExtendedMantissa.roundedMantissa, ExtendedMantissa.accuracy,
      Accuracy.roundToNearestEven]
  omega

theorem exponent_shift (m : Nat) (e : Int) :
    (shiftToTargetExponent .binary64 m e .exact).2 =
      max e (max ((m.log2 : Int) + 1 + e - 53) (-1074)) := by
  show e + ((max ((m.log2 : Int) + 1 + e - 53) (-1074) - e).toNat : Int) = _
  omega

theorem log2_lt_of_lt {m k : Nat} (pos : 0 < k) (h : m < 2 ^ k) : m.log2 < k := by
  by_cases zero : m = 0
  · rw [zero]
    exact pos
  · exact (Nat.log2_lt zero).mpr h

theorem exponent_roundWithAccuracy_le {s s' : Sign} {m m' : Nat} {e e' : Int} {h' : 0 < m'}
    (mantissa : m < 2 ^ 106) (exponent : e ≤ -98)
    (rounded : roundWithAccuracy .binary64 s m e .exact = .finite s' m' e' h') : e' ≤ 970 := by
  unfold roundWithAccuracy at rounded
  simp only at rounded
  split at rounded
  · cases rounded
  · cases rounded
    have carried := roundedMantissa_le (shiftToTargetExponent .binary64 m e .exact).1
    have shifted : (shiftToTargetExponent .binary64 m e .exact).1.mantissa ≤ m :=
      mantissa_shiftRight_le _ _
    have digits := log2_lt_of_lt (by decide) mantissa
    have first := exponent_shift m e
    -- A carry adds one digit at most, and the second rounding takes it away again.
    generalize shiftToTargetExponent .binary64 m e .exact = p at *
    have digits' : p.1.roundedMantissa.log2 < 107 :=
      log2_lt_of_lt (by decide) (Nat.lt_of_le_of_lt carried (by omega))
    rw [exponent_shift]
    omega

theorem isFinite_roundWithAccuracy (s : Sign) (m : Nat) (e : Int) :
    (roundWithAccuracy .binary64 s m e .exact).isFinite = true := by
  unfold roundWithAccuracy
  simp only
  split <;> rfl

/-- What a number between zero and one unpacks to. -/
theorem unpack_of_unit {v : Float} (low : 0 ≤ v) (high : v ≤ 1) :
    (∃ s, v.toModel.unpack = .zero s) ∨
      ∃ m e h, v.toModel.unpack = .finite .positive m e h ∧ m < 2 ^ 53 ∧ e ≤ -52 := by
  rw [le_iff_unpack, unpack_zero] at low
  rw [le_iff_unpack, unpack_one] at high
  cases u : v.toModel.unpack with
  | notANumber => rw [u] at low; cases low
  | infinity s =>
    cases s with
    | positive => rw [u] at high; cases high
    | negative => rw [u] at low; cases low
  | zero s => exact Or.inl ⟨s, rfl⟩
  | finite s m e h =>
    cases s with
    | negative => rw [u] at low; cases low
    | positive =>
      refine Or.inr ⟨m, e, h, rfl, mantissa_lt_of_unpack u, ?_⟩
      rw [u] at high
      by_contra above
      have order : compare e (-52) = .gt := Int.compare_eq_gt.mpr (by omega)
      simp [UnpackedFloat.le, UnpackedFloat.compare, order] at high

/-! ## The order between zero and one -/

/-- The place of a number between zero and one among the others: zero comes first, then the
exponent decides, then the mantissa. -/
def rank (x : Float) : WithBot (ℤ ×ₗ ℕ) :=
  match x.toModel.unpack with
  | .finite _ mantissa exponent _ => ↑(toLex (exponent, mantissa))
  | _ => ⊥

theorem compare_coe (e f : ℤ) (m n : ℕ) :
    (compare e f).then (compare m n) =
      compare (↑(toLex (e, m)) : WithBot (ℤ ×ₗ ℕ)) ↑(toLex (f, n)) := by
  have inside : (compare e f).then (compare m n) = compare (toLex (e, m)) (toLex (f, n)) := by
    rw [Prod.Lex.compare_def]
    rfl
  rw [inside, eq_comm, compare_iff]
  cases order : compare (toLex (e, m)) (toLex (f, n)) with
  | lt => exact WithBot.coe_lt_coe.mpr (compare_lt_iff_lt.mp order)
  | eq => exact congrArg _ (compare_eq_iff_eq.mp order)
  | gt => exact WithBot.coe_lt_coe.mpr (compare_gt_iff_gt.mp order)

variable {x y : Float}

/-- Numbers between zero and one are compared by their places. -/
theorem compare_unpack (lowx : 0 ≤ x) (highx : x ≤ 1) (lowy : 0 ≤ y) (highy : y ≤ 1) :
    x.toModel.unpack.compare y.toModel.unpack = some (compare (rank x) (rank y)) := by
  unfold rank
  rcases unpack_of_unit lowx highx with ⟨s, u⟩ | ⟨m, e, h, u, -, -⟩ <;>
    rcases unpack_of_unit lowy highy with ⟨s', u'⟩ | ⟨m', e', h', u', -, -⟩ <;>
    rw [u, u']
  · rfl
  · rfl
  · rfl
  · exact congrArg some (compare_coe e e' m m')

theorem le_iff_rank (lowx : 0 ≤ x) (highx : x ≤ 1) (lowy : 0 ≤ y) (highy : y ≤ 1) :
    x ≤ y ↔ rank x ≤ rank y := by
  rw [le_iff_unpack, UnpackedFloat.le, compare_unpack lowx highx lowy highy, Option.any_some,
    Ordering.isLE_iff_ne_gt]
  exact compare_le_iff_le

theorem lt_iff_rank (lowx : 0 ≤ x) (highx : x ≤ 1) (lowy : 0 ≤ y) (highy : y ≤ 1) :
    x < y ↔ rank x < rank y := by
  rw [lt_iff_unpack, UnpackedFloat.lt, compare_unpack lowx highx lowy highy, beq_iff_eq,
    Option.some_inj]
  exact compare_lt_iff_lt

end Decimal

/-- The exact value of a tempo is above zero. -/
theorem Tempo.quantity_pos (tempo : Tempo) : (0 : Rat) < tempo.quantity :=
  Decimal.toRat_pos tempo.valid.1 tempo.valid.2

namespace Midi

open Decimal

theorem unpack_largestStrength :
    (127.0 : Float).toModel.unpack = .finite .positive (127 * 2 ^ 46) (-46) (by decide) := rfl

/-- A velocity between zero and one, scaled to the range of strengths, is a finite number. -/
theorem isFinite_scaled {v : Float} (low : 0 ≤ v) (high : v ≤ 1) :
    (v * 127.0).toModel.unpack.isFinite = true := by
  show (Float.Model.pack
    (UnpackedFloat.mul .binary64 v.toModel.unpack (127.0 : Float).toModel.unpack)).unpack.isFinite
      = true
  rw [unpack_largestStrength]
  refine isFinite_unpack (unpackExponent_pack_ne ?_ ?_)
  · rcases unpack_of_unit low high with ⟨s, u⟩ | ⟨m, e, h, u, -, -⟩ <;> rw [u]
    · rfl
    · exact isFinite_roundWithAccuracy _ _ _
  · rcases unpack_of_unit low high with ⟨s, u⟩ | ⟨m, e, h, u, mantissa, exponent⟩ <;> rw [u]
    · intro s' m' e' h' product
      cases product
    · intro s' m' e' h' product
      exact exponent_roundWithAccuracy_le (by omega) (by omega) product

/-- The strength of a velocity that can be scaled. -/
def strengthAt (v : Float) : Data := strengthOf ((Double.ofFloat (v * 127.0)).nearest.getD 0)

/-- A velocity between zero and one has a strength. -/
theorem attack_eq {v : Float} (low : 0 ≤ v) (high : v ≤ 1) : attack v = .ok (strengthAt v) := by
  have finite := isFinite_scaled low high
  have size := size_ofFloat (v * 127.0)
  unfold attack
  cases u : (v * 127.0).toModel.unpack with
  | notANumber => rw [u] at finite; cases finite
  | infinity s => rw [u] at finite; cases finite
  | zero s =>
    rw [u] at size
    simp only [size, unpackedSize, strengthAt]
  | finite s m e h =>
    rw [u] at size
    simp only [size, unpackedSize, strengthAt]

end Midi

end Keysong
