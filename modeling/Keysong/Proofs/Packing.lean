import Keysong.Proofs.MachineNumber

/-!
# The bits of a finite machine number

Machine numbers are made from bits.  Those of a finite number are kept as they are, so what is put
into its fields is what is read from them.

## Main Statements

* `pack_unpack` — a finite number is packed as it was unpacked
* `ofFloat_fields` — a sign, an exponent and digits, put together and read again
* `isFinite_iff_size`, `toRat_of_size` — which numbers are finite, and their values
* `zero_lt_iff_toRat` — the order of machine numbers is that of their values, as seen from zero
-/

namespace Keysong

open Float.Model Float.Model.UnpackedFloat

namespace Decimal

/-! ## Fields side by side -/

theorem toNat_append_fields {m n : Nat} (x : BitVec m) (y : BitVec n) :
    (x ++ y).toNat = x.toNat * 2 ^ n + y.toNat := by
  rw [BitVec.toNat_append, ← Nat.shiftLeft_add_eq_or_of_lt y.isLt, Nat.shiftLeft_eq]

theorem toBitVec_ofBitVec (b : BitVec 1) : (Sign.ofBitVec b).toBitVec = b := by
  revert b
  decide

theorem exponentField (b : BitVec 64) :
    b.toNat / 2 ^ 52 % 2 ^ 11 = (@unpackExponent .binary64 b).toNat := by
  rw [← Nat.shiftRight_eq_div_pow, ← Nat.and_two_pow_sub_one_eq_mod]
  exact toNat_exponentField ⟨b⟩

/-- The three fields of a number side by side are the number. -/
theorem packComponents_fields (b : BitVec 64) :
    packComponents .binary64 (Sign.ofBitVec (@unpackSign .binary64 b)) (@unpackExponent .binary64 b)
      (@unpackMantissa .binary64 b) = b := by
  have sign : b.toNat / 2 ^ 63 = (@unpackSign .binary64 b).toNat := by
    rw [← Nat.shiftRight_eq_div_pow]
    exact toNat_signField ⟨b⟩
  have mantissa : b.toNat % 2 ^ 52 = (@unpackMantissa .binary64 b).toNat := by
    rw [← Nat.and_two_pow_sub_one_eq_mod]
    exact toNat_mantissaField ⟨b⟩
  unfold packComponents
  rw [toBitVec_ofBitVec]
  apply BitVec.eq_of_toNat_eq
  refine (toNat_append_fields _ _).trans ?_
  rw [toNat_append_fields, ← sign, ← exponentField, ← mantissa]
  show (b.toNat / 2 ^ 63 * 2 ^ 11 + b.toNat / 2 ^ 52 % 2 ^ 11) * 2 ^ 52 + b.toNat % 2 ^ 52 = b.toNat
  omega

/-- What the packing of a number compares with: the offset of the exponent, and the digits. -/
theorem binary64_constants :
    Format.exponentBias .binary64 = 1023 ∧ Format.mantissaBits .binary64 = 53 := ⟨rfl, rfl⟩

theorem pack_subnormal (s : Sign) (digits : BitVec 52) (some : 0 < digits.toNat) :
    UnpackedFloat.pack .binary64 (.finite s digits.toNat (-1074) some) =
      packComponents .binary64 s 0#11 digits := by
  have short : digits.toNat.log2 < 52 := log2_lt_of_lt (by decide) digits.isLt
  unfold UnpackedFloat.pack
  dsimp only
  rw [binary64_constants.1, binary64_constants.2, if_neg (by decide), if_neg (by omega),
    BitVec.ofNat_toNat, BitVec.setWidth_eq]

theorem pack_normal (s : Sign) (exponent : BitVec 11) (digits : BitVec 52)
    (below : exponent.toNat < 2047) (some : 0 < (1#1 ++ digits).toNat) :
    UnpackedFloat.pack .binary64
        (.finite s (1#1 ++ digits).toNat ((exponent.toNat : Int) - 1075) some) =
      packComponents .binary64 s exponent digits := by
  have short := digits.isLt
  have biased : ((exponent.toNat : Int) - 1075 + (1023 : Nat) + (52 : Nat)).toNat =
      exponent.toNat := by omega
  have leading : (1#1 ++ digits).toNat.log2 = 52 := by
    rw [Nat.log2_eq_iff (by omega), toNat_implicit]
    omega
  unfold UnpackedFloat.pack
  dsimp only
  rw [binary64_constants.1, binary64_constants.2, leading, biased, if_neg (by omega), if_pos rfl,
    BitVec.ofNat_toNat, BitVec.setWidth_eq]
  congr 1
  apply BitVec.eq_of_toNat_eq
  rw [BitVec.toNat_ofNat, toNat_implicit, Nat.add_mod_left, Nat.mod_eq_of_lt short]

/-- A finite number is packed as it was unpacked. -/
theorem pack_unpack {b : BitVec 64} (finite : @unpackExponent .binary64 b ≠ -1#11) :
    UnpackedFloat.pack .binary64 (UnpackedFloat.unpack .binary64 b) = b := by
  refine Eq.trans ?_ (packComponents_fields b)
  unfold UnpackedFloat.unpack
  dsimp only
  rw [if_neg finite]
  split
  · rename_i subnormal
    rw [subnormal]
    split
    · rename_i zero
      rw [zero]
      rfl
    · exact pack_subnormal _ _ _
  · have below : (@unpackExponent .binary64 b).toNat < 2047 := by
      have field : (@unpackExponent .binary64 b).toNat < 2048 := (@unpackExponent .binary64 b).isLt
      have ones : (@unpackExponent .binary64 b).toNat ≠ 2047 := fun ones =>
        finite (BitVec.eq_of_toNat_eq ones)
      omega
    exact pack_normal _ _ _ below _

/-- The bits of a finite number are read as they are. -/
theorem ofFloat_ofBits {bits : UInt64} (finite : bits.toNat / 2 ^ 52 % 2 ^ 11 ≠ 2047) :
    Double.ofFloat (Float.ofBits bits) = Double.ofBits bits := by
  have field : @unpackExponent .binary64 bits.toBitVec ≠ -1#11 := by
    intro ones
    have exponent := exponentField bits.toBitVec
    rw [ones] at exponent
    exact finite exponent
  show Double.ofBits
    ⟨UnpackedFloat.pack .binary64 (UnpackedFloat.unpack .binary64 bits.toBitVec)⟩ = _
  rw [pack_unpack field]

/-- A sign and the two other fields, put together and read again. -/
theorem ofFloat_fields (negative : Bool) {exponent fraction : Nat} (finite : exponent < 2047)
    (digits : fraction < 2 ^ 52) :
    Double.ofFloat (Float.ofBits (UInt64.ofNat
        (exponent * pow2 52 + fraction + if negative then pow2 63 else 0))) =
      ⟨negative, if exponent = 0 then .finite fraction (-1074)
        else .finite (pow2 52 + fraction) ((exponent : Int) - 1075)⟩ := by
  have sizes : pow2 52 = 2 ^ 52 ∧ pow2 63 = 2 ^ 63 := ⟨rfl, rfl⟩
  have whole : (UInt64.ofNat (exponent * pow2 52 + fraction +
      if negative then pow2 63 else 0)).toNat =
        exponent * 2 ^ 52 + fraction + if negative then 2 ^ 63 else 0 := by
    rw [UInt64.toNat_ofNat', sizes.1, sizes.2]
    apply Nat.mod_eq_of_lt
    split <;> omega
  generalize UInt64.ofNat _ = bits at whole
  have sign : bits.toNat / 2 ^ 63 = if negative then 1 else 0 := by
    rw [whole]
    split <;> omega
  have middle : bits.toNat / 2 ^ 52 % 2 ^ 11 = exponent := by
    rw [whole]
    split <;> omega
  have low : bits.toNat % 2 ^ 52 = fraction := by
    rw [whole]
    split <;> omega
  rw [ofFloat_ofBits (by omega)]
  have signField : (bits >>> 63 == 1) = negative := by
    rw [Bool.eq_iff_iff, beq_iff_eq, ← UInt64.toNat_inj, UInt64.toNat_shiftRight]
    show bits.toNat >>> 63 = 1 ↔ _
    rw [Nat.shiftRight_eq_div_pow, sign]
    cases negative <;> decide
  have exponentBits : ((bits >>> 52) &&& 0x7FF).toNat = exponent := by
    rw [toNat_exponentField, ← exponentField]
    exact middle
  have fractionBits : (bits &&& 0xFFFFFFFFFFFFF).toNat = fraction := by
    rw [UInt64.toNat_and]
    exact (Nat.and_two_pow_sub_one_eq_mod bits.toNat 52).trans low
  unfold Double.ofBits
  dsimp only
  rw [signField, exponentBits, fractionBits]
  have inside : (exponent == 0x7FF) = false := by
    rw [beq_eq_false_iff_ne]
    omega
  rw [inside]
  simp

/-! ## Values -/

/-- A finite machine number has a size. -/
theorem isFinite_iff_size {x : Float} :
    x.isFinite = true ↔ ∃ m e, (Double.ofFloat x).size = .finite m e := by
  rw [size_ofFloat]
  show x.toModel.unpack.isFinite = true ↔ _
  cases x.toModel.unpack <;> simp [unpackedSize, UnpackedFloat.isFinite]

/-- The value of a number with a size. -/
theorem toRat_of_size {d : Double} {m : Nat} {e : Int} (size : d.size = .finite m e) :
    d.toRat = (if d.negative then -1 else 1) * (m * 2 ^ e) := by
  have power : (2 : ℚ) ^ e = 2 ^ e.toNat / 2 ^ (-e).toNat := by
    rw [← zpow_natCast, ← zpow_natCast, ← zpow_sub₀ two_ne_zero]
    congr 1
    omega
  have numerator : ((Double.numerator m e : Nat) : ℚ) = m * 2 ^ e.toNat := by
    show ((m * 2 ^ e.toNat : Nat) : ℚ) = _
    push_cast
    rfl
  have denominator : ((Double.denominator e : Nat) : ℚ) = 2 ^ (-e).toNat := by
    show ((2 ^ (-e).toNat : Nat) : ℚ) = _
    push_cast
    rfl
  rw [Double.toRat, size]
  dsimp only
  rw [Rat.mkRat_eq_div, power, denominator]
  unfold Double.signed
  split
  · rw [Int.cast_neg, Int.cast_natCast, numerator]
    ring
  · rw [Int.cast_natCast, numerator]
    ring

theorem mantissa_lt_of_size {x : Float} {m : Nat} {e : Int}
    (size : (Double.ofFloat x).size = .finite m e) : m < 2 ^ 53 := by
  rw [size_ofFloat] at size
  cases u : x.toModel.unpack with
  | notANumber => rw [u] at size; cases size
  | infinity s => rw [u] at size; cases size
  | zero s =>
    rw [u] at size
    cases size
    decide
  | finite s m' e' h =>
    rw [u] at size
    cases size
    exact mantissa_lt_of_unpack u

theorem negative_of_unpack_negative {x : Float} {m : Nat} {e : Int} {h : 0 < m}
    (u : x.toModel.unpack = .finite .negative m e h) : (Double.ofFloat x).negative = true := by
  have sign : Sign.ofBitVec (@unpackSign .binary64 x.toBits.toBitVec) = .negative :=
    unpackSign_of_unpack u
  have set : @unpackSign .binary64 x.toBits.toBitVec = 1#1 := by
    rw [← toBitVec_ofBitVec (@unpackSign .binary64 x.toBits.toBitVec), sign]
    rfl
  have field : (x.toBits >>> 63).toNat = 1 := by
    rw [toNat_signField, set]
    rfl
  exact beq_iff_eq.mpr (UInt64.toNat_inj.mp field)

/-- A finite machine number is above zero if its value is. -/
theorem zero_lt_iff_toRat {x : Float} (finite : x.isFinite = true) :
    0 < x ↔ 0 < (Double.ofFloat x).toRat := by
  refine ⟨toRat_pos finite, fun pos => ?_⟩
  rw [lt_iff_unpack, unpack_zero]
  have size := size_ofFloat x
  have finite : x.toModel.unpack.isFinite = true := finite
  cases u : x.toModel.unpack with
  | notANumber => rw [u] at finite; cases finite
  | infinity s => rw [u] at finite; cases finite
  | zero s =>
    rw [u] at size
    rw [toRat_of_size size, Nat.cast_zero, zero_mul, mul_zero] at pos
    exact absurd pos (lt_irrefl 0)
  | finite s m e h =>
    cases s with
    | positive => rfl
    | negative =>
      rw [u] at size
      rw [toRat_of_size size, if_pos (negative_of_unpack_negative u)] at pos
      have some : (0 : ℚ) ≤ m * 2 ^ e := by positivity
      linarith

end Decimal

end Keysong
