import Keysong.Proofs.Cues
import Keysong.Proofs.Packing

/-!
# The clock of a performance in machine numbers

A performance computes its positions and lengths in machine numbers.  This module follows them
through rounding: lengths stay above zero and positions do not fall below it, so an instrument
accepts every note of a timeline, at every tempo.

## Main Definitions

* `IsCanonical` — how the digits and the exponent of a finite number are kept
* `IsForward` — numbers that are not below zero
* `IsAtLeast` — numbers whose leading digit is at a position or above it, and infinity

## Main Statements

* `unpack_pack` — a number that is kept as it should be is unpacked as it was packed
* `exists_roundWithAccuracy` — rounding does not move a leading digit down
* `isAtLeast_div`, `isAtLeast_mul`, `isForward_add` — what quotients, products and sums look like
* `isAccepted_timeline_float` — the notes of a timeline are accepted at every tempo

### Why nothing vanishes

A length is a product whose factors could be so small that it rounds to zero.  They are not: a
tempo is below `2 ^ 1024`, so a quarter note is at least `2 ^ (-1019)` seconds, and no note value is
shorter than an eighth of it, while the smallest number is `2 ^ (-1074)`.  Too slow a tempo leads to
infinite lengths, which are above zero as well; since nothing is ever below zero, infinities are
never taken from each other, and nothing stops being a number.
-/

namespace Keysong

open Float.Model Float.Model.UnpackedFloat

namespace Decimal

/-! ## Numbers that are packed and unpacked -/

/-- How a finite number is kept: 53 digits, or fewer with the least exponent. -/
structure IsCanonical (m : Nat) (e : Int) : Prop where
  digits : m < 2 ^ 53
  least : -1074 ≤ e
  full : m.log2 = 52 ∨ e = -1074

theorem toNat_packComponents (s : Sign) (exponent : BitVec 11) (digits : BitVec 52) :
    (packComponents .binary64 s exponent digits).toNat =
      (s.toBitVec.toNat * 2 ^ 11 + exponent.toNat) * 2 ^ 52 + digits.toNat := by
  refine (toNat_append_fields (s.toBitVec ++ exponent) digits).trans ?_
  rw [toNat_append_fields]

theorem sign_packComponents (s : Sign) (exponent : BitVec 11) (digits : BitVec 52) :
    Sign.ofBitVec (@unpackSign .binary64 (packComponents .binary64 s exponent digits)) = s := by
  have field : @unpackSign .binary64 (packComponents .binary64 s exponent digits) = s.toBitVec := by
    apply BitVec.eq_of_toNat_eq
    rw [← toNat_signField ⟨packComponents .binary64 s exponent digits⟩, UInt64.toNat_shiftRight]
    show (packComponents .binary64 s exponent digits).toNat >>> 63 = _
    rw [Nat.shiftRight_eq_div_pow, toNat_packComponents]
    omega
  rw [field]
  cases s <;> rfl

theorem unpack_normal (s : Sign) (exponent : BitVec 11) (digits : BitVec 52)
    (below : exponent ≠ -1#11) (normal : exponent ≠ 0#11) (some : 0 < (1#1 ++ digits).toNat) :
    UnpackedFloat.unpack .binary64 (packComponents .binary64 s exponent digits) =
      .finite s (1#1 ++ digits).toNat (exponent.toNat - 1075) some := by
  unfold UnpackedFloat.unpack
  simp only [unpackMantissa_packComponents, unpackExponent_packComponents, sign_packComponents]
  rw [if_neg below, if_neg normal]
  rfl

theorem unpack_subnormal (s : Sign) (digits : BitVec 52) (some : 0 < digits.toNat) :
    UnpackedFloat.unpack .binary64 (packComponents .binary64 s 0#11 digits) =
      .finite s digits.toNat (-1074) some := by
  have digit : digits ≠ 0#52 := by
    intro none
    rw [none] at some
    exact absurd some (by decide)
  have below : ¬ (0#11 : BitVec 11) = -1#11 := by decide
  unfold UnpackedFloat.unpack
  simp only [unpackMantissa_packComponents, unpackExponent_packComponents, sign_packComponents]
  rw [if_neg below, if_pos trivial, dif_neg digit]
  rfl

theorem unpack_packedInfinity (s : Sign) :
    UnpackedFloat.unpack .binary64 (packedInfinity .binary64 s) = .infinity s := by
  unfold packedInfinity UnpackedFloat.unpack
  simp only [unpackMantissa_packComponents, unpackExponent_packComponents, sign_packComponents]
  rfl

/-- A finite number that is kept as it should be is unpacked as it was packed, unless it is too
large. -/
theorem unpack_pack {m : Nat} {e : Int} (kept : IsCanonical m e) (s : Sign) (some : 0 < m) :
    UnpackedFloat.unpack .binary64 (UnpackedFloat.pack .binary64 (.finite s m e some)) =
        .finite s m e some ∨
      UnpackedFloat.unpack .binary64 (UnpackedFloat.pack .binary64 (.finite s m e some)) =
        .infinity s := by
  obtain ⟨digits, least, full⟩ := kept
  have sizes := (Nat.log2_eq_iff (k := 52) some.ne').mp
  by_cases large : 971 < e
  · right
    have beyond : 2 ^ 11 ≤ (e + (1023 : Nat) + (52 : Nat)).toNat + 1 := by omega
    rw [UnpackedFloat.pack]
    dsimp only
    rw [binary64_constants.1, if_pos beyond]
    exact unpack_packedInfinity s
  left
  by_cases leading : m.log2 = 52
  · obtain ⟨low, high⟩ := sizes leading
    have exponent : (BitVec.ofNat 11 (e + 1075).toNat).toNat = (e + 1075).toNat := by
      rw [BitVec.toNat_ofNat, Nat.mod_eq_of_lt (by omega)]
    have whole : (1#1 ++ BitVec.ofNat 52 m).toNat = m := by
      rw [toNat_implicit, BitVec.toNat_ofNat]
      omega
    have packed := pack_normal s (BitVec.ofNat 11 (e + 1075).toNat) (BitVec.ofNat 52 m)
      (by omega) (by omega)
    have unpacked := unpack_normal s (BitVec.ofNat 11 (e + 1075).toNat)
      (BitVec.ofNat 52 m) (fun ones => ?_) (fun zeros => ?_) (by omega)
    · have same : ((BitVec.ofNat 11 (e + 1075).toNat).toNat : Int) - 1075 = e := by omega
      simp only [whole, same] at packed unpacked
      rw [packed, unpacked]
    · have largest := congrArg BitVec.toNat ones
      rw [exponent] at largest
      change _ = 2047 at largest
      omega
    · have zero := congrArg BitVec.toNat zeros
      rw [exponent] at zero
      change _ = 0 at zero
      omega
  · obtain rfl := full.resolve_left leading
    have short : m < 2 ^ 52 := by
      by_contra long
      exact leading ((Nat.log2_eq_iff some.ne').mpr ⟨by omega, digits⟩)
    have whole : (BitVec.ofNat 52 m).toNat = m := by
      rw [BitVec.toNat_ofNat, Nat.mod_eq_of_lt short]
    have packed := pack_subnormal s (BitVec.ofNat 52 m) (by omega)
    have unpacked := unpack_subnormal s (BitVec.ofNat 52 m) (by omega)
    simp only [whole] at packed unpacked
    rw [packed, unpacked]

/-! ## Rounding -/

theorem mantissa_shiftRight (em : ExtendedMantissa) (n : Nat) :
    (em >>> n).mantissa = em.mantissa / 2 ^ n := by
  induction n with
  | zero => exact (Nat.div_one _).symm
  | succ n ih =>
    show (em >>> n).mantissa / 2 = _
    rw [ih, Nat.div_div_eq_div_mul, Nat.pow_succ]

theorem le_roundedMantissa (em : ExtendedMantissa) : em.mantissa ≤ em.roundedMantissa := by
  obtain ⟨m, round, sticky⟩ := em
  cases round <;> cases sticky <;>
    simp [ExtendedMantissa.roundedMantissa, ExtendedMantissa.accuracy,
      Accuracy.roundToNearestEven]

theorem mantissa_ofMantissaAndAccuracy (m : Nat) (a : Accuracy) :
    (ExtendedMantissa.ofMantissaAndAccuracy m a).mantissa = m := by
  cases a with
  | exact => rfl
  | inexact o => cases o <;> rfl

theorem log2_div_pow (m k : Nat) : (m / 2 ^ k).log2 = m.log2 - k := by
  simp [Nat.log2_eq_log_two, Nat.log_div_base_pow]

theorem log2_mono {m n : Nat} (le : m ≤ n) : m.log2 ≤ n.log2 := by
  rw [Nat.log2_eq_log_two, Nat.log2_eq_log_two]
  exact Nat.log_mono_right le

/-- The exponent to which a number is shifted, and its digits there. -/
theorem shift_eq (m : Nat) (e : Int) (a : Accuracy) :
    ∃ k : Nat, (k : Int) = (max ((m.log2 : Int) + 1 + e - 53) (-1074) - e).toNat ∧
      (shiftToTargetExponent .binary64 m e a).1.mantissa = m / 2 ^ k ∧
      (shiftToTargetExponent .binary64 m e a).2 = e + k := by
  refine ⟨_, rfl, ?_, rfl⟩
  refine (mantissa_shiftRight _ _).trans ?_
  rw [mantissa_ofMantissaAndAccuracy]
  rfl

/-- A number that is not too small keeps its leading digit when it is shifted. -/
theorem isCanonical_shift {m k : Nat} {e : Int} (some : 0 < m) (low : -1074 ≤ m.log2 + e)
    (fine : 52 ≤ m.log2 ∨ e ≤ -1074)
    (amount : (k : Int) = (max ((m.log2 : Int) + 1 + e - 53) (-1074) - e).toNat) :
    0 < m / 2 ^ k ∧ IsCanonical (m / 2 ^ k) (e + k) ∧
      ((m / 2 ^ k).log2 : Int) + (e + k) = m.log2 + e := by
  have leading := log2_div_pow m k
  have inside : k ≤ m.log2 := by omega
  have positive : 0 < m / 2 ^ k :=
    Nat.div_pos ((Nat.le_log2 some.ne').mp inside) (Nat.two_pow_pos k)
  refine ⟨positive, ⟨(Nat.log2_lt positive.ne').mp ?_, ?_, ?_⟩, ?_⟩ <;> omega

/-- A mantissa that is rounded up to one digit more is kept with an exponent that is larger by
one. -/
theorem isCanonical_carry {q r k : Nat} {e : Int} (some : 0 < q) (kept : IsCanonical q e)
    (low : q ≤ r) (high : r ≤ q + 1)
    (amount : (k : Int) = (max ((r.log2 : Int) + 1 + e - 53) (-1074) - e).toNat) :
    0 < r / 2 ^ k ∧ IsCanonical (r / 2 ^ k) (e + k) ∧
      (q.log2 : Int) + e ≤ (r / 2 ^ k).log2 + (e + k) := by
  obtain ⟨digits, least, full⟩ := kept
  have up := log2_mono low
  rcases Nat.lt_or_ge r (2 ^ 53) with short | carries
  · have top := (Nat.log2_lt (n := r) (k := 53) (by omega)).mpr short
    obtain rfl : k = 0 := by omega
    rw [Nat.pow_zero, Nat.div_one]
    have below := (Nat.log2_lt (n := q) (k := 53) (by omega)).mpr digits
    refine ⟨by omega, ⟨short, ?_, ?_⟩, ?_⟩ <;> omega
  · obtain rfl : r = 2 ^ 53 := by omega
    rw [Nat.log2_two_pow] at amount up
    obtain rfl : k = 1 := by omega
    have half : 2 ^ 53 / 2 ^ 1 = 2 ^ 52 := by decide
    rw [half]
    have digits : (2 ^ 52 : Nat).log2 = 52 := Nat.log2_two_pow
    refine ⟨by decide, ⟨by decide, ?_, ?_⟩, ?_⟩ <;> omega

/-- **Rounding keeps a number that is not too small**: with enough digits, or a small exponent, it
is kept as it should be, and its leading digit does not move down. -/
theorem exists_roundWithAccuracy {m : Nat} {e : Int} (some : 0 < m) (low : -1074 ≤ m.log2 + e)
    (fine : 52 ≤ m.log2 ∨ e ≤ -1074) (s : Sign) (a : Accuracy) :
    ∃ m' e' some', roundWithAccuracy .binary64 s m e a = .finite s m' e' some' ∧
      IsCanonical m' e' ∧ m.log2 + e ≤ m'.log2 + e' := by
  obtain ⟨k, amount, mantissa, exponent⟩ := shift_eq m e a
  have least := le_roundedMantissa (shiftToTargetExponent .binary64 m e a).1
  have most := roundedMantissa_le (shiftToTargetExponent .binary64 m e a).1
  obtain ⟨positive, kept, leading⟩ := isCanonical_shift some low fine amount
  rw [mantissa] at least most
  obtain ⟨k', amount', mantissa', exponent'⟩ :=
    shift_eq (shiftToTargetExponent .binary64 m e a).1.roundedMantissa (e + k) .exact
  obtain ⟨positive', kept', leading'⟩ := isCanonical_carry positive kept least most amount'
  unfold roundWithAccuracy
  dsimp only
  rw [exponent]
  simp only [mantissa', exponent', dif_neg positive'.ne']
  exact ⟨_, _, positive', rfl, kept', by omega⟩

/-! ## Numbers that stay above zero -/

/-- Numbers that are not below zero; what is no number is below nothing. -/
def IsForward : UnpackedFloat → Prop
  | .infinity s => s = .positive
  | .notANumber => True
  | .zero s => s = .positive
  | .finite s _ _ _ => s = .positive

/-- Numbers whose leading digit is at the position `low` or above it, and infinity. -/
def IsAtLeast (low : Int) : UnpackedFloat → Prop
  | .infinity s => s = .positive
  | .finite s m e _ => s = .positive ∧ low ≤ m.log2 + e
  | _ => False

theorem IsAtLeast.isForward {low : Int} {u : UnpackedFloat} (above : IsAtLeast low u) :
    IsForward u := by
  cases u with
  | infinity s => exact above
  | notANumber => trivial
  | zero s => exact above.elim
  | finite s m e some => exact above.1

theorem IsAtLeast.mono {low low' : Int} {u : UnpackedFloat} (above : IsAtLeast low u)
    (less : low' ≤ low) : IsAtLeast low' u := by
  cases u with
  | infinity s => exact above
  | notANumber => exact above
  | zero s => exact above
  | finite s m e some => exact ⟨above.1, less.trans above.2⟩

theorem not_lt_zero {x : Float} (forward : IsForward x.toModel.unpack) : ¬ x < 0 := by
  rw [lt_iff_unpack, unpack_zero]
  cases u : x.toModel.unpack with
  | infinity s =>
    obtain rfl : s = .positive := by simpa [u, IsForward] using forward
    decide
  | notANumber => decide
  | zero s => cases s <;> decide
  | finite s m e some =>
    obtain rfl : s = .positive := by simpa [u, IsForward] using forward
    simp [UnpackedFloat.lt, UnpackedFloat.compare]

theorem not_le_zero {x : Float} {low : Int} (above : IsAtLeast low x.toModel.unpack) : ¬ x ≤ 0 := by
  rw [le_iff_unpack, unpack_zero]
  cases u : x.toModel.unpack with
  | infinity s =>
    obtain rfl : s = .positive := by simpa [u, IsAtLeast] using above
    decide
  | notANumber => decide
  | zero s => simp [u, IsAtLeast] at above
  | finite s m e some =>
    obtain ⟨rfl, -⟩ : s = .positive ∧ _ := by simpa [u, IsAtLeast] using above
    simp [UnpackedFloat.le, UnpackedFloat.compare]

/-- A number that was packed has the sign it had before. -/
theorem isForward_unpack {b : BitVec 64}
    (positive : Sign.ofBitVec (@unpackSign .binary64 b) = .positive) :
    IsForward (UnpackedFloat.unpack .binary64 b) := by
  unfold UnpackedFloat.unpack
  dsimp only
  split
  · split
    · exact positive
    · trivial
  · split
    · split
      · exact positive
      · exact positive
    · exact positive

theorem isForward_pack {u : UnpackedFloat} (forward : IsForward u) :
    IsForward (UnpackedFloat.unpack .binary64 (UnpackedFloat.pack .binary64 u)) := by
  apply isForward_unpack
  cases u with
  | notANumber => exact sign_packComponents _ _ _
  | infinity s =>
    obtain rfl : s = .positive := forward
    exact sign_packComponents _ _ _
  | zero s =>
    obtain rfl : s = .positive := forward
    exact sign_packComponents _ _ _
  | finite s m e some =>
    obtain rfl : s = .positive := forward
    unfold UnpackedFloat.pack
    dsimp only
    split
    · exact sign_packComponents _ _ _
    · split
      · exact sign_packComponents _ _ _
      · exact sign_packComponents _ _ _

theorem isForward_roundWithAccuracy (m : Nat) (e : Int) (a : Accuracy) :
    IsForward (roundWithAccuracy .binary64 .positive m e a) := by
  unfold roundWithAccuracy
  dsimp only
  split
  · rfl
  · rfl

theorem isForward_normalize {m : Int} (whole : 0 ≤ m) (e : Int) :
    IsForward (UnpackedFloat.normalize .binary64 m e .positive) := by
  unfold UnpackedFloat.normalize
  split
  · rename_i below
    rw [Int.compare_eq_lt] at below
    omega
  · rfl
  · exact isForward_roundWithAccuracy _ _ _

/-- A sum of numbers that are not below zero is not below zero. -/
theorem isForward_add {x y : Float} (left : IsForward x.toModel.unpack)
    (right : IsForward y.toModel.unpack) : IsForward (x + y).toModel.unpack := by
  apply isForward_pack (u := UnpackedFloat.add .binary64 x.toModel.unpack y.toModel.unpack)
  generalize x.toModel.unpack = u at left
  generalize y.toModel.unpack = v at right
  cases u <;> cases v <;> simp_all [IsForward, UnpackedFloat.add]
  apply isForward_normalize
  simp only [Sign.apply]
  omega

/-! ## Products and quotients -/

/-- A rounded number that is not too small is above zero once it is packed. -/
theorem isAtLeast_pack {m : Nat} {e : Int} (some : 0 < m) (low : -1074 ≤ m.log2 + e)
    (fine : 52 ≤ m.log2 ∨ e ≤ -1074) (a : Accuracy) :
    IsAtLeast (m.log2 + e) (UnpackedFloat.unpack .binary64
      (UnpackedFloat.pack .binary64 (roundWithAccuracy .binary64 .positive m e a))) := by
  obtain ⟨m', e', some', rounded, kept, leading⟩ :=
    exists_roundWithAccuracy some low fine .positive a
  rw [rounded]
  rcases unpack_pack kept .positive some' with same | large
  · rw [same]
    exact ⟨rfl, leading⟩
  · rw [large]
    rfl

theorem le_log2_mul {m n : Nat} (left : 0 < m) (right : 0 < n) :
    m.log2 + n.log2 ≤ (m * n).log2 := by
  rw [Nat.le_log2 (Nat.mul_pos left right).ne', Nat.pow_add]
  exact Nat.mul_le_mul (Nat.log2_self_le left.ne') (Nat.log2_self_le right.ne')

theorem isAtLeast_mul {x y : Float} {m : Nat} {e low : Int} {some : 0 < m}
    (left : x.toModel.unpack = .finite .positive m e some) (digits : 52 ≤ m.log2)
    (right : IsAtLeast low y.toModel.unpack) (bound : -1074 ≤ m.log2 + e + low) :
    IsAtLeast (m.log2 + e + low) (x * y).toModel.unpack := by
  show IsAtLeast _ (UnpackedFloat.unpack .binary64 (UnpackedFloat.pack .binary64
    (UnpackedFloat.mul .binary64 x.toModel.unpack y.toModel.unpack)))
  rw [left]
  generalize y.toModel.unpack = v at right
  cases v with
  | notANumber => exact right.elim
  | zero s => exact right.elim
  | infinity s =>
    obtain rfl : s = .positive := right
    show IsAtLeast _ (UnpackedFloat.unpack .binary64 (packedInfinity .binary64 .positive))
    rw [unpack_packedInfinity]
    rfl
  | finite s n f some' =>
    obtain ⟨rfl, above⟩ := right
    have leading := le_log2_mul some some'
    apply (isAtLeast_pack (Nat.mul_pos some some') (e := e + f) (by omega) (by omega) .exact).mono
    omega

theorem exponent_le_of_unpack {b : BitVec 64} {s : Sign} {m : Nat} {e : Int} {some : 0 < m}
    (u : UnpackedFloat.unpack .binary64 b = .finite s m e some) : e ≤ 971 := by
  have field := (@unpackExponent .binary64 b).isLt
  change _ < 2048 at field
  unfold UnpackedFloat.unpack at u
  simp only at u
  split at u
  · split at u <;> cases u
  · rename_i below
    have largest : (@unpackExponent .binary64 b).toNat ≠ 2047 := fun ones =>
      below (BitVec.eq_of_toNat_eq ones)
    split at u
    · split at u <;> cases u
      rename_i zero _
      rw [zero, binary64_constants.1]
      decide
    · cases u
      rw [binary64_constants.1]
      omega

/-- The digits of a quotient. -/
theorem le_log2_div {m n j k : Nat} (left : 0 < m) (right : 0 < n)
    (above : j + n.log2 + 1 ≤ m.log2 + k) : 0 < (m <<< k) / n ∧ j ≤ ((m <<< k) / n).log2 := by
  have below := Nat.lt_log2_self (n := n)
  have least : 2 ^ j ≤ (m <<< k) / n := by
    rw [Nat.le_div_iff_mul_le right, Nat.shiftLeft_eq]
    calc 2 ^ j * n ≤ 2 ^ j * 2 ^ (n.log2 + 1) := Nat.mul_le_mul_left _ below.le
      _ = 2 ^ (j + n.log2 + 1) := by rw [← Nat.pow_add]; rfl
      _ ≤ 2 ^ (m.log2 + k) := Nat.pow_le_pow_right (by decide) above
      _ = 2 ^ m.log2 * 2 ^ k := Nat.pow_add ..
      _ ≤ m * 2 ^ k := Nat.mul_le_mul_right _ (Nat.log2_self_le left.ne')
  have some := (Nat.two_pow_pos j).trans_le least
  exact ⟨some, (Nat.le_log2 some.ne').mpr least⟩

theorem isAtLeast_div {x y : Float} {m : Nat} {e : Int} {some : 0 < m}
    (left : x.toModel.unpack = .finite .positive m e some) (bound : -50 ≤ m.log2 + e)
    (finite : y.isFinite = true) (pos : 0 < y) :
    IsAtLeast (m.log2 + e - 1024) (x / y).toModel.unpack := by
  obtain ⟨n, f, some', right⟩ := unpack_of_pos finite pos
  have digits := log2_lt_of_lt (by decide) (mantissa_lt_of_unpack right)
  have largest := exponent_le_of_unpack right
  show IsAtLeast _ (UnpackedFloat.unpack .binary64 (UnpackedFloat.pack .binary64
    (UnpackedFloat.div .binary64 x.toModel.unpack y.toModel.unpack)))
  rw [left, right]
  -- The quotient is computed with enough digits: its exponent is no larger than what it is
  -- rounded to.
  have target : ∃ t k q a, divCore .binary64 m e n f = (q, t, a) ∧ q = (m <<< k) / n ∧
      t = min (e - f) (max ((m.log2 + 1 + e) - (n.log2 + 1 + f) - 53) (-1074)) ∧
      (k : Int) = e - f - t := by
    refine ⟨_, _, _, _, rfl, rfl, rfl, ?_⟩
    apply Int.toNat_of_nonneg
    omega
  obtain ⟨t, k, q, a, core, quotient, lowest, shift⟩ := target
  show IsAtLeast _ (UnpackedFloat.unpack .binary64 (UnpackedFloat.pack .binary64
    (roundWithAccuracy .binary64 .positive (divCore .binary64 m e n f).1
      (divCore .binary64 m e n f).2.1 (divCore .binary64 m e n f).2.2)))
  rw [core]
  obtain ⟨positive, leading⟩ :=
    le_log2_div (j := m.log2 + k - n.log2 - 1) (k := k) some some' (by omega)
  rw [← quotient] at positive leading
  apply (isAtLeast_pack (m := q) positive (e := t) (by omega) (by omega) a).mono
  omega

end Decimal

/-! ## Timelines -/

open Decimal Quantity

theorem zero_float : (zero : Float) = 0 := by decide +kernel

theorem unpack_minute :
    (ofNat 60 : Float).toModel.unpack = .finite .positive (60 * 2 ^ 47) (-47) (by decide) := by
  have same : (ofNat 60 : Float) = 60 := by decide +kernel
  rw [same]
  rfl

/-- The length of a note value in quarter notes is a power of two. -/
theorem unpack_beats (v : NoteValue) :
    ∃ e some, (v.beats : Float).toModel.unpack = .finite .positive (2 ^ 52) e some ∧ -55 ≤ e := by
  have powers : (v.beats : Float) = 4.0 ∨ (v.beats : Float) = 2.0 ∨ (v.beats : Float) = 1.0 ∨
      (v.beats : Float) = 0.5 ∨ (v.beats : Float) = 0.25 ∨ (v.beats : Float) = 0.125 := by
    cases v <;> decide +kernel
  rcases powers with same | same | same | same | same | same <;> rw [same]
  · exact ⟨-50, by decide, rfl, by decide⟩
  · exact ⟨-51, by decide, rfl, by decide⟩
  · exact ⟨-52, by decide, rfl, by decide⟩
  · exact ⟨-53, by decide, rfl, by decide⟩
  · exact ⟨-54, by decide, rfl, by decide⟩
  · exact ⟨-55, by decide, rfl, by decide⟩

theorem isAtLeast_secondsPerBeat (tempo : Tempo) :
    IsAtLeast (-1019) (tempo.secondsPerBeat : Float).toModel.unpack := by
  have digits : (60 * 2 ^ 47).log2 = 52 := by decide
  have above := isAtLeast_div unpack_minute (by omega) tempo.valid.1 tempo.valid.2
  rw [digits] at above
  exact above

theorem isAtLeast_seconds (e : Event) (tempo : Tempo) :
    IsAtLeast (-1022) (e.seconds (tempo.secondsPerBeat : Float)).toModel.unpack := by
  obtain ⟨exponent, some, left, low⟩ := unpack_beats e.duration
  have digits : (2 ^ 52).log2 = 52 := Nat.log2_two_pow
  apply (isAtLeast_mul left (by omega) (isAtLeast_secondsPerBeat tempo) (by omega)).mono
  omega

/-- What a note of an event takes over from it. -/
theorem of_mem_notesAt {τ : Type} [Quantity τ] {e : Event} {secondsPerBeat cursor : τ}
    {n : ScheduledNote τ} (mem : n ∈ e.notesAt secondsPerBeat cursor) :
    n.start = cursor ∧ n.duration = e.seconds secondsPerBeat ∧ n.velocity ∈ e.velocity? ∧
      n.pitch ∈ e.pitches := by
  obtain ⟨⟨p, velocity⟩, struck, rfl⟩ := List.mem_map.mp mem
  refine ⟨rfl, rfl, ?_⟩
  show velocity ∈ e.velocity? ∧ p ∈ e.pitches
  cases e with
  | rest d => simp [Event.strikes] at struck
  | note q d v => simp_all [Event.strikes, Event.velocity?, Event.pitches]
  | chord ps d v =>
    obtain ⟨q, inside, same⟩ := List.mem_map.mp struck
    obtain ⟨rfl, rfl⟩ := Prod.mk.inj same
    exact ⟨rfl, inside⟩

/-- The notes of a timeline that starts at a forward position are accepted. -/
theorem isAccepted_timelineFrom_float {events : List Event}
    (unit : ∀ e ∈ events, ∀ v ∈ e.velocity?, 0 ≤ v ∧ v ≤ 1) (tempo : Tempo) {cursor : Float}
    (forward : IsForward cursor.toModel.unpack) :
    ∀ n ∈ timelineFrom tempo.secondsPerBeat cursor events, n.IsAccepted := by
  induction events generalizing cursor with
  | nil => exact fun n mem => absurd mem List.not_mem_nil
  | cons e rest ih =>
    have long := isAtLeast_seconds e tempo
    intro n mem
    rw [timelineFrom] at mem
    rcases List.mem_append.mp mem with here | later
    · obtain ⟨start, duration, struck, -⟩ := of_mem_notesAt here
      obtain ⟨low, high⟩ := unit e List.mem_cons_self n.velocity struck
      refine ⟨?_, ?_, _, Midi.attack_eq low high⟩
      · rw [start, zero_float]
        exact not_lt_zero forward
      · rw [duration, zero_float]
        exact not_le_zero long
    · exact ih (fun e' mem => unit e' (List.mem_cons_of_mem e mem))
        (isForward_add forward long.isForward) n later

/-- **The notes of a timeline are accepted at every tempo**, if their velocities lie between zero
and one. -/
theorem isAccepted_timeline_float {events : List Event}
    (unit : ∀ e ∈ events, ∀ v ∈ e.velocity?, 0 ≤ v ∧ v ≤ 1) (tempo : Tempo) :
    ∀ n ∈ timeline (τ := Float) tempo events, n.IsAccepted := by
  apply isAccepted_timelineFrom_float unit tempo
  rw [zero_float, unpack_zero]
  rfl

end Keysong
