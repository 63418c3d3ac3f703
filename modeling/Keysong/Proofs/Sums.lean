import Keysong.Proofs.MachineClock
import Keysong.Proofs.Quotients

/-!
# Sums of machine numbers

The end of a note is computed from its start and its length, and the sum is rounded.  This module
says when the sum of two machine numbers is above the first of them, when it is the first of them
again, and when it is no number.

## Main Definitions

* `Moves` — whether a length moves a start that it is added to
* `IsSum` — what can come of a sum of a start and a length

## Main Statements

* `roundedMantissa_shiftRight` — shifting digits away and rounding is rounding a quotient
* `exists_round` — how a number above zero is rounded
* `unpack_add_of_less`, `lt_add_of_more` — when the sum of two numbers above zero is the first
* `isSum` — whatever length is added to a start leads to one of three outcomes
* `IsSum.lt_iff`, `IsSum.not_lt`, `IsSum.beq_iff` — a sum and its start compared

### The unit of a sum

A sum is rounded to the nearest multiple of a unit, and a tie goes to the even one.  The unit is
that of the last digit of the start, unless the sum has more digits than the start; but then the
length is a whole unit of the start at least, and the sum is above the start wherever it is rounded
to.  So half a unit of the start decides, and whether its last digit is even.
-/

namespace Keysong

open Float.Model Float.Model.UnpackedFloat

namespace Decimal

/-! ## Digits that are shifted away -/

theorem shiftRight_succ (em : ExtendedMantissa) (k : Nat) :
    em >>> (k + 1) = (em >>> k).shiftRightOne := rfl

/-- What is kept of the digits that are shifted away: whether they come to a half, and whether they
are anything else but a half or nothing. -/
theorem bits_shiftRight (m k : Nat) :
    (((ExtendedMantissa.ofMantissaAndAccuracy m .exact) >>> k).roundBit = true ↔
        2 ^ k ≤ 2 * (m % 2 ^ k)) ∧
      (((ExtendedMantissa.ofMantissaAndAccuracy m .exact) >>> k).stickyBit = true ↔
        m % 2 ^ k ≠ 0 ∧ 2 * (m % 2 ^ k) ≠ 2 ^ k) := by
  induction k with
  | zero =>
    rw [Nat.pow_zero, Nat.mod_one]
    exact ⟨iff_of_false Bool.false_ne_true (by omega), iff_of_false Bool.false_ne_true (by omega)⟩
  | succ k ih =>
    obtain ⟨round, sticky⟩ := ih
    have quotient := mantissa_shiftRight (.ofMantissaAndAccuracy m .exact) k
    rw [mantissa_ofMantissaAndAccuracy] at quotient
    rw [shiftRight_succ]
    generalize ExtendedMantissa.ofMantissaAndAccuracy m .exact >>> k = em at *
    have digits := Nat.mod_pow_succ (x := m) (b := 2) (k := k)
    have less := Nat.mod_lt m (Nat.two_pow_pos k)
    rw [← quotient] at digits
    have power : 2 ^ (k + 1) = 2 * 2 ^ k := by rw [Nat.pow_succ, Nat.mul_comm]
    constructor
    · show (em.mantissa % 2 != 0) = true ↔ _
      rw [bne_iff_ne, digits, power]
      rcases Nat.mod_two_eq_zero_or_one em.mantissa with even | odd
      · rw [even]
        omega
      · rw [odd]
        omega
    · show (em.roundBit || em.stickyBit) = true ↔ _
      rw [Bool.or_eq_true, round, sticky, digits, power]
      rcases Nat.mod_two_eq_zero_or_one em.mantissa with even | odd
      · rw [even]
        omega
      · rw [odd]
        omega

/-- **Shifting digits away and rounding is rounding the quotient.** -/
theorem roundedMantissa_shiftRight (m k : Nat) :
    ((ExtendedMantissa.ofMantissaAndAccuracy m .exact) >>> k).roundedMantissa =
      roundDiv m (2 ^ k) := by
  obtain ⟨round, sticky⟩ := bits_shiftRight m k
  have quotient := mantissa_shiftRight (.ofMantissaAndAccuracy m .exact) k
  rw [mantissa_ofMantissaAndAccuracy] at quotient
  generalize ExtendedMantissa.ofMantissaAndAccuracy m .exact >>> k = em at *
  have pos := Nat.two_pow_pos k
  obtain ⟨q, roundBit, stickyBit⟩ := em
  unfold roundDiv
  rw [← quotient]
  dsimp only at round sticky ⊢
  generalize m % 2 ^ k = r at *
  rcases Nat.lt_trichotomy (2 * r) (2 ^ k) with less | half | more
  · have low : roundBit = false := by
      rw [← Bool.not_eq_true, round]
      omega
    rw [Nat.compare_eq_lt.mpr less, low]
    cases stickyBit <;> rfl
  · have high : roundBit = true := round.mpr half.ge
    have tie : stickyBit = false := by
      rw [← Bool.not_eq_true, sticky]
      omega
    rw [Nat.compare_eq_eq.mpr half, high, tie]
    show q + q % 2 = if (q % 2 == 0) = true then q else q + 1
    split <;> rename_i even <;> rw [beq_iff_eq] at even <;> omega
  · have high : roundBit = true := round.mpr more.le
    have rest : stickyBit = true := by
      rw [sticky]
      omega
    rw [Nat.compare_eq_gt.mpr more, high, rest]
    rfl

/-- The exponent to which a number is shifted, and the digits there, rounded. -/
theorem shift_rounded (m : Nat) (e : Int) :
    ∃ k : Nat, (k : Int) = (max ((m.log2 : Int) + 1 + e - 53) (-1074) - e).toNat ∧
      (shiftToTargetExponent .binary64 m e .exact).1.roundedMantissa = roundDiv m (2 ^ k) ∧
      (shiftToTargetExponent .binary64 m e .exact).2 = e + k :=
  ⟨_, rfl, roundedMantissa_shiftRight _ _, rfl⟩

theorem nearestInt_div (num : Nat) {den : Nat} (pos : 0 < den) :
    nearestInt ((num : ℚ) / den) = roundDiv num den := by
  have positive : (0 : ℚ) < den := by exact_mod_cast pos
  have nonneg : (0 : ℚ) ≤ num / den := by positivity
  have value := num_natAbs nonneg
  rw [nearestInt_eq nonneg, Int.natCast_inj]
  refine roundDiv_congr (Rat.den_pos _) pos ?_
  rw [div_mul_eq_mul_div, eq_div_iff positive.ne'] at value
  exact_mod_cast value

theorem log2_mul_pow {m : Nat} (some : 0 < m) (k : Nat) : (m * 2 ^ k).log2 = m.log2 + k := by
  have pos := Nat.two_pow_pos k
  rw [Nat.log2_eq_iff (Nat.mul_pos some pos).ne', Nat.add_right_comm, Nat.pow_add, Nat.pow_add]
  exact ⟨Nat.mul_le_mul_right _ (Nat.log2_self_le some.ne'),
    Nat.mul_lt_mul_of_pos_right Nat.lt_log2_self pos⟩

/-- The digits of a number are shifted left before they are rounded, if there are too few. -/
theorem round_eq (m : Nat) (e : Int) {j : Nat}
    (missing : (e - max ((m.log2 : Int) + e - 52) (-1074)).toNat = j) :
    UnpackedFloat.round .binary64 .positive m e =
      roundWithAccuracy .binary64 .positive (m * 2 ^ j) (e - j) .exact := by
  have target : Format.targetExponent .binary64 (totalExponent m e) =
      max ((m.log2 : Int) + e - 52) (-1074) := by
    show max ((m.log2 : Int) + 1 + e - 53) (-1074) = _
    omega
  have left : decreaseExponent m e (Format.targetExponent .binary64 (totalExponent m e)) =
      (m * 2 ^ j, e - j) := by
    rw [target]
    unfold decreaseExponent
    dsimp only
    rw [missing, Nat.shiftLeft_eq]
  unfold UnpackedFloat.round
  dsimp only
  rw [left]

/-- What is left of digits that are shifted right and rounded.  One digit is taken away again if the
rounding carried. -/
theorem exists_round_shifted {m : Nat} {e : Int} (some : 0 < m) (low : -1074 ≤ m.log2 + e)
    (fine : 52 ≤ m.log2 ∨ e ≤ -1074) :
    ∃ m' e' some', ∃ k : Nat, (k : Int) = (max ((m.log2 : Int) + 1 + e - 53) (-1074) - e).toNat ∧
      roundWithAccuracy .binary64 .positive m e .exact = .finite .positive m' e' some' ∧
      IsCanonical m' e' ∧
      (e' = e + k ∧ m' = roundDiv m (2 ^ k) ∨ e' = e + k + 1 ∧ 2 ^ 53 = roundDiv m (2 ^ k)) := by
  obtain ⟨k, amount, rounded, exponent⟩ := shift_rounded m e
  obtain ⟨positive, kept, -⟩ := isCanonical_shift some low fine amount
  have least := le_roundedMantissa (shiftToTargetExponent .binary64 m e .exact).1
  have most := roundedMantissa_le (shiftToTargetExponent .binary64 m e .exact).1
  obtain ⟨same, amount₁, mantissa, -⟩ := shift_eq m e .exact
  rw [rounded, mantissa, show same = k by omega] at least most
  obtain ⟨k', amount', mantissa', exponent'⟩ := shift_eq (roundDiv m (2 ^ k)) (e + k) .exact
  obtain ⟨positive', kept', -⟩ := isCanonical_carry positive kept least most amount'
  refine ⟨roundDiv m (2 ^ k) / 2 ^ k', e + k + k', positive', k, amount, ?_, kept', ?_⟩
  · unfold roundWithAccuracy
    dsimp only
    rw [rounded, exponent]
    simp only [mantissa', exponent', dif_neg positive'.ne']
  · have digits := kept.digits
    rcases Nat.lt_or_ge (roundDiv m (2 ^ k)) (2 ^ 53) with short | carries
    · have top := log2_lt_of_lt (by decide) short
      obtain rfl : k' = 0 := by omega
      rw [Nat.pow_zero, Nat.div_one]
      exact .inl ⟨by omega, rfl⟩
    · have full : roundDiv m (2 ^ k) = 2 ^ 53 := by omega
      rw [full, Nat.log2_two_pow] at amount'
      exact .inr ⟨by omega, full.symm⟩

theorem nearestInt_shifted (m : Nat) {e t : Int} {j k : Nat} (same : e - j + k = t) :
    nearestInt ((m : ℚ) * 2 ^ e / 2 ^ t) = roundDiv (m * 2 ^ j) (2 ^ k) := by
  have powers : (2 : ℚ) ^ e * 2 ^ k = 2 ^ j * 2 ^ t := by
    rw [← zpow_natCast, ← zpow_natCast, ← zpow_add₀ two_ne_zero, ← zpow_add₀ two_ne_zero]
    congr 1
    omega
  rw [← nearestInt_div _ (Nat.two_pow_pos k)]
  congr 1
  rw [div_eq_div_iff (by positivity) (by positivity)]
  push_cast
  linear_combination (m : ℚ) * powers

/-- **How a number above zero is rounded:** to the nearest multiple of the unit that its leading
digit asks for, and that is the next power of two if the rounding carried. -/
theorem exists_round {m : Nat} {e t : Int} (some : 0 < m) (low : -1074 ≤ e)
    (unit : t = max ((m.log2 : Int) + e - 52) (-1074)) :
    ∃ m' e' some', UnpackedFloat.round .binary64 .positive m e = .finite .positive m' e' some' ∧
      IsCanonical m' e' ∧
      (e' = t ∧ (m' : Int) = nearestInt ((m : ℚ) * 2 ^ e / 2 ^ t) ∨
        e' = t + 1 ∧ (2 ^ 53 : Int) = nearestInt ((m : ℚ) * 2 ^ e / 2 ^ t)) := by
  subst unit
  obtain ⟨j, missing⟩ : ∃ j, (e - max ((m.log2 : Int) + e - 52) (-1074)).toNat = j := ⟨_, rfl⟩
  have digits := log2_mul_pow some j
  obtain ⟨m', e', some', k, amount, rounded, kept, parts⟩ :=
    exists_round_shifted (e := e - j) (Nat.mul_pos some (Nat.two_pow_pos j)) (by omega) (by omega)
  have same : e - j + k = max ((m.log2 : Int) + e - 52) (-1074) := by omega
  refine ⟨m', e', some', (round_eq m e missing).trans rounded, kept, ?_⟩
  rw [nearestInt_shifted m same, ← same]
  exact_mod_cast parts

/-! ## Sums of numbers above zero -/

theorem unpackExponent_ne_of_unpack {b : BitVec 64} {s : Sign} {m : Nat} {e : Int} {some : 0 < m}
    (u : UnpackedFloat.unpack .binary64 b = .finite s m e some) :
    @unpackExponent .binary64 b ≠ -1#11 := by
  intro ones
  unfold UnpackedFloat.unpack at u
  dsimp only at u
  rw [if_pos ones] at u
  split at u <;> cases u

/-- A finite number is unpacked as it should be kept. -/
theorem isCanonical_of_unpack {b : BitVec 64} {s : Sign} {m : Nat} {e : Int} {some : 0 < m}
    (u : UnpackedFloat.unpack .binary64 b = .finite s m e some) : IsCanonical m e := by
  have digits := mantissa_lt_of_unpack u
  unfold UnpackedFloat.unpack at u
  dsimp only at u
  split at u
  · split at u <;> cases u
  · split at u
    · rename_i zero
      split at u
      · cases u
      · cases u
        rw [zero]
        exact ⟨digits, by decide, .inr (by decide)⟩
    · rename_i normal
      cases u
      have field : (@unpackExponent .binary64 b).toNat ≠ 0 := fun zero =>
        normal (BitVec.eq_of_toNat_eq zero)
      refine ⟨digits, ?_, .inl ?_⟩
      · rw [binary64_constants.1]
        omega
      · rw [toNat_implicit] at digits
        rw [Nat.log2_eq_iff some.ne', toNat_implicit]
        omega

section Nearest

variable (m₁ m₂ : Nat) (e₁ e₂ : Int)

/-- A sum in units of its first part. -/
theorem sum_div_unit : (m₁ * 2 ^ e₁ + m₂ * 2 ^ e₂ : ℚ) / 2 ^ e₁ =
    m₁ + m₂ * 2 ^ e₂ / 2 ^ e₁ := by
  rw [add_div, mul_div_cancel_right₀ _ (by positivity)]

theorem le_nearestInt_sum :
    (m₁ : Int) ≤ nearestInt ((m₁ * 2 ^ e₁ + m₂ * 2 ^ e₂ : ℚ) / 2 ^ e₁) := by
  have rest : (0 : ℚ) ≤ m₂ * 2 ^ e₂ / 2 ^ e₁ := by positivity
  rw [sum_div_unit]
  cases m₁ with
  | zero =>
    rw [nearestInt_eq (by positivity)]
    exact Int.natCast_nonneg _
  | succ k =>
    by_contra less
    have below : nearestInt (((k + 1 : Nat) : ℚ) + m₂ * 2 ^ e₂ / 2 ^ e₁) ≤ (k : Nat) := by omega
    rw [nearestInt_le_iff (by positivity)] at below
    push_cast at below
    rcases below with below | ⟨below, -⟩ <;> linarith

/-- The second part of a sum vanishes if it is less than half a unit of the first, or just half a
unit behind an even first part. -/
theorem nearestInt_sum_le_iff :
    nearestInt ((m₁ * 2 ^ e₁ + m₂ * 2 ^ e₂ : ℚ) / 2 ^ e₁) ≤ m₁ ↔
      2 * (m₂ * 2 ^ e₂ : ℚ) < 2 ^ e₁ ∨ 2 * (m₂ * 2 ^ e₂ : ℚ) = 2 ^ e₁ ∧ m₁ % 2 = 0 := by
  have unit : (0 : ℚ) < 2 ^ e₁ := by positivity
  rw [sum_div_unit, nearestInt_le_iff (by positivity), add_lt_add_iff_left, add_right_inj,
    div_lt_iff₀ unit, div_eq_iff unit.ne']
  refine or_congr ?_ (and_congr_left fun _ => ?_)
  · constructor <;> intro h <;> linarith
  · constructor <;> intro h <;> linarith

end Nearest

/-- If a sum has more digits than its first part in front of the unit of that, the other part is a
unit at least. -/
theorem unit_le_of_coarser {m₁ m : Nat} {e₁ e : Int} {part : ℚ} (digits : m₁ < 2 ^ 53)
    (some : 0 < m) (value : (m : ℚ) * 2 ^ e = m₁ * 2 ^ e₁ + part)
    (coarser : e₁ + 52 < m.log2 + e) : (2 : ℚ) ^ e₁ ≤ part := by
  have unit : (0 : ℚ) < 2 ^ e₁ := by positivity
  have short : ((m₁ : ℚ) + 1) * 2 ^ e₁ ≤ 2 ^ (53 : Int) * 2 ^ e₁ := by
    gcongr
    exact_mod_cast digits
  have large : (2 : ℚ) ^ (53 : Int) * 2 ^ e₁ ≤ m * 2 ^ e := by
    calc (2 : ℚ) ^ (53 : Int) * 2 ^ e₁ = 2 ^ (53 + e₁) := (zpow_add₀ two_ne_zero _ _).symm
      _ ≤ 2 ^ ((m.log2 : Int) + e) := zpow_le_zpow_right₀ one_le_two (by omega)
      _ = 2 ^ (m.log2 : Int) * 2 ^ e := zpow_add₀ two_ne_zero _ _
      _ ≤ m * 2 ^ e := by
          gcongr
          exact (bounds_log2 some.ne').1
  linarith

theorem normalize_natCast {m : Nat} (some : 0 < m) (e : Int) :
    UnpackedFloat.normalize .binary64 (m : Int) e .positive =
      UnpackedFloat.round .binary64 .positive m e := by
  unfold UnpackedFloat.normalize
  rw [Int.compare_eq_gt.mpr (by omega)]
  rfl

section Sum

variable {x y : Float} {m₁ m₂ : Nat} {e₁ e₂ : Int} {some₁ : 0 < m₁} {some₂ : 0 < m₂}
  (left : x.toModel.unpack = .finite .positive m₁ e₁ some₁)
  (right : y.toModel.unpack = .finite .positive m₂ e₂ some₂)

include left right

/-- A sum is computed with the smaller exponent, and then rounded. -/
theorem exists_unpack_add : ∃ m e, -1074 ≤ e ∧ e ≤ e₁ ∧ m₁ * 2 ^ (e₁ - e).toNat < m ∧
    (m : ℚ) * 2 ^ e = m₁ * 2 ^ e₁ + m₂ * 2 ^ e₂ ∧
    (x + y).toModel.unpack = UnpackedFloat.unpack .binary64
      (UnpackedFloat.pack .binary64 (UnpackedFloat.round .binary64 .positive m e)) := by
  have low₁ := (isCanonical_of_unpack left).least
  have low₂ := (isCanonical_of_unpack right).least
  have pos₂ := Nat.mul_pos some₂ (Nat.two_pow_pos (e₂ - min e₁ e₂).toNat)
  have scaled (m : Nat) {e : Int} (above : min e₁ e₂ ≤ e) :
      (m : ℚ) * 2 ^ (e - min e₁ e₂).toNat * 2 ^ min e₁ e₂ = m * 2 ^ e := by
    rw [mul_assoc, ← zpow_natCast, ← zpow_add₀ two_ne_zero]
    congr 2
    omega
  refine ⟨m₁ * 2 ^ (e₁ - min e₁ e₂).toNat + m₂ * 2 ^ (e₂ - min e₁ e₂).toNat, min e₁ e₂, by omega,
    by omega, Nat.lt_add_of_pos_right pos₂, ?_, ?_⟩
  · push_cast
    rw [add_mul, scaled m₁ (min_le_left ..), scaled m₂ (min_le_right ..)]
  · show UnpackedFloat.unpack .binary64 (UnpackedFloat.pack .binary64
      (UnpackedFloat.add .binary64 x.toModel.unpack y.toModel.unpack)) = _
    rw [left, right]
    congr 2
    unfold UnpackedFloat.add decreaseExponent
    dsimp only
    rw [Nat.shiftLeft_eq, Nat.shiftLeft_eq]
    exact normalize_natCast (Nat.add_pos_right _ pos₂) _

/-- The unit to which a sum is rounded is that of its first part, or the second part is larger than
that. -/
theorem exists_round_add : ∃ m' e' some' t, IsCanonical m' e' ∧
    (x + y).toModel.unpack = UnpackedFloat.unpack .binary64
      (UnpackedFloat.pack .binary64 (.finite .positive m' e' some')) ∧
    (t = e₁ ∨ e₁ < t ∧ (2 : ℚ) ^ e₁ ≤ m₂ * 2 ^ e₂) ∧
    (e' = t ∧ (m' : Int) = nearestInt ((m₁ * 2 ^ e₁ + m₂ * 2 ^ e₂) / 2 ^ t) ∨
      e' = t + 1 ∧ (2 ^ 53 : Int) = nearestInt ((m₁ * 2 ^ e₁ + m₂ * 2 ^ e₂) / 2 ^ t)) := by
  obtain ⟨digits, low₁, full⟩ := isCanonical_of_unpack left
  obtain ⟨m, e, low, above, more, value, sum⟩ := exists_unpack_add left right
  have some : 0 < m := by omega
  obtain ⟨m', e', some', rounded, kept, nearest⟩ := exists_round some low rfl
  rw [rounded] at sum
  rw [value] at nearest
  refine ⟨m', e', some', _, kept, sum, ?_, nearest⟩
  have leading := log2_mono more.le
  rw [log2_mul_pow some₁] at leading
  rcases (show e₁ ≤ max ((m.log2 : Int) + e - 52) (-1074) by omega).eq_or_lt with same | coarser
  · exact .inl same.symm
  · exact .inr ⟨coarser, unit_le_of_coarser digits some value (by omega)⟩

/-- **Where a sum is its first part:** the second is less than half a unit of it, or just half a
unit and the first is even. -/
theorem unpack_add_of_less (less : 2 * (m₂ * 2 ^ e₂ : ℚ) < 2 ^ e₁ ∨
      2 * (m₂ * 2 ^ e₂ : ℚ) = 2 ^ e₁ ∧ m₁ % 2 = 0) :
    (x + y).toModel.unpack = x.toModel.unpack := by
  obtain ⟨m', e', some', t, -, sum, unit, nearest⟩ := exists_round_add left right
  have part : (0 : ℚ) < m₂ * 2 ^ e₂ := mul_pos (by exact_mod_cast some₂) (by positivity)
  obtain rfl : t = e₁ := unit.resolve_right fun ⟨_, large⟩ => by
    rcases less with less | ⟨less, -⟩ <;> linarith
  have lower := le_nearestInt_sum m₁ m₂ t e₂
  have upper := (nearestInt_sum_le_iff m₁ m₂ t e₂).mpr less
  have digits := (isCanonical_of_unpack left).digits
  obtain ⟨rfl, same⟩ : e' = t ∧ m' = m₁ := by omega
  subst same
  rw [sum, ← left]
  exact congrArg _ (pack_unpack (unpackExponent_ne_of_unpack left))

/-- **Elsewhere a sum is above its first part.** -/
theorem lt_add_of_more (more : ¬ (2 * (m₂ * 2 ^ e₂ : ℚ) < 2 ^ e₁ ∨
      2 * (m₂ * 2 ^ e₂ : ℚ) = 2 ^ e₁ ∧ m₁ % 2 = 0)) :
    x < x + y := by
  obtain ⟨m', e', some', t, kept, sum, unit, nearest⟩ := exists_round_add left right
  have further : e₁ < e' ∨ e₁ = e' ∧ m₁ < m' := by
    rcases unit with rfl | ⟨coarser, -⟩
    · have upper := mt (nearestInt_sum_le_iff m₁ m₂ t e₂).mp more
      omega
    · omega
  rw [lt_iff_unpack, sum, left]
  rcases unpack_pack kept .positive some' with same | large
  · rw [same]
    show (some ((compare e₁ e').then (compare m₁ m')) == some .lt) = true
    rcases further with further | ⟨rfl, further⟩
    · rw [Int.compare_eq_lt.mpr further]
      rfl
    · rw [Int.compare_eq_eq.mpr rfl, Nat.compare_eq_lt.mpr further]
      rfl
  · rw [large]
    rfl

end Sum

/-! ## Comparing numbers -/

theorem beq_iff_unpack (a b : Float) :
    (a == b) = true ↔ a.toModel.unpack.beq b.toModel.unpack = true := Iff.rfl

/-- The digits of two finite numbers, compared the other way around. -/
theorem compare_digits_swap (m n : Nat) (e f : Int) :
    (compare f e).then (compare n m) = ((compare e f).then (compare m n)).swap := by
  rw [Ordering.swap_then, Int.compare_swap, Nat.compare_swap]

theorem compare_swap (u v : UnpackedFloat) : v.compare u = (u.compare v).map Ordering.swap := by
  rcases u with s | _ | s | ⟨s, m, e, _⟩ <;> rcases v with s' | _ | s' | ⟨s', n, f, _⟩ <;>
    try cases s <;> try cases s'
  case finite.finite.negative.negative =>
    exact congrArg (fun o => Option.some o.swap) (compare_digits_swap m n e f)
  case finite.finite.positive.positive =>
    exact congrArg Option.some (compare_digits_swap m n e f)
  all_goals rfl

theorem compare_self {u : UnpackedFloat} (number : u ≠ .notANumber) : u.compare u = some .eq := by
  cases u with
  | notANumber => exact absurd rfl number
  | infinity s => cases s <;> rfl
  | zero s => cases s <;> rfl
  | finite s m e some =>
    have digits : (compare e e).then (compare m m) = .eq := by
      rw [Int.compare_eq_eq.mpr rfl, Nat.compare_eq_eq.mpr rfl]
      rfl
    cases s
    · exact congrArg (fun o => Option.some o.swap) digits
    · exact congrArg Option.some digits

theorem compare_notANumber (u : UnpackedFloat) : u.compare .notANumber = none := by
  cases u <;> rfl

/-! ## Sums and their first parts -/

/-- Whether a length moves a start that it is added to: the start is finite, and the length is
infinite, or more than half a unit of the last digit of the start, or just half a unit if that digit
is odd. -/
def Moves : Size → Size → Prop
  | .finite m e, .finite n f =>
    (2 : ℚ) ^ e < 2 * (n * 2 ^ f) ∨ (2 : ℚ) ^ e = 2 * (n * 2 ^ f) ∧ m % 2 = 1
  | .finite _ _, .infinite => True
  | _, _ => False

theorem not_moves_iff (m n : Nat) (e f : Int) : ¬ Moves (.finite m e) (.finite n f) ↔
    2 * (n * 2 ^ f : ℚ) < 2 ^ e ∨ 2 * (n * 2 ^ f : ℚ) = 2 ^ e ∧ m % 2 = 0 := by
  show ¬ ((2 : ℚ) ^ e < 2 * (n * 2 ^ f) ∨ (2 : ℚ) ^ e = 2 * (n * 2 ^ f) ∧ m % 2 = 1) ↔ _
  rcases lt_trichotomy ((2 : ℚ) ^ e) (2 * (n * 2 ^ f)) with less | same | more
  · simp [less, less.not_gt, less.ne']
  · simp [same]
  · simp [more, more.not_gt, more.ne']

/-- Every length moves the start zero. -/
theorem moves_zero {n : Nat} {f : Int} (some : 0 < n) (low : -1074 ≤ f) :
    Moves (.finite 0 (-1074)) (.finite n f) := by
  have one : (1 : ℚ) ≤ n := by exact_mod_cast some
  have unit : (2 : ℚ) ^ (-1074 : Int) ≤ 2 ^ f := zpow_le_zpow_right₀ one_le_two low
  have pos : (0 : ℚ) < 2 ^ (-1074 : Int) := zpow_pos two_pos _
  have length : (2 : ℚ) ^ f ≤ n * 2 ^ f := le_mul_of_one_le_left (by positivity) one
  left
  linarith

theorem unpack_add (x y : Float) : (x + y).toModel.unpack =
    UnpackedFloat.unpack .binary64 (UnpackedFloat.pack .binary64
      (UnpackedFloat.add .binary64 x.toModel.unpack y.toModel.unpack)) := rfl

/-- What is packed again is unpacked as it was before. -/
theorem unpack_pack_unpack (x : Float) : UnpackedFloat.unpack .binary64
    (UnpackedFloat.pack .binary64 x.toModel.unpack) = x.toModel.unpack := by
  cases u : x.toModel.unpack with
  | notANumber => rfl
  | infinity s => exact unpack_packedInfinity s
  | zero s => cases s <;> rfl
  | finite s m e some =>
    rw [← u]
    exact congrArg _ (pack_unpack (unpackExponent_ne_of_unpack u))

/-- What a start that is not early is unpacked to. -/
theorem unpack_of_not_lt {x : Float} (notEarly : ¬ x < 0) :
    x.toModel.unpack = .notANumber ∨ x.toModel.unpack = .infinity .positive ∨
      (∃ s, x.toModel.unpack = .zero s) ∨
        ∃ m e some, x.toModel.unpack = .finite .positive m e some := by
  rw [lt_iff_unpack, unpack_zero] at notEarly
  cases u : x.toModel.unpack with
  | notANumber => exact .inl rfl
  | infinity s =>
    cases s with
    | positive => exact .inr (.inl rfl)
    | negative => exact absurd (by rw [u]; rfl) notEarly
  | zero s => exact .inr (.inr (.inl ⟨s, rfl⟩))
  | finite s m e some =>
    cases s with
    | positive => exact .inr (.inr (.inr ⟨m, e, some, rfl⟩))
    | negative => exact absurd (by rw [u]; rfl) notEarly

/-- What a length that is not empty is unpacked to. -/
theorem unpack_of_not_le {y : Float} (notShort : ¬ y ≤ 0) :
    y.toModel.unpack = .notANumber ∨ y.toModel.unpack = .infinity .positive ∨
      ∃ m e some, y.toModel.unpack = .finite .positive m e some := by
  have notEarly : ¬ y < 0 := by
    intro early
    rw [lt_iff_unpack, UnpackedFloat.lt, beq_iff_eq] at early
    rw [le_iff_unpack, UnpackedFloat.le, early] at notShort
    exact notShort rfl
  rcases unpack_of_not_lt notEarly with v | v | ⟨s, v⟩ | v
  · exact .inl v
  · exact .inr (.inl v)
  · rw [le_iff_unpack, unpack_zero, v] at notShort
    cases s <;> exact absurd rfl notShort
  · exact .inr (.inr v)

theorem add_undefined {u v : UnpackedFloat} (either : u = .notANumber ∨ v = .notANumber) :
    UnpackedFloat.add .binary64 u v = .notANumber := by
  rcases either with rfl | rfl
  · rfl
  · cases u <;> rfl

theorem finite_add_infinity {u : UnpackedFloat} (finite : u.isFinite = true) :
    UnpackedFloat.add .binary64 u (.infinity .positive) = .infinity .positive := by
  cases u with
  | notANumber => cases finite
  | infinity s => cases finite
  | zero s => rfl
  | finite s m e some => rfl

theorem finite_lt_infinity {u : UnpackedFloat} (finite : u.isFinite = true) :
    u.lt (.infinity .positive) = true := by
  cases u with
  | notANumber => cases finite
  | infinity s => cases finite
  | zero s => rfl
  | finite s m e some => cases s <;> rfl

/-- What can come of a sum of a start and a length. -/
inductive IsSum (x y : Float) : Prop
  /-- It is above the start. -/
  | moved (moves : Moves (Double.ofFloat x).size (Double.ofFloat y).size) (less : x < x + y)
  /-- It is the start again. -/
  | same (still : ¬ Moves (Double.ofFloat x).size (Double.ofFloat y).size)
    (start : (Double.ofFloat x).size ≠ .undefined) (length : (Double.ofFloat y).size ≠ .undefined)
    (sum : (x + y).toModel.unpack = x.toModel.unpack)
  /-- It is no number. -/
  | undefined (still : ¬ Moves (Double.ofFloat x).size (Double.ofFloat y).size)
    (either : (Double.ofFloat x).size = .undefined ∨ (Double.ofFloat y).size = .undefined)
    (sum : (x + y).toModel.unpack = .notANumber)

section Outcomes

variable {x y : Float}

theorem isSum_undefined (either : x.toModel.unpack = .notANumber ∨ y.toModel.unpack = .notANumber) :
    IsSum x y := by
  have sizes : (Double.ofFloat x).size = .undefined ∨ (Double.ofFloat y).size = .undefined := by
    rw [size_ofFloat, size_ofFloat]
    exact either.imp (congrArg unpackedSize) (congrArg unpackedSize)
  refine .undefined ?_ sizes ?_
  · rcases sizes with size | size <;> rw [size]
    · exact id
    · cases (Double.ofFloat x).size <;> exact id
  · rw [unpack_add, add_undefined either]
    rfl

/-- An infinite start stays where it is. -/
theorem isSum_infinity_add (u : x.toModel.unpack = .infinity .positive)
    (length : y.toModel.unpack = .infinity .positive ∨
      ∃ n f some, y.toModel.unpack = .finite .positive n f some) : IsSum x y := by
  have start := size_ofFloat x
  rw [u] at start
  refine .same ?_ ?_ ?_ ?_
  · rw [start]
    exact id
  · rw [start]
    exact nofun
  · rw [size_ofFloat]
    rcases length with v | ⟨n, f, some, v⟩ <;> rw [v] <;> exact nofun
  · rw [unpack_add, u]
    rcases length with v | ⟨n, f, some, v⟩ <;> rw [v] <;> exact unpack_packedInfinity .positive

/-- An infinite length moves every finite start. -/
theorem isSum_add_infinity (finite : x.toModel.unpack.isFinite = true)
    (v : y.toModel.unpack = .infinity .positive) : IsSum x y := by
  refine .moved ?_ ?_
  · obtain ⟨m, e, size⟩ := isFinite_iff_size.mp finite
    rw [size, size_ofFloat, v]
    trivial
  · rw [lt_iff_unpack, unpack_add, v, finite_add_infinity finite]
    exact (congrArg _ (unpack_packedInfinity .positive)).trans (finite_lt_infinity finite)

theorem isSum_zero_add {s : Sign} (u : x.toModel.unpack = .zero s) {n : Nat} {f : Int}
    {some : 0 < n} (v : y.toModel.unpack = .finite .positive n f some) : IsSum x y := by
  refine .moved ?_ ?_
  · rw [size_ofFloat, size_ofFloat, u, v]
    exact moves_zero some (isCanonical_of_unpack v).least
  · have sum : UnpackedFloat.add .binary64 (.zero s) y.toModel.unpack = y.toModel.unpack := by
      rw [v]
      rfl
    rw [lt_iff_unpack, unpack_add, u, sum, unpack_pack_unpack, v]
    rfl

theorem isSum_finite {m n : Nat} {e f : Int} {some : 0 < m} {some' : 0 < n}
    (u : x.toModel.unpack = .finite .positive m e some)
    (v : y.toModel.unpack = .finite .positive n f some') : IsSum x y := by
  have start := size_ofFloat x
  have length := size_ofFloat y
  rw [u] at start
  rw [v] at length
  by_cases moves : Moves (Double.ofFloat x).size (Double.ofFloat y).size
  · refine .moved moves ?_
    rw [start, length] at moves
    exact lt_add_of_more u v (mt (not_moves_iff m n e f).mpr (not_not.mpr moves))
  · refine .same moves ?_ ?_ ?_
    · rw [start]
      exact nofun
    · rw [length]
      exact nofun
    · rw [start, length] at moves
      exact unpack_add_of_less u v ((not_moves_iff m n e f).mp moves)

/-- **Whatever length is added to a start leads to one of these.** -/
theorem isSum (notEarly : ¬ x < 0) (notShort : ¬ y ≤ 0) : IsSum x y := by
  rcases unpack_of_not_le notShort with v | length
  · exact isSum_undefined (.inr v)
  rcases unpack_of_not_lt notEarly with u | u | ⟨s, u⟩ | ⟨m, e, some, u⟩
  · exact isSum_undefined (.inl u)
  · exact isSum_infinity_add u length
  · rcases length with v | ⟨n, f, some', v⟩
    · exact isSum_add_infinity (by rw [u]; rfl) v
    · exact isSum_zero_add u v
  · rcases length with v | ⟨n, f, some', v⟩
    · exact isSum_add_infinity (by rw [u]; rfl) v
    · exact isSum_finite u v

/-! ### Comparing a sum with its start -/

theorem unpack_ne_notANumber (known : (Double.ofFloat x).size ≠ .undefined) :
    x.toModel.unpack ≠ .notANumber := by
  intro u
  rw [size_ofFloat, u] at known
  exact known rfl

namespace IsSum

/-- The start against the sum. -/
theorem compare_eq (sum : IsSum x y) :
    Moves (Double.ofFloat x).size (Double.ofFloat y).size ∧
        x.toModel.unpack.compare (x + y).toModel.unpack = some .lt ∨
      ¬ Moves (Double.ofFloat x).size (Double.ofFloat y).size ∧
        ((Double.ofFloat x).size ≠ .undefined ∧ (Double.ofFloat y).size ≠ .undefined) ∧
          x.toModel.unpack.compare (x + y).toModel.unpack = some .eq ∨
      ¬ Moves (Double.ofFloat x).size (Double.ofFloat y).size ∧
        ¬ ((Double.ofFloat x).size ≠ .undefined ∧ (Double.ofFloat y).size ≠ .undefined) ∧
          x.toModel.unpack.compare (x + y).toModel.unpack = none := by
  cases sum with
  | moved moves less =>
    rw [lt_iff_unpack, UnpackedFloat.lt, beq_iff_eq] at less
    exact .inl ⟨moves, less⟩
  | same still start length sum =>
    rw [sum]
    exact .inr (.inl ⟨still, ⟨start, length⟩, compare_self (unpack_ne_notANumber start)⟩)
  | undefined still either sum =>
    rw [sum]
    exact .inr (.inr ⟨still, by tauto, compare_notANumber _⟩)

theorem lt_iff (sum : IsSum x y) :
    x < x + y ↔ Moves (Double.ofFloat x).size (Double.ofFloat y).size := by
  rw [lt_iff_unpack, UnpackedFloat.lt, beq_iff_eq]
  rcases sum.compare_eq with ⟨moves, same⟩ | ⟨still, -, same⟩ | ⟨still, -, same⟩ <;>
    rw [same] <;> simp [*]

theorem not_lt (sum : IsSum x y) : ¬ x + y < x := by
  rw [lt_iff_unpack, UnpackedFloat.lt, beq_iff_eq, compare_swap]
  rcases sum.compare_eq with ⟨moves, same⟩ | ⟨still, -, same⟩ | ⟨still, -, same⟩ <;>
    rw [same] <;> simp

theorem beq_iff (sum : IsSum x y) : (x + y == x) = true ↔
    ¬ Moves (Double.ofFloat x).size (Double.ofFloat y).size ∧
      (Double.ofFloat x).size ≠ .undefined ∧ (Double.ofFloat y).size ≠ .undefined := by
  rw [beq_iff_unpack, UnpackedFloat.beq, beq_iff_eq, compare_swap]
  rcases sum.compare_eq with ⟨moves, same⟩ | ⟨still, both, same⟩ | ⟨still, both, same⟩ <;>
    rw [same] <;> simp [*]

end IsSum

end Outcomes

end Decimal

end Keysong
