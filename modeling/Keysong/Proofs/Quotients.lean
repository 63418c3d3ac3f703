import Keysong.Proofs.WholeNumbers

/-!
# Quotients as machine numbers

A quotient of integers is rounded to the nearest machine number in one step.  This module says that
only its value matters, and what becomes of an eighth of an integer: lengths are counted in
thirty-second notes, of which a beat has eight.

## Main Statements

* `leadingBit_eq`, `roundDiv_congr` — equal quotients have the same digits
* `nearestDouble_eighths` — an eighth of an integer is rounded as the integer is
* `exceeds_eighths_iff` — which eighths have no double
* `eight_mul_wholePart_iff` — which eighths are whole numbers and stay as they are
* `wholePart_of_lt` — what is left of an eighth with few digits

### Why an eighth and not the quotient itself

The quotient of a length is written with 480 below the line and 60 above it.  Neither is a power of
two, and nothing is known of the digits of `60 * n` from those of `n`.  So the quotient is compared
with `n` by value, and a power of two only moves the exponent.
-/

namespace Keysong.Decimal

/-! ## Scaled quotients -/

theorem zpow_eq_div (e : Int) : (2 : ℚ) ^ e = 2 ^ e.toNat / 2 ^ (-e).toNat := by
  rw [← zpow_natCast, ← zpow_natCast, ← zpow_sub₀ two_ne_zero]
  congr 1
  omega

/-- The leading digit of a number, as a power of two. -/
theorem bounds_log2 {n : Nat} (some : n ≠ 0) :
    (2 : ℚ) ^ (n.log2 : Int) ≤ n ∧ (n : ℚ) < 2 ^ ((n.log2 : Int) + 1) := by
  constructor
  · rw [zpow_natCast]
    exact_mod_cast Nat.log2_self_le some
  · exact_mod_cast Nat.lt_log2_self (n := n)

/-- The leading digits of its two sides leave two places for that of a quotient. -/
theorem bounds_div {num den : Nat} (some : num ≠ 0) (pos : 0 < den) :
    (2 : ℚ) ^ ((num.log2 : Int) - den.log2 - 1) ≤ num / den ∧
      (num : ℚ) / den < 2 ^ ((num.log2 : Int) - den.log2 + 1) := by
  have positive : (0 : ℚ) < den := by exact_mod_cast pos
  obtain ⟨above, below⟩ := bounds_log2 some
  obtain ⟨above', below'⟩ := bounds_log2 pos.ne'
  constructor
  · rw [le_div_iff₀ positive]
    calc (2 : ℚ) ^ ((num.log2 : Int) - den.log2 - 1) * den
        ≤ 2 ^ ((num.log2 : Int) - den.log2 - 1) * 2 ^ ((den.log2 : Int) + 1) := by gcongr
      _ = 2 ^ (num.log2 : Int) := by
        rw [← zpow_add₀ two_ne_zero]
        congr 1
        omega
      _ ≤ num := above
  · rw [div_lt_iff₀ positive]
    calc (num : ℚ) < 2 ^ ((num.log2 : Int) + 1) := below
      _ = 2 ^ ((num.log2 : Int) - den.log2 + 1) * 2 ^ (den.log2 : Int) := by
        rw [← zpow_add₀ two_ne_zero]
        congr 1
        omega
      _ ≤ 2 ^ ((num.log2 : Int) - den.log2 + 1) * den := by gcongr

/-- The leading digit of a quotient, as a power of two. -/
theorem bounds_leadingBit {num den : Nat} (some : num ≠ 0) (pos : 0 < den) :
    (2 : ℚ) ^ leadingBit num den ≤ num / den ∧ (num : ℚ) / den < 2 ^ (leadingBit num den + 1) := by
  have positive : (0 : ℚ) < den := by exact_mod_cast pos
  obtain ⟨least, most⟩ := bounds_div some pos
  have guessed (g : Int) : num * pow2 (-g).toNat < den * pow2 g.toNat ↔
      (num : ℚ) / den < 2 ^ g := by
    show num * 2 ^ (-g).toNat < den * 2 ^ g.toNat ↔ _
    rw [zpow_eq_div, div_lt_div_iff₀ positive (by positivity), mul_comm (2 ^ g.toNat) (den : ℚ)]
    exact_mod_cast Iff.rfl
  unfold leadingBit
  dsimp only
  split
  · rename_i less
    rw [guessed] at less
    refine ⟨least, ?_⟩
    rwa [sub_add_cancel]
  · rename_i more
    rw [guessed, not_lt] at more
    exact ⟨more, most⟩

/-- The leading digit is the only one. -/
theorem leadingBit_eq {num den : Nat} (some : num ≠ 0) (pos : 0 < den) {e : Int}
    (above : (2 : ℚ) ^ e ≤ num / den) (below : (num : ℚ) / den < 2 ^ (e + 1)) :
    leadingBit num den = e := by
  obtain ⟨above', below'⟩ := bounds_leadingBit some pos
  have least := (zpow_lt_zpow_iff_right₀ one_lt_two).mp (above.trans_lt below')
  have most := (zpow_lt_zpow_iff_right₀ one_lt_two).mp (above'.trans_lt below)
  omega

theorem roundDiv_mul_mul (num : Nat) {den k : Nat} (pos : 0 < den) (scale : 0 < k) :
    roundDiv (num * k) (den * k) = roundDiv num den := by
  refine eq_of_forall_ge_iff fun n => ?_
  rw [roundDiv_le_iff _ (Nat.mul_pos pos scale), roundDiv_le_iff _ pos, ← Nat.mul_assoc,
    ← Nat.mul_assoc, Nat.mul_lt_mul_right scale, Nat.mul_left_inj scale.ne']

/-- Equal quotients are rounded to the same integer. -/
theorem roundDiv_congr {a b c d : Nat} (pos : 0 < b) (pos' : 0 < d) (same : a * d = c * b) :
    roundDiv a b = roundDiv c d := by
  rw [← roundDiv_mul_mul a pos pos', same, Nat.mul_comm b d, roundDiv_mul_mul c pos' pos]

/-- **An eighth of an integer is rounded as the integer is.** -/
theorem nearestDouble_eighths {n m : Nat} {e : Int} (some : n ≠ 0)
    (known : nearestDouble n 1 = (m, e)) : nearestDouble (60 * n) 480 = (m, e - 3) := by
  have bit : leadingBit (60 * n) 480 = leadingBit n 1 - 3 := by
    obtain ⟨above, below⟩ := bounds_leadingBit some one_pos
    rw [Nat.cast_one, div_one] at above below
    have eighth : ((60 * n : Nat) : ℚ) / (480 : Nat) = n / 2 ^ (3 : Int) := by
      push_cast
      ring
    apply leadingBit_eq (by omega) (by decide)
    · rw [eighth, zpow_sub₀ two_ne_zero]
      gcongr
    · rw [eighth, show leadingBit n 1 - 3 + 1 = leadingBit n 1 + 1 - 3 by ring,
        zpow_sub₀ two_ne_zero]
      gcongr
  have small := leadingBit_whole some
  unfold nearestDouble at known ⊢
  rw [if_neg some] at known
  rw [if_neg (by omega), bit]
  obtain ⟨rfl, exponent⟩ := Prod.mk.inj known
  have fine : max (leadingBit n 1 - 3 - 52) (-1074) = e - 3 := by omega
  rw [exponent]
  dsimp only
  rw [fine]
  refine Prod.ext (roundDiv_congr ?_ ?_ ?_) rfl
  · exact Nat.mul_pos (by decide) (Nat.two_pow_pos _)
  · exact Nat.mul_pos (by decide) (Nat.two_pow_pos _)
  · -- Both sides are the same power of two.
    have powers :
        2 ^ (-(e - 3)).toNat * 2 ^ e.toNat = 8 * (2 ^ (-e).toNat * 2 ^ (e - 3).toNat) := by
      rw [← Nat.pow_add, ← Nat.pow_add, show 8 = 2 ^ 3 by rfl, ← Nat.pow_add]
      congr 1
      omega
    show 60 * n * 2 ^ (-(e - 3)).toNat * (1 * 2 ^ e.toNat) =
      n * 2 ^ (-e).toNat * (480 * 2 ^ (e - 3).toNat)
    linear_combination 60 * n * powers

/-- Whether an eighth of an integer is rounded to `2 ^ 54` units or more. -/
theorem le_eighths_iff {n m : Nat} {e : Int} (some : n ≠ 0) (known : nearestDouble n 1 = (m, e))
    (p : Nat) : 2 ^ 54 * pow2 p ≤ m * pow2 (e - 3).toNat ↔ 8 * ((2 ^ 54 - 1) * pow2 p) ≤ n := by
  obtain ⟨-, most, -, -⟩ := bounds_nearestDouble some known
  have unit : pow2 (p + 3) = 8 * pow2 p := pow2_eq_mul (a := 3) (Nat.add_comm p 3)
  have pos : 0 < pow2 p := Nat.two_pow_pos p
  rw [Nat.mul_left_comm, ← unit, ← le_nearestDouble_iff known, unit]
  rcases Int.le_total e 3 with fine | coarse
  · have one : pow2 (e - 3).toNat = 1 := by
      rw [Int.toNat_eq_zero.mpr (by omega)]
    have less : m * pow2 e.toNat ≤ 2 ^ 53 * 8 :=
      Nat.mul_le_mul most (Nat.pow_le_pow_right (by decide) (by omega : e.toNat ≤ 3))
    rw [one]
    omega
  · have scaled : pow2 e.toNat = 8 * pow2 (e - 3).toNat := pow2_eq_mul (a := 3) (by omega)
    rw [scaled, Nat.mul_left_comm m]
    omega

/-- Which eighths have no double. -/
theorem exceeds_eighths_iff {n m : Nat} {e : Int} (some : n ≠ 0)
    (known : nearestDouble n 1 = (m, e)) :
    exceeds m (e - 3) = true ↔ 8 * tooLargeFrom ≤ n := by
  have limit : pow2 1024 = pow2 54 * pow2 970 := pow2_eq_mul (by decide)
  have digits : pow2 54 = 2 ^ 54 := rfl
  unfold exceeds tooLargeFrom
  rw [decide_eq_true_iff, limit, digits, le_eighths_iff some known]

/-- An eighth of an integer, rounded to a double and cut to a whole number. -/
theorem wholePart_eighths {n m : Nat} {e : Int} (some : n ≠ 0)
    (known : nearestDouble n 1 = (m, e)) :
    wholePart (60 * n) 480 =
      if 8 * tooLargeFrom ≤ n then none
      else Option.some (m * pow2 (e - 3).toNat / pow2 (-(e - 3)).toNat) := by
  unfold wholePart
  rw [nearestDouble_eighths some known]
  dsimp only
  simp only [exceeds_eighths_iff some known]

/-- A short number is rounded to itself. -/
theorem eq_of_isShort {n m : Nat} {e : Int} (known : nearestDouble n 1 = (m, e))
    (short : IsShort n) : (m : ℚ) * 2 ^ e = n := by
  have near := (nearest_short known short).1
  rw [sub_self, abs_zero] at near
  exact sub_eq_zero.mp (abs_nonpos_iff.mp near)

theorem isShort_mul_zpow {m : Nat} (most : m ≤ 2 ^ 53) (e : Int) : IsShort (m * 2 ^ e) := by
  rcases most.lt_or_eq with less | same
  · exact ⟨m, e, by norm_num, by rw [Nat.abs_cast]; exact_mod_cast less⟩
  · refine ⟨1, e + 53, ?_, by norm_num⟩
    rw [same, zpow_add₀ two_ne_zero]
    push_cast
    norm_num
    ring

theorem IsShort.mul_zpow {v : ℚ} (short : IsShort v) (k : Int) : IsShort (v * 2 ^ k) := by
  obtain ⟨j, f, rfl, small⟩ := short
  exact ⟨j, f + k, by rw [zpow_add₀ two_ne_zero, mul_assoc], small⟩

/-- What is cut behind the point leaves few digits. -/
theorem isShort_cut {m : Nat} (most : m ≤ 2 ^ 53) (e : Int) :
    IsShort ((m * pow2 e.toNat / pow2 (-e).toNat : Nat) : ℚ) := by
  have one : pow2 0 = 1 := rfl
  rcases Int.le_total e 0 with fine | coarse
  · have few : m / pow2 (-e).toNat ≤ 2 ^ 53 := (Nat.div_le_self ..).trans most
    have short := isShort_mul_zpow few 0
    rwa [Int.toNat_eq_zero.mpr fine, one, Nat.mul_one, ← mul_one (Nat.cast _), ← zpow_zero 2]
  · have short := isShort_mul_zpow most e.toNat
    rw [Int.toNat_eq_zero.mpr (Int.neg_nonpos_of_nonneg coarse), one, Nat.div_one]
    rw [zpow_natCast] at short
    exact_mod_cast short

/-- **When an eighth is exact:** the integer is a multiple of eight, and it has few digits. -/
theorem eight_mul_wholePart_iff {n t : Nat} (some : n ≠ 0)
    (whole : wholePart (60 * n) 480 = Option.some t) : 8 * t = n ↔ 8 ∣ n ∧ IsShort n := by
  obtain ⟨⟨m, e⟩, known⟩ : ∃ p, nearestDouble n 1 = p := ⟨_, rfl⟩
  obtain ⟨-, most, -, -⟩ := bounds_nearestDouble some known
  have eight : (2 : ℚ) ^ (3 : Int) = 8 := by norm_num
  rw [wholePart_eighths some known] at whole
  split at whole
  · cases whole
  obtain rfl := Option.some.inj whole
  constructor
  · intro exact
    have short := (isShort_cut most (e - 3)).mul_zpow 3
    rw [eight, mul_comm] at short
    refine ⟨⟨_, exact.symm⟩, ?_⟩
    rw [← exact]
    exact_mod_cast short
  · rintro ⟨⟨k, rfl⟩, short⟩
    have same : (m : ℚ) * 2 ^ (e - 3) = k := by
      have same := eq_of_isShort known short
      rw [zpow_sub₀ two_ne_zero, eight]
      push_cast at same
      linarith
    have scaled : m * pow2 (e - 3).toNat = k * pow2 (-(e - 3)).toNat := by
      rw [zpow_eq_div, ← mul_div_assoc, div_eq_iff (by positivity)] at same
      exact_mod_cast same
    have cut : k * pow2 (-(e - 3)).toNat / pow2 (-(e - 3)).toNat = k :=
      Nat.mul_div_cancel k (Nat.two_pow_pos _)
    rw [scaled, cut]

theorem le_tooLargeFrom : 2 ^ 54 - 1 ≤ tooLargeFrom := by
  have unit (p : Nat) : 2 ^ 54 - 1 ≤ (2 ^ 54 - 1) * pow2 p :=
    Nat.le_mul_of_pos_right _ (Nat.two_pow_pos p)
  unfold tooLargeFrom
  exact unit 970

/-- Few digits are kept, and only what is behind the point is cut. -/
theorem wholePart_of_lt {n : Nat} (some : n ≠ 0) (few : n < 2 ^ 53) :
    wholePart (60 * n) 480 = Option.some (n / 8) := by
  obtain ⟨⟨m, e⟩, known⟩ : ∃ p, nearestDouble n 1 = p := ⟨_, rfl⟩
  obtain ⟨-, -, -, ⟨fine, rfl⟩ | ⟨coarse, -, above, -⟩⟩ := bounds_nearestDouble some known
  · have small : ¬ 8 * tooLargeFrom ≤ n := by
      have limit := le_tooLargeFrom
      omega
    have one : pow2 (e - 3).toNat = 1 := by rw [Int.toNat_eq_zero.mpr (by omega)]
    have scaled : pow2 (-(e - 3)).toNat = 8 * 2 ^ (-e).toNat := pow2_eq_mul (a := 3) (by omega)
    rw [wholePart_eighths some known, if_neg small, one, scaled, Nat.mul_one,
      Nat.mul_div_mul_right _ _ (Nat.two_pow_pos _)]
  · have two : 2 ^ 1 ≤ 2 ^ e.toNat := Nat.pow_le_pow_right (by decide) (by omega)
    omega

end Keysong.Decimal
