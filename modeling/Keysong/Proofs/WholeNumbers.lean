import Keysong.Proofs.Packing
import Keysong.Proofs.Rounding

/-!
# Integers as machine numbers

An integer is converted to the nearest machine number, a half to the even neighbour, unless it is
too large for that.  This module says what nearest means among all machine numbers, and from which
integer on there is none.

## Main Definitions

* `tooLargeFrom` — the least size of an integer that has no machine number
* `IsShort` — the values that a machine number can have, its range left aside
* `IsNearest` — what a number is rounded to, among all finite machine numbers

## Main Statements

* `bounds_nearestDouble` — the digits to which an integer is rounded, and their unit
* `ofInt_eq_none_iff` — which integers have no machine number
* `isNearest_ofInt` — the machine number of an integer is the nearest
* `zero_lt_ofInt_iff` — it is above zero if the integer is

### Why no other number is nearer

A machine number is a multiple of the unit to which an integer is rounded, or it is finer.  Among
the multiples none is nearer because a quotient is rounded to the nearest integer.  A finer number
has a smaller leading digit, so the least multiple with the leading digit of the integer lies
between the two.
-/

namespace Keysong

namespace Decimal

/-! ## The nearest double of an integer -/

theorem leadingBit_whole {n : Nat} (some : n ≠ 0) : leadingBit n 1 = n.log2 := by
  have one : Nat.log2 1 = 0 := by decide
  have low : ¬ n < pow2 n.log2 := Nat.not_lt.mpr (Nat.log2_self_le some)
  unfold leadingBit
  dsimp only
  rw [one, Int.toNat_eq_zero.mpr (by omega)]
  have guess : ((n.log2 : Int) - (0 : Nat)).toNat = n.log2 := by omega
  rw [guess, Nat.one_mul, show pow2 0 = 1 from rfl, Nat.mul_one]
  rw [if_neg low]
  omega

/-- Zero has no digits, and the least unit. -/
theorem eq_of_nearestDouble_zero {m : Nat} {e : Int} (known : nearestDouble 0 1 = (m, e)) :
    m = 0 ∧ e = -1074 := by
  obtain ⟨rfl, rfl⟩ := Prod.mk.inj known
  exact ⟨rfl, rfl⟩

/-- What an integer is rounded to: below `2 ^ 53` it is itself, with zeros behind it until there are
53 digits; above that it is a multiple of a power of two. -/
theorem bounds_nearestDouble {n m : Nat} {e : Int} (some : n ≠ 0)
    (known : nearestDouble n 1 = (m, e)) :
    2 ^ 52 ≤ m ∧ m ≤ 2 ^ 53 ∧ -1074 < e ∧
      (e ≤ 0 ∧ m = n * 2 ^ (-e).toNat ∨
        0 < e ∧ m = roundDiv n (2 ^ e.toNat) ∧ 2 ^ 52 * 2 ^ e.toNat ≤ n ∧
          n < 2 ^ 53 * 2 ^ e.toNat) := by
  have low := Nat.log2_self_le some
  have high := Nat.lt_log2_self (n := n)
  have exponent : max (leadingBit n 1 - 52) (-1074) = (n.log2 : Int) - 52 := by
    rw [leadingBit_whole some]
    omega
  unfold nearestDouble at known
  rw [if_neg some, exponent] at known
  obtain ⟨rfl, rfl⟩ := Prod.mk.inj known
  rcases Nat.lt_or_ge 52 n.log2 with large | small
  · obtain ⟨k, more⟩ := Nat.exists_eq_add_of_lt large
    have up : (-((n.log2 : Int) - 52)).toNat = 0 := by omega
    have down : ((n.log2 : Int) - 52).toNat = k + 1 := by omega
    have scaled : roundDiv (n * pow2 0) (1 * pow2 (k + 1)) = roundDiv n (2 ^ (k + 1)) := by
      rw [Nat.one_mul, show pow2 0 = 1 from rfl, Nat.mul_one]
      rfl
    have above : 2 ^ 52 * 2 ^ (k + 1) ≤ n := by
      rw [← Nat.pow_add]
      rwa [more] at low
    have below : n < 2 ^ 53 * 2 ^ (k + 1) := by
      rw [← Nat.pow_add]
      rw [more] at high
      refine high.trans_eq (congrArg (2 ^ ·) ?_)
      omega
    have pos : 0 < 2 ^ (k + 1) := Nat.two_pow_pos _
    rw [up, down, scaled]
    refine ⟨?_, ?_, by omega, Or.inr ⟨by omega, rfl, above, below⟩⟩
    · exact ((Nat.le_div_iff_mul_le pos).mpr above).trans (le_roundDiv n _)
    · rw [roundDiv_le_iff n pos]
      left
      nlinarith
  · obtain ⟨k, more⟩ := Nat.exists_eq_add_of_le small
    have up : (-((n.log2 : Int) - 52)).toNat = k := by omega
    have down : ((n.log2 : Int) - 52).toNat = 0 := by omega
    have exact : roundDiv (n * pow2 k) (1 * pow2 0) = n * 2 ^ k := by
      have exact := roundDiv_mul (n * 2 ^ k) 1 (by decide)
      rwa [Nat.mul_one] at exact
    rw [up, down, exact]
    refine ⟨?_, ?_, by omega, Or.inl ⟨by omega, rfl⟩⟩
    · rw [more, Nat.pow_add]
      exact Nat.mul_le_mul_right _ low
    · have fits : n * 2 ^ k < 2 ^ (n.log2 + 1) * 2 ^ k :=
        Nat.mul_lt_mul_of_pos_right high (Nat.two_pow_pos k)
      rw [← Nat.pow_add, Nat.add_right_comm, ← more] at fits
      exact fits.le

/-- From here on integers round beyond the largest double, `(2 ^ 53 - 1) * 2 ^ 971`: half a unit of
its last digit behind it. -/
@[irreducible]
def tooLargeFrom : Nat := (2 ^ 54 - 1) * pow2 970

theorem pow2_eq_mul {a b c : Nat} (sum : c = a + b) : pow2 c = pow2 a * pow2 b := by
  rw [sum]
  exact Nat.pow_add 2 a b

/-- A multiple of `2 ^ k` to which an integer is rounded, against `2 ^ 54` units.  Only where the
unit is `2 ^ (k - 1)` can rounding up reach the limit. -/
theorem le_rounded_iff {n m k p : Nat} (least : 2 ^ 52 ≤ m) (most : m ≤ 2 ^ 53)
    (same : m = roundDiv n (pow2 k)) (above : 2 ^ 52 * pow2 k ≤ n) (below : n < 2 ^ 53 * pow2 k) :
    2 ^ 54 * pow2 p ≤ m * pow2 k ↔ (2 ^ 54 - 1) * pow2 p ≤ n := by
  rcases Nat.lt_trichotomy k (p + 1) with less | rfl | more
  · have shorter : pow2 k ≤ pow2 p := Nat.pow_le_pow_right (by decide) (by omega)
    have largest : m * pow2 k ≤ 2 ^ 53 * pow2 p := Nat.mul_le_mul most shorter
    have unit : 0 < pow2 p := Nat.two_pow_pos p
    omega
  · have twice : pow2 (p + 1) = 2 * pow2 p := pow2_eq_mul (a := 1) (Nat.add_comm p 1)
    have pos : 0 < pow2 (p + 1) := Nat.two_pow_pos _
    have middle := roundDiv_le_iff n pos (2 ^ 53 - 1)
    rw [← same, twice] at middle
    have unit : 0 < pow2 p := Nat.two_pow_pos p
    rw [twice]
    -- The last digit is odd before the limit, so the middle in front of it is rounded up.
    have reached : 2 ^ 54 * pow2 p ≤ m * (2 * pow2 p) ↔ ¬ m ≤ 2 ^ 53 - 1 := by
      have halves : m * (2 * pow2 p) = (2 * m) * pow2 p := by ring
      rw [halves, Nat.mul_le_mul_right_iff unit]
      omega
    rw [reached, middle]
    omega
  · have longer : 4 * pow2 p ≤ pow2 k := by
      rw [← pow2_eq_mul (a := 2) (Nat.add_comm p 2)]
      exact Nat.pow_le_pow_right (by decide) more
    have least : 2 ^ 52 * (4 * pow2 p) ≤ m * pow2 k := Nat.mul_le_mul least longer
    omega

/-- Whether an integer is rounded to `2 ^ 54` units or more, where a unit is a power of two. -/
theorem le_nearestDouble_iff {n m : Nat} {e : Int} (known : nearestDouble n 1 = (m, e)) (p : Nat) :
    2 ^ 54 * pow2 p ≤ m * pow2 e.toNat ↔ (2 ^ 54 - 1) * pow2 p ≤ n := by
  have unit : 0 < pow2 p := Nat.two_pow_pos p
  have one : pow2 0 = 1 := rfl
  by_cases zero : n = 0
  · rw [zero] at known ⊢
    obtain ⟨rfl, rfl⟩ := eq_of_nearestDouble_zero known
    omega
  obtain ⟨least, most, -, rounded⟩ := bounds_nearestDouble zero known
  rcases rounded with ⟨fine, same⟩ | ⟨coarse, same, above, below⟩
  · have small : n ≤ m := by
      rw [same]
      exact Nat.le_mul_of_pos_right n (Nat.two_pow_pos _)
    rw [Int.toNat_eq_zero.mpr fine, one]
    omega
  · exact le_rounded_iff least most same above below

/-- **Which integers have no double.** -/
theorem exceeds_nearestDouble_iff {n m : Nat} {e : Int} (known : nearestDouble n 1 = (m, e)) :
    exceeds m e = true ↔ tooLargeFrom ≤ n := by
  have limit : pow2 1024 = pow2 54 * pow2 970 := pow2_eq_mul (by decide)
  have digits : pow2 54 = 2 ^ 54 := rfl
  unfold exceeds tooLargeFrom
  rw [decide_eq_true_iff, limit, digits, le_nearestDouble_iff known]

/-! ## Nearest among short multiples -/

/-- A quotient in the middle between two integers is rounded to the even one. -/
theorem even_roundDiv {num den q : Nat} (pos : 0 < den) (tie : 2 * num = (2 * q + 1) * den) :
    roundDiv num den % 2 = 0 := by
  have lower := roundDiv_le_iff num pos q
  have upper := roundDiv_le_iff num pos (q + 1)
  have between : 2 * num < (2 * (q + 1) + 1) * den := by
    rw [tie]
    exact Nat.mul_lt_mul_of_pos_right (by omega) pos
  have reached : roundDiv num den ≤ q + 1 := upper.mpr (Or.inl between)
  have kept : roundDiv num den ≤ q ↔ q % 2 = 0 := by
    rw [lower, tie]
    simp
  by_cases even : q % 2 = 0
  · have below : ¬ roundDiv num den ≤ q - 1 ∨ q = 0 := by
      by_cases zero : q = 0
      · exact Or.inr zero
      · left
        rw [roundDiv_le_iff num pos (q - 1), tie, not_or]
        have smaller : (2 * (q - 1) + 1) * den < (2 * q + 1) * den :=
          Nat.mul_lt_mul_of_pos_right (by omega) pos
        omega
    have least := kept.mpr even
    omega
  · have beyond : ¬ roundDiv num den ≤ q := fun least => even (kept.mp least)
    omega

/-- The multiple of a number to which another is rounded is the nearest; where two multiples are
equally near, it is the even one. -/
theorem nearest_multiple (n : Nat) {den : Nat} (pos : 0 < den) (i : ℤ) :
    |(roundDiv n den : ℚ) * den - n| ≤ |(i : ℚ) * den - n| ∧
      (|(i : ℚ) * den - n| = |(roundDiv n den : ℚ) * den - n| → (i : ℚ) ≠ roundDiv n den →
        roundDiv n den % 2 = 0) := by
  obtain ⟨below, above⟩ := roundDiv_near n den pos
  have even (q : ℕ) (tie : (2 * n : ℚ) = (2 * q + 1) * den) : roundDiv n den % 2 = 0 :=
    even_roundDiv pos (by exact_mod_cast tie)
  generalize roundDiv n den = m at *
  replace below : 2 * ((m : ℚ) * den) ≤ 2 * n + den := by exact_mod_cast below
  replace above : 2 * (n : ℚ) ≤ 2 * (m * den) + den := by exact_mod_cast above
  replace pos : (0 : ℚ) < den := by exact_mod_cast pos
  rcases lt_trichotomy i m with less | rfl | more
  · have apart : (i : ℚ) * den ≤ m * den - den := by
      have before : (i : ℚ) + 1 ≤ m := by exact_mod_cast less
      nlinarith
    have distance : |(i : ℚ) * den - n| = n - i * den := by
      rw [abs_sub_comm, abs_of_nonneg (by linarith)]
    rw [distance]
    refine ⟨abs_le.mpr ⟨by linarith, by linarith⟩, fun equal _ => ?_⟩
    have tie : (2 * n : ℚ) = 2 * (m * den) - den := by
      rcases abs_cases ((m : ℚ) * den - n) with ⟨same, -⟩ | ⟨same, -⟩ <;> linarith
    cases m with
    | zero => rfl
    | succ q =>
      refine even q ?_
      push_cast at tie
      linarith
  · exact ⟨le_rfl, fun _ other => absurd rfl other⟩
  · have apart : (m : ℚ) * den + den ≤ i * den := by
      have behind : (m : ℚ) + 1 ≤ i := by exact_mod_cast more
      nlinarith
    have distance : |(i : ℚ) * den - n| = i * den - n := abs_of_nonneg (by linarith)
    rw [distance]
    refine ⟨abs_le.mpr ⟨by linarith, by linarith⟩, fun equal _ => ?_⟩
    have tie : (2 * n : ℚ) = 2 * (m * den) + den := by
      rcases abs_cases ((m : ℚ) * den - n) with ⟨same, -⟩ | ⟨same, -⟩ <;> linarith
    exact even m (by linarith)

/-- The value of a machine number is a short multiple of a power of two. -/
def IsShort (v : ℚ) : Prop := ∃ (j f : ℤ), v = j * 2 ^ f ∧ |j| < 2 ^ 53

theorem IsShort.neg {v : ℚ} (short : IsShort v) : IsShort (-v) := by
  obtain ⟨j, f, rfl, small⟩ := short
  exact ⟨-j, f, by push_cast; ring, by rwa [abs_neg]⟩

/-- A short multiple of a power of two is a multiple of any other, or smaller than `2 ^ 52` times
that. -/
theorem IsShort.multiple_or_lt {v : ℚ} (short : IsShort v) (e : ℤ) :
    (∃ i : ℤ, v = i * 2 ^ e) ∨ v < 2 ^ 52 * 2 ^ e := by
  obtain ⟨j, f, rfl, small⟩ := short
  rcases le_or_gt e f with multiple | finer
  · obtain ⟨d, rfl⟩ := Int.le.dest multiple
    refine Or.inl ⟨j * 2 ^ d, ?_⟩
    rw [zpow_add₀ two_ne_zero, zpow_natCast]
    push_cast
    ring
  · right
    have digits : (j : ℚ) < 2 ^ 53 := by exact_mod_cast (abs_lt.mp small).2
    calc (j : ℚ) * 2 ^ f < 2 ^ 53 * 2 ^ f := mul_lt_mul_of_pos_right digits (by positivity)
      _ ≤ 2 ^ 53 * 2 ^ (e - 1) := by
        gcongr
        · exact one_le_two
        · omega
      _ = 2 ^ 52 * 2 ^ e := by
        rw [zpow_sub_one₀ two_ne_zero]
        ring

/-- The value of a finite machine number is short. -/
theorem isShort_of_isFinite {x : Float} (finite : x.isFinite = true) :
    IsShort (Double.ofFloat x).toRat := by
  obtain ⟨m, e, size⟩ := isFinite_iff_size.mp finite
  have digits := mantissa_lt_of_size size
  have short : IsShort ((m : ℚ) * 2 ^ e) := by
    refine ⟨m, e, by norm_num, ?_⟩
    rw [abs_of_nonneg (by omega)]
    exact_mod_cast digits
  rw [toRat_of_size size]
  split
  · rw [neg_one_mul]
    exact short.neg
  · rwa [one_mul]

/-- **An integer is rounded to the nearest short multiple of a power of two.** -/
theorem nearest_short {n m : Nat} {e : Int} (known : nearestDouble n 1 = (m, e)) {v : ℚ}
    (short : IsShort v) :
    |(m : ℚ) * 2 ^ e - n| ≤ |v - n| ∧
      (|v - n| = |(m : ℚ) * 2 ^ e - n| → v ≠ m * 2 ^ e → m % 2 = 0) := by
  have unchanged (exact : (m : ℚ) * 2 ^ e = n) : |(m : ℚ) * 2 ^ e - n| ≤ |v - n| ∧
      (|v - n| = |(m : ℚ) * 2 ^ e - n| → v ≠ m * 2 ^ e → m % 2 = 0) := by
    rw [exact, sub_self, abs_zero]
    refine ⟨abs_nonneg _, fun equal other => ?_⟩
    exact absurd (sub_eq_zero.mp (abs_eq_zero.mp equal)) other
  by_cases zero : n = 0
  · apply unchanged
    rw [zero] at known ⊢
    obtain ⟨rfl, rfl⟩ := eq_of_nearestDouble_zero known
    simp
  obtain ⟨least, most, -, rounded⟩ := bounds_nearestDouble zero known
  rcases rounded with ⟨fine, same⟩ | ⟨coarse, same, above, below⟩
  · apply unchanged
    have up : (2 : ℚ) ^ (-e).toNat = 2 ^ (-e) := by
      rw [← zpow_natCast, Int.toNat_of_nonneg (by omega)]
    rw [same, Nat.cast_mul, Nat.cast_pow, Nat.cast_ofNat, up, mul_assoc,
      ← zpow_add₀ two_ne_zero, neg_add_cancel, zpow_zero, mul_one]
  · have unit : ((2 ^ e.toNat : Nat) : ℚ) = 2 ^ e := by
      rw [Nat.cast_pow, Nat.cast_ofNat, ← zpow_natCast, Int.toNat_of_nonneg coarse.le]
    have nearest (i : ℤ) := nearest_multiple n (Nat.two_pow_pos e.toNat) i
    rw [← same, unit] at nearest
    rcases short.multiple_or_lt e with ⟨i, rfl⟩ | lower
    · refine ⟨(nearest i).1, fun equal other => (nearest i).2 equal fun same => other ?_⟩
      rw [same]
    · -- The least number with the leading digit of `n` lies between `v` and `n`.
      have within : (2 : ℚ) ^ 52 * 2 ^ e ≤ n := by
        rw [← unit]
        exact_mod_cast above
      have nearer := (nearest (2 ^ 52)).1
      have inside : |((2 ^ 52 : ℤ) : ℚ) * 2 ^ e - n| = n - 2 ^ 52 * 2 ^ e := by
        rw [Int.cast_pow, Int.cast_ofNat, abs_sub_comm, abs_of_nonneg (by linarith)]
      have outside : |v - n| = n - v := by rw [abs_sub_comm, abs_of_nonneg (by linarith)]
      rw [inside] at nearer
      rw [outside]
      exact ⟨by linarith, fun equal => by linarith⟩

/-! ## The machine number of an integer -/

/-- A machine number that a number is rounded to: no finite one is nearer, and if another is equally
near, its own last digit is even. -/
structure IsNearest (x : Float) (q : ℚ) : Prop where
  finite : x.isFinite = true
  near : ∀ y : Float, y.isFinite = true →
    |(Double.ofFloat x).toRat - q| ≤ |(Double.ofFloat y).toRat - q|
  even : ∀ y : Float, y.isFinite = true →
    |(Double.ofFloat y).toRat - q| = |(Double.ofFloat x).toRat - q| →
      (Double.ofFloat y).toRat ≠ (Double.ofFloat x).toRat →
        ∃ m e, (Double.ofFloat x).size = .finite m e ∧ m % 2 = 0

theorem exceeds_of_le {m a b : Nat} {e : Int} (digits : pow2 a ≤ m) (exponent : b ≤ e.toNat)
    (sum : 1024 = a + b) : exceeds m e = true := by
  unfold exceeds
  rw [decide_eq_true_iff, pow2_eq_mul sum]
  exact Nat.mul_le_mul digits (Nat.pow_le_pow_right (by decide) exponent)

/-- The machine number of an integer has the value to which the integer is rounded. -/
theorem exists_ofFloat_ofInt {n : Int} {x : Float} (known : ofInt n = some x) :
    ∃ m e m' e', nearestDouble n.natAbs 1 = (m, e) ∧
      Double.ofFloat x = ⟨decide (n < 0), .finite m' e'⟩ ∧ (m' : ℚ) * 2 ^ e' = m * 2 ^ e ∧
        (m % 2 = 0 → m' % 2 = 0) := by
  obtain ⟨⟨m, e⟩, rounded⟩ : ∃ p, nearestDouble n.natAbs 1 = p := ⟨_, rfl⟩
  refine ⟨m, e, ?_⟩
  have size : pow2 52 = 2 ^ 52 := rfl
  unfold ofInt ofFraction at known
  rw [rounded] at known
  dsimp only at known
  by_cases beyond : exceeds m e = true
  · rw [if_pos beyond] at known
    cases known
  rw [if_neg beyond, if_neg beyond] at known
  obtain rfl := Option.some.inj known
  by_cases zero : n.natAbs = 0
  · rw [zero] at rounded
    obtain ⟨rfl, rfl⟩ := eq_of_nearestDouble_zero rounded
    have fields := ofFloat_fields (decide (n < 0)) (by decide : 0 < 2047) (by decide : 0 < 2 ^ 52)
    exact ⟨0, -1074, by rw [zero]; rfl, fields, rfl, id⟩
  obtain ⟨least, most, fine, -⟩ := bounds_nearestDouble zero rounded
  by_cases carried : m = 2 ^ 53
  · have small : ¬ 971 ≤ e.toNat := fun large =>
      beyond (exceeds_of_le (a := 53) carried.ge large (by decide))
    have fields := ofFloat_fields (decide (n < 0)) (by omega : (e + 1076).toNat < 2047)
      (by decide : 0 < 2 ^ 52)
    have shifted : (e + 1076).toNat * pow2 52 + 0 = (e + 1074).toNat * pow2 52 + m := by
      rw [size]
      omega
    have normal : (e + 1076).toNat ≠ 0 := by omega
    have exponent : ((e + 1076).toNat : Int) - 1075 = e + 1 := by omega
    rw [shifted, if_neg normal, exponent, size] at fields
    refine ⟨2 ^ 52, e + 1, rounded, fields, ?_, fun _ => by decide⟩
    rw [carried, zpow_add_one₀ two_ne_zero]
    push_cast
    ring
  · have small : ¬ 972 ≤ e.toNat := fun large =>
      beyond (exceeds_of_le (a := 52) least large (by decide))
    have fields := ofFloat_fields (decide (n < 0)) (by omega : (e + 1075).toNat < 2047)
      (by omega : m - 2 ^ 52 < 2 ^ 52)
    have shifted : (e + 1075).toNat * pow2 52 + (m - 2 ^ 52) = (e + 1074).toNat * pow2 52 + m := by
      rw [size]
      omega
    have normal : (e + 1075).toNat ≠ 0 := by omega
    have exponent : ((e + 1075).toNat : Int) - 1075 = e := by omega
    have whole : pow2 52 + (m - 2 ^ 52) = m := by
      rw [size]
      omega
    rw [shifted, if_neg normal, exponent, whole] at fields
    exact ⟨m, e, rounded, fields, rfl, id⟩

/-- The value of the machine number of an integer. -/
theorem exists_toRat_ofInt {n : Int} {x : Float} (known : ofInt n = some x) :
    ∃ m e, nearestDouble n.natAbs 1 = (m, e) ∧
      (Double.ofFloat x).toRat = (if n < 0 then -1 else 1) * (m * 2 ^ e) ∧
      ∃ m' e', (Double.ofFloat x).size = .finite m' e' ∧ (m % 2 = 0 → m' % 2 = 0) := by
  obtain ⟨m, e, m', e', rounded, here, same, even⟩ := exists_ofFloat_ofInt known
  have size : (Double.ofFloat x).size = .finite m' e' := by rw [here]
  have sign : (Double.ofFloat x).negative = decide (n < 0) := by rw [here]
  refine ⟨m, e, rounded, ?_, m', e', size, even⟩
  rw [toRat_of_size size, sign, same]
  simp only [decide_eq_true_eq]

/-- **Which integers have no machine number.** -/
theorem ofInt_eq_none_iff {n : Int} : ofInt n = none ↔ tooLargeFrom ≤ n.natAbs := by
  obtain ⟨⟨m, e⟩, rounded⟩ : ∃ p, nearestDouble n.natAbs 1 = p := ⟨_, rfl⟩
  rw [← exceeds_nearestDouble_iff rounded]
  unfold ofInt
  rw [rounded]
  dsimp only
  generalize exceeds m e = beyond
  cases beyond <;> simp

/-- **The machine number of an integer is the nearest.** -/
theorem isNearest_ofInt {n : Int} {x : Float} (known : ofInt n = some x) : IsNearest x n := by
  obtain ⟨m, e, rounded, value, m', e', size, even⟩ := exists_toRat_ofInt known
  have nearest {v : ℚ} (short : IsShort v) :
      |(Double.ofFloat x).toRat - n| ≤ |v - n| ∧
        (|v - n| = |(Double.ofFloat x).toRat - n| → v ≠ (Double.ofFloat x).toRat →
          m % 2 = 0) := by
    by_cases below : n < 0
    · -- Rounding looks at the size only, so everything is turned around.
      have turned (a b : ℚ) : |-a - b| = |a - -b| := by
        rw [sub_neg_eq_add, ← neg_add', abs_neg]
      have whole : -(n.natAbs : ℚ) = n := by
        rw [Nat.cast_natAbs, abs_of_neg below, Int.cast_neg, neg_neg]
      have opposite : (m : ℚ) * 2 ^ e = -(Double.ofFloat x).toRat := by simp [value, below]
      obtain ⟨near, tie⟩ := nearest_short rounded short.neg
      rw [opposite, turned, turned, whole] at near tie
      exact ⟨near, fun equal other => tie equal (neg_injective.ne other)⟩
    · have whole : (n.natAbs : ℚ) = n := by rw [Nat.cast_natAbs, abs_of_nonneg (by omega)]
      have upright : (m : ℚ) * 2 ^ e = (Double.ofFloat x).toRat := by simp [value, below]
      have near := nearest_short rounded short
      rwa [upright, whole] at near
  refine ⟨isFinite_iff_size.mpr ⟨m', e', size⟩, fun y finite => ?_, fun y finite equal other => ?_⟩
  · exact (nearest (isShort_of_isFinite finite)).1
  · exact ⟨m', e', size, even ((nearest (isShort_of_isFinite finite)).2 equal other)⟩

/-- The machine number of an integer is above zero if the integer is. -/
theorem zero_lt_ofInt_iff {n : Int} {x : Float} (known : ofInt n = some x) : 0 < x ↔ 0 < n := by
  obtain ⟨m, e, rounded, value, m', e', size, -⟩ := exists_toRat_ofInt known
  have power : (0 : ℚ) < 2 ^ e := by positivity
  rw [zero_lt_iff_toRat (isFinite_iff_size.mpr ⟨m', e', size⟩), value]
  rcases lt_trichotomy n 0 with below | zero | above
  · have some : (0 : ℚ) ≤ m * 2 ^ e := by positivity
    rw [if_pos below]
    exact iff_of_false (by linarith) (by omega)
  · rw [zero] at rounded ⊢
    obtain ⟨rfl, rfl⟩ := eq_of_nearestDouble_zero rounded
    simp
  · obtain ⟨least, -⟩ := bounds_nearestDouble (by omega : n.natAbs ≠ 0) rounded
    have some : (0 : ℚ) < m := by exact_mod_cast (by omega : 0 < m)
    rw [if_neg (by omega), one_mul]
    exact iff_of_true (by positivity) above

end Decimal

end Keysong
