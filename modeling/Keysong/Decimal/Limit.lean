import Keysong.Decimal.Binary

/-!
# The length of written integers

Integers are neither read nor written beyond a number of decimal digits.  The limit keeps the time
for a conversion in bounds; integers themselves may be of any size.

## Main Definitions

* `digitLimit` — the most digits of an integer that is read or written
* `isWritable` — whether an integer stays within the limit
-/

namespace Keysong.Decimal

/-- The most digits that an integer may be written with. -/
def digitLimit : Nat := 4300

/-- The least number with more digits than that. -/
def unwritableFrom : Nat := pow10 digitLimit

/-- Whether an integer can be written; its sign does not count. -/
def isWritable (n : Int) : Bool := decide (n.natAbs < unwritableFrom)

/-- An integer can be written if it is no larger than the number of digits allowed. -/
theorem isWritable_of_natAbs_le {n : Int} (small : n.natAbs ≤ digitLimit) :
    isWritable n = true := by
  have power (k : Nat) : k < pow10 k := Nat.lt_pow_self (by decide)
  unfold isWritable unwritableFrom
  rw [decide_eq_true_iff]
  exact Nat.lt_of_le_of_lt small (power digitLimit)

end Keysong.Decimal
