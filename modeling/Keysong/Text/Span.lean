/-!
# Spans of code points

A property of characters is written down as a table of spans: runs of code points with a fixed
step.  Alphabets that alternate between capital and small letters are runs of step two, which
keeps the tables short.

## Main Definitions

* `Span` — one run, from `first` to `last` in steps of `step`
* `Span.holds` — whether a code point lies on the run
* `Span.anyHolds` — whether it lies on some run of a table
-/

namespace Keysong.Text

/-- The code points `first`, `first + step`, … up to `last`. -/
structure Span where
  first : Nat
  last : Nat
  step : Nat
  deriving Repr, DecidableEq

namespace Span

/-- The run of all code points from `first` to `last`. -/
def solid (first last : Nat) : Span := ⟨first, last, 1⟩

/-- Whether a code point lies on the run. -/
def holds (s : Span) (n : Nat) : Bool :=
  decide (s.first ≤ n) && decide (n ≤ s.last) && (n - s.first) % s.step == 0

/-- Whether a code point lies on one of the runs of a table. -/
def anyHolds (table : List Span) (n : Nat) : Bool :=
  table.any (·.holds n)

end Span

end Keysong.Text
