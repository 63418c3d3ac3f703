import Keysong.Proofs.Operations
import Mathlib.Algebra.Order.Ring.Rat
import Mathlib.Order.Defs.LinearOrder

/-!
# The order of a queue

A queue is kept in the order in which its signals go out.  Inserting finds the place of a signal by
comparisons that are computed; this module says what they compare, and that they leave the queue in
order.

## Main Definitions

* `OrderedQuantity` — quantities whose comparisons are those of a linear order
* `Signal.Precedes` — the order: by time, releases before strikes, then by arrival
* `IsTidy` — a queue in order whose serial numbers were all given out

## Main Statements

* `before_iff_precedes` — the comparison decides the order
* `pairwise_enqueue`, `pairwise_enqueueAll` — a queue stays in order when signals are put into it
* `isTidy_enqueue` — and tidy, if the signal has the next serial number

### Equal signals

No two signals of a queue have one serial number, and that is why the order is total on a queue
though it does not look at notes.
-/

namespace Keysong

/-- Quantities whose comparisons are those of a linear order. -/
class OrderedQuantity (τ : Type) extends Quantity τ, LinearOrder τ where
  beq_iff_eq (a b : τ) : (a == b) = true ↔ a = b

instance : OrderedQuantity Rat where
  toQuantity := inferInstance
  __ := (inferInstance : LinearOrder Rat)
  beq_iff_eq _ _ := beq_iff_eq

namespace Instrument

/-- Whether a signal goes out before another one: by time, releases before strikes at the same time,
then by arrival. -/
def Signal.Precedes {τ : Type} [Quantity τ] (a b : Signal τ) : Prop :=
  a.time < b.time ∨ a.time = b.time ∧
    (a.isStrike = false ∧ b.isStrike = true ∨ a.isStrike = b.isStrike ∧ a.serial < b.serial)

/-- A queue in order, and a counter beyond its serial numbers. -/
structure IsTidy {τ : Type} [Quantity τ] (queue : List (Signal τ)) (counter : Nat) : Prop where
  sorted : queue.Pairwise Signal.Precedes
  numbered : ∀ t ∈ queue, t.serial < counter

variable {τ : Type} [OrderedQuantity τ]

theorem before_iff_precedes (a b : Signal τ) : a.before b = true ↔ a.Precedes b := by
  unfold Signal.before Signal.Precedes
  rw [Bool.or_eq_true, Bool.and_eq_true, decide_eq_true_iff, OrderedQuantity.beq_iff_eq]
  cases a.isStrike <;> cases b.isStrike <;> simp

theorem Signal.Precedes.trans {a b c : Signal τ} (first : a.Precedes b) (second : b.Precedes c) :
    a.Precedes c := by
  rcases first with earlier | ⟨same, first⟩
  · rcases second with earlier' | ⟨same', -⟩
    · exact Or.inl (earlier.trans earlier')
    · exact Or.inl (same' ▸ earlier)
  · rcases second with earlier' | ⟨same', second⟩
    · exact Or.inl (same ▸ earlier')
    · refine Or.inr ⟨same.trans same', ?_⟩
      rcases first with ⟨release, strike⟩ | ⟨alike, less⟩
      · rcases second with ⟨release', -⟩ | ⟨alike', -⟩
        · rw [strike] at release'
          cases release'
        · exact Or.inl ⟨release, alike' ▸ strike⟩
      · rcases second with ⟨release', strike'⟩ | ⟨alike', less'⟩
        · exact Or.inl ⟨alike.trans release', strike'⟩
        · exact Or.inr ⟨alike.trans alike', less.trans less'⟩

/-- Of two signals with different serial numbers one precedes the other. -/
theorem precedes_of_not_precedes {a b : Signal τ} (other : b.serial ≠ a.serial)
    (not : ¬ a.Precedes b) : b.Precedes a := by
  unfold Signal.Precedes at not ⊢
  rcases lt_trichotomy a.time b.time with earlier | same | later
  · exact absurd (Or.inl earlier) not
  · have rest := fun h => not (Or.inr ⟨same, h⟩)
    refine Or.inr ⟨same.symm, ?_⟩
    cases kind : a.isStrike <;> cases kind' : b.isStrike <;> simp_all <;> omega
  · exact Or.inl later

/-- **A queue stays in order when a signal is put into it** whose serial number is new. -/
theorem pairwise_enqueue {s : Signal τ} {queue : List (Signal τ)}
    (fresh : ∀ t ∈ queue, t.serial ≠ s.serial) (sorted : queue.Pairwise Signal.Precedes) :
    (enqueue s queue).Pairwise Signal.Precedes := by
  induction queue with
  | nil => exact List.pairwise_singleton _ s
  | cons first rest ih =>
    obtain ⟨least, sorted'⟩ := List.pairwise_cons.mp sorted
    unfold enqueue
    split
    · rename_i ahead
      have ahead : s.Precedes first := (before_iff_precedes s first).mp ahead
      refine List.pairwise_cons.mpr ⟨fun t mem => ?_, sorted⟩
      rcases List.mem_cons.mp mem with rfl | mem
      · exact ahead
      · exact ahead.trans (least t mem)
    · rename_i notAhead
      have behind : first.Precedes s :=
        precedes_of_not_precedes (fresh first List.mem_cons_self)
          fun ahead => notAhead ((before_iff_precedes s first).mpr ahead)
      refine List.pairwise_cons.mpr
        ⟨fun t mem => ?_, ih (fun t mem => fresh t (List.mem_cons_of_mem first mem)) sorted'⟩
      rcases List.mem_cons.mp ((perm_enqueue s rest).mem_iff.mp mem) with rfl | mem
      · exact behind
      · exact least t mem

/-- A queue stays in order when a row of signals is put into it whose serial numbers are new. -/
theorem pairwise_enqueueAll {signals queue : List (Signal τ)}
    (distinct : (signals.map Signal.serial).Nodup)
    (fresh : ∀ s ∈ signals, ∀ t ∈ queue, t.serial ≠ s.serial)
    (sorted : queue.Pairwise Signal.Precedes) :
    (enqueueAll signals queue).Pairwise Signal.Precedes := by
  induction signals generalizing queue with
  | nil => exact sorted
  | cons s rest ih =>
    obtain ⟨unseen, distinct'⟩ := List.nodup_cons.mp distinct
    refine ih distinct' (fun r mem t inside => ?_)
      (pairwise_enqueue (fresh s List.mem_cons_self) sorted)
    rcases List.mem_cons.mp ((perm_enqueue s queue).mem_iff.mp inside) with rfl | inside
    · intro same
      exact unseen (List.mem_map.mpr ⟨r, mem, same.symm⟩)
    · exact fresh r (List.mem_cons_of_mem s mem) t inside

/-- A queue stays tidy when the next signal is put into it. -/
theorem isTidy_enqueue {s : Signal τ} {queue : List (Signal τ)} (tidy : IsTidy queue s.serial) :
    IsTidy (enqueue s queue) (s.serial + 1) where
  sorted := pairwise_enqueue (fun t mem => (tidy.numbered t mem).ne) tidy.sorted
  numbered t mem := by
    rcases List.mem_cons.mp ((perm_enqueue s queue).mem_iff.mp mem) with rfl | mem
    · exact Nat.lt_succ_self t.serial
    · exact (tidy.numbered t mem).trans (Nat.lt_succ_self s.serial)

/-- Serial numbers that are used up for nothing do no harm. -/
theorem IsTidy.mono {queue : List (Signal τ)} {counter counter' : Nat} (tidy : IsTidy queue counter)
    (more : counter ≤ counter') : IsTidy queue counter' where
  sorted := tidy.sorted
  numbered t mem := Nat.lt_of_lt_of_le (tidy.numbered t mem) more

/-- What is left of a tidy queue is tidy. -/
theorem IsTidy.sublist {queue left : List (Signal τ)} {counter : Nat} (tidy : IsTidy queue counter)
    (sub : List.Sublist left queue) : IsTidy left counter where
  sorted := tidy.sorted.sublist sub
  numbered t mem := tidy.numbered t (sub.subset mem)

end Instrument

end Keysong
