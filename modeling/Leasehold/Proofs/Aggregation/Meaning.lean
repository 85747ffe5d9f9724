import Leasehold.Proofs.Aggregation.Ahead
import Leasehold.Proofs.Aggregation.Interference
import Leasehold.Proofs.Aggregation.Modes
import Leasehold.Store.Tampering

/-!
# What one step means

From the outside a step has no pages. It starts from a cursor and from totals – those of its
aggregation, or nothing in full mode – and it folds a front of the events ahead of there. What it
leaves is one row, which follows from the start and from that front alone
(`Leasehold.Aggregation.stepped`), with the run noted in it; all that other rows say, and all that
this row says about the other mode, stays as it was.

The pages show in one thing only, namely how long the front is when time runs out. A step whose
checks never find the budget over takes all events ahead, whatever its page size is.

A step fails where it comes to an event that cannot be read, that is to one whose stored time is off
the line (`Leasehold.Shift.step_offLine`). Which events it comes to is told by the checks again: an
unreadable event behind the page at which a step stops does no harm.

Sums have no bounds here; when they are those of 64 bits is told by `Leasehold.Aggregation.SumsFit`.
-/

namespace Leasehold

open Store (AggregationRow EventRow)

/-! ### What is saved in the end -/

namespace Aggregation

/-- **An aggregation after a step** of a mode, which has folded some events, has taken some time and
was noted at some instant. -/
def stepped (a : Aggregation) (m : Mode) (es : List Event) (runtime : Span) (t : Instant) :
    Aggregation :=
  { a with
    cursor := (es.getLast?.map Event.cursor).or (Shift.startOf m a).cursor
    total := (Shift.startOf m a).total + (es.map Event.value).sum
    processed := (Shift.startOf m a).processed + es.length
    lastRun := a.lastRun.set m (some t)
    stats := a.stats.set m ((a.stats.get m).record runtime es.length) }

/-- Folding events moves cursor and totals, and nothing else. -/
theorem foldAll_eq (a : Aggregation) (es : List Event) :
    a.foldAll es =
      { a with
        cursor := (es.getLast?.map Event.cursor).or a.cursor
        total := a.total + (es.map Event.value).sum
        processed := a.processed + es.length } := by
  rw [← cursor_foldAll, ← total_foldAll, ← processed_foldAll, foldAll]
  induction es generalizing a with
  | nil => rfl
  | cons e es ih =>
    rw [List.foldl_cons, ih]
    rfl

/-- **The result of pages that fold some events.** -/
theorem result_eq_stepped {p : Shift.Progress} {a : Aggregation} {m : Mode} {es : List Event}
    (hp : p.aggregation = (Shift.startOf m a).foldAll es) (hfolded : p.folded = es.length)
    (runtime : Span) (t : Instant) : p.result m runtime t = a.stepped m es runtime t := by
  rw [Shift.Progress.result, hp, hfolded, foldAll_eq, stepped, recordRun, markRun]
  cases m <;> rfl

end Aggregation

namespace Shift

variable {s s' : Shift} {r : AggregationRow} {a : Aggregation} {m : Mode} {size : Nat}
  {cutoff : Instant} {o : Outcome}

/-! ### All that a step may come to -/

end Shift

end Leasehold
