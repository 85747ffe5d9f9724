import Leasehold.Time.Clock

/-!
# Runtime budgets

A budget allows a job some elapsed time. It never interrupts the job: the job asks between two
units of work whether the budget has run out, and stops by itself when it has. The budget
remembers the last answer, so that a report can repeat it without another look at the clock.

* `Leasehold.Budget.start` – the budget begins with a reading of the clock;
* `Leasehold.Budget.check` – whether as much time passed as was allowed;
* `Leasehold.Budget.usage` – what a report says about it.
-/

namespace Leasehold

/-- **A runtime budget** that began at some elapsed time. -/
structure Budget where
  /-- The elapsed time at which the budget began. -/
  start : Span
  /-- How much time it allows. -/
  allowed : Span
  /-- The answer of the last check, negative before the first. -/
  wasOver : Bool := false
deriving DecidableEq

namespace Budget

/-- The budget of a job that names none: two hundred seconds. -/
def defaultAllowed : Span := .ofSeconds 200

/-- A budget begins now. -/
def begin (allowed : Span) (c : Clock) : Budget × Clock :=
  let (start, c) := c.read
  ({ start, allowed }, c)

/-- The time since the budget began. -/
def elapsed (b : Budget) (c : Clock) : Span × Clock :=
  let (reading, c) := c.read
  (reading - b.start, c)

/-- **Whether the budget has run out**, which is so once the elapsed time reaches what was
allowed. The budget remembers the answer. -/
def check (b : Budget) (c : Clock) : Budget × Clock :=
  let (spent, c) := b.elapsed c
  ({ b with wasOver := b.allowed ≤ spent }, c)

/-- What a report says about a budget: the seconds spent and allowed, and the last answer. -/
structure Usage where
  /-- The time since the budget began, in seconds. -/
  elapsedSeconds : Float
  /-- The time the budget allows, in seconds. -/
  allowedSeconds : Float
  /-- The answer of the last check. -/
  overTime : Bool

/-- The usage of a budget, by one more reading of the clock. -/
def usage (b : Budget) (c : Clock) : Usage × Clock :=
  let (spent, c) := b.elapsed c
  (⟨spent.toSeconds, b.allowed.toSeconds, b.wasOver⟩, c)

end Budget

end Leasehold
