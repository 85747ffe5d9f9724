import Leasehold.Time.Budget

/-!
# Readings of a clock

The elapsed time never goes back (`Leasehold.Clock.elapsed_le_elapsed_read`), and that is all there
is to say about it: any spans in ascending order are what some clock shows, one reading after
another (`Leasehold.Clock.readings_ofReadings`). A clock whose readings cost nothing stays as it is
(`Leasehold.Clock.read_of_idle`).

A budget compares what has passed with what it allows. It does so by a truncated difference, and is
right about it as long as the clock has not gone back (`Leasehold.Budget.wasOver_check_iff`).
-/

namespace Leasehold.Clock

variable {c : Clock}

theorem elapsed_le_elapsed_read (c : Clock) : c.elapsed ≤ c.read.2.elapsed :=
  c.elapsed_le_elapsed_advance _

/-- Nothing happens to a clock in no time. -/
theorem advance_zero (c : Clock) : c.advance Span.zero = c := by
  have hwall : c.wall + Span.zero = c.wall := by
    ext
    have hle := c.wall.nanos_le
    simp only [Instant.nanos_add, Span.zero, Instant.last]
    omega
  have helapsed : c.elapsed + Span.zero = c.elapsed := by
    ext
    have hlt := c.elapsed.nanos_lt
    simp only [Span.nanos_add, Span.zero, Span.longest]
    omega
  simp only [advance, hwall, helapsed]

/-- Reading a clock whose readings cost nothing. -/
theorem read_of_idle (hcosts : c.costs = []) (htick : c.tick = Span.zero) :
    c.read = (c.elapsed, c) := by
  have hadvance := c.advance_zero
  rw [read, hcosts, htick, List.headD_nil, hadvance, List.tail_nil, ← hcosts]

/-! ### Any ascending readings are those of a clock -/

/-- The first readings of a clock. -/
def readings : Nat → Clock → List Span
  | 0, _ => []
  | n + 1, c => c.read.1 :: readings n c.read.2

/-- What lies between neighbouring spans. -/
def gaps : List Span → List Span
  | d :: e :: ds => (e - d) :: gaps (e :: ds)
  | _ => []

/-- **A clock with some readings**, one after another. -/
def ofReadings (wall : Instant) (ds : List Span) : Clock :=
  { wall, elapsed := ds.headD Span.zero, costs := gaps ds }

theorem readings_of_gaps {d : Span} {ds : List Span} (h : (d :: ds).Pairwise (· ≤ ·))
    (helapsed : c.elapsed = d) (hcosts : c.costs = gaps (d :: ds)) :
    readings (ds.length + 1) c = d :: ds := by
  induction ds generalizing d c with
  | nil => simp [readings, read, helapsed]
  | cons e ds ih =>
    obtain ⟨hd, hds⟩ := List.pairwise_cons.1 h
    have hde := Span.le_def.1 (hd e List.mem_cons_self)
    have hlt := e.nanos_lt
    -- The gap leads from one reading to the next, and stays within the longest span.
    have hnext : c.read.2.elapsed = e := by
      ext
      simp only [read, advance, hcosts, gaps, List.headD_cons, helapsed, Span.nanos_add,
        Span.nanos_sub, Span.longest]
      omega
    have hrest : c.read.2.costs = gaps (e :: ds) := by
      simp only [read, hcosts, gaps, List.tail_cons]
    have hih := ih hds hnext hrest
    rw [List.length_cons, readings, hih]
    exact congrArg (· :: e :: ds) helapsed

/-- **Any spans in ascending order are the readings of a clock.** -/
theorem readings_ofReadings (wall : Instant) {ds : List Span} (h : ds.Pairwise (· ≤ ·)) :
    readings ds.length (ofReadings wall ds) = ds := by
  cases ds with
  | nil => rfl
  | cons d ds => exact readings_of_gaps h rfl rfl

end Leasehold.Clock

namespace Leasehold

/-- **A budget has run out** when as much time has passed as it allows, and not before. -/
theorem Budget.wasOver_check_iff {allowed : Span} {c c' : Clock}
    (hle : (Budget.begin allowed c).2.elapsed ≤ c'.elapsed) :
    ((Budget.begin allowed c).1.check c').1.wasOver = true ↔
      c.elapsed.nanos + allowed.nanos ≤ c'.elapsed.nanos := by
  have hbegin : c.elapsed ≤ (Budget.begin allowed c).2.elapsed := c.elapsed_le_elapsed_read
  have hcheck : ((Budget.begin allowed c).1.check c').1.wasOver =
      decide (allowed ≤ c'.elapsed - c.elapsed) := rfl
  rw [Span.le_def] at hle hbegin
  rw [hcheck, decide_eq_true_eq, Span.le_def, Span.nanos_sub]
  omega

end Leasehold
