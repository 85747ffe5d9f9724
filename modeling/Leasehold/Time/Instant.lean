import Leasehold.Time.Span

/-!
# Instants

An instant is a point on the time line, counted in nanoseconds since the start of 1970 in
Coordinated Universal Time. The line is bounded: it runs from the start of the year −262143 to
the last nanosecond of the year 262142, and a sum that would leave it stops at its end.

What is stored keeps whole **milliseconds**:

* `Leasehold.Instant.millis` – the millisecond an instant lies in, rounding down;
* `Leasehold.Instant.ofMillis?` – the first instant of a millisecond, absent off the line.

Rounding down never leaves the line (`Leasehold.Instant.ofMillis?_millis`), so what was stored
can always be read back.
-/

namespace Leasehold

/-- **An instant**: nanoseconds since the start of 1970, within the bounds of the time line. -/
structure Instant where
  /-- Nanoseconds since the start of 1970, negative before it. -/
  nanos : Int
  /-- No instant comes before the start of the year −262143. -/
  le_nanos : -8334601228800000000000 ≤ nanos
  /-- No instant comes after the end of the year 262142. -/
  nanos_le : nanos ≤ 8210266876799999999999
deriving DecidableEq

namespace Instant

/-! ### The order of instants -/

instance : LE Instant := ⟨fun a b => a.nanos ≤ b.nanos⟩

instance : LT Instant := ⟨fun a b => a.nanos < b.nanos⟩

instance (a b : Instant) : Decidable (a ≤ b) := inferInstanceAs (Decidable (a.nanos ≤ b.nanos))

instance (a b : Instant) : Decidable (a < b) := inferInstanceAs (Decidable (a.nanos < b.nanos))

instance : Max Instant := ⟨fun a b => if a ≤ b then b else a⟩

theorem le_def {a b : Instant} : a ≤ b ↔ a.nanos ≤ b.nanos := Iff.rfl

theorem lt_def {a b : Instant} : a < b ↔ a.nanos < b.nanos := Iff.rfl

@[ext]
theorem ext {a b : Instant} (h : a.nanos = b.nanos) : a = b := by
  cases a
  cases b
  simp_all

theorem nanos_max (a b : Instant) : (max a b).nanos = max a.nanos b.nanos := by
  change (if a ≤ b then b else a).nanos = _
  simp only [le_def]
  split <;> omega

/-! ### Points of the line -/

/-- The start of 1970. -/
def epoch : Instant := ⟨0, by decide, by decide⟩

instance : Inhabited Instant := ⟨epoch⟩

/-- The last instant of the time line. -/
def last : Instant := ⟨8210266876799999999999, by decide, by decide⟩

/-- The instant a number of nanoseconds after the start of 1970, absent off the line. -/
def ofNanos? (n : Int) : Option Instant :=
  if h : -8334601228800000000000 ≤ n ∧ n ≤ 8210266876799999999999 then some ⟨n, h.1, h.2⟩
  else none

/-- Whole seconds since the start of 1970, rounding down. -/
def seconds (t : Instant) : Int := t.nanos / 1000000000

/-- The nanoseconds since the last whole second. -/
def subsecond (t : Instant) : Nat := (t.nanos % 1000000000).toNat

/-! ### Moving along the line -/

/-- The instant a span later, or the last one when the line ends before. -/
def add (t : Instant) (d : Span) : Instant := (ofNanos? (t.nanos + d.nanos)).getD last

instance : HAdd Instant Span Instant := ⟨add⟩

/-- The instant some milliseconds later, or earlier for a negative number; the last instant
when that is off the line. -/
def shift (t : Instant) (ms : Int) : Instant := (ofNanos? (t.nanos + ms * 1000000)).getD last

theorem nanos_add (t : Instant) (d : Span) :
    (t + d).nanos = min (t.nanos + d.nanos) last.nanos := by
  have := t.le_nanos
  change ((ofNanos? (t.nanos + d.nanos)).getD last).nanos = _
  unfold ofNanos?
  split <;> simp only [Option.getD_some, Option.getD_none, last] <;> omega

/-! ### Milliseconds -/

/-- The **millisecond** an instant lies in, rounding down. -/
def millis (t : Instant) : Int := t.nanos / 1000000

/-- **The millisecond of an instant takes 64 bits with sign**, whatever the instant. -/
theorem millis_bounds (t : Instant) :
    -9223372036854775808 ≤ t.millis ∧ t.millis < 9223372036854775808 := by
  have hlow := t.le_nanos
  have hhigh := t.nanos_le
  rw [millis]
  omega

/-- The first instant of a millisecond, absent when it is off the line. -/
def ofMillis? (ms : Int) : Option Instant := ofNanos? (ms * 1000000)

/-- The start of the millisecond an instant lies in. -/
def floor (t : Instant) : Instant :=
  ⟨t.millis * 1000000,
    by have := t.le_nanos; unfold millis; omega,
    by have := t.nanos_le; unfold millis; omega⟩

/-- The millisecond of an instant is on the line, and reading it back gives the instant rounded
down. -/
theorem ofMillis?_millis (t : Instant) : ofMillis? t.millis = some t.floor := by
  have := t.le_nanos
  have := t.nanos_le
  unfold ofMillis? ofNanos?
  rw [dif_pos (by unfold millis; omega)]
  rfl

theorem millis_floor (t : Instant) : t.floor.millis = t.millis := by
  unfold millis floor
  simp only
  unfold millis
  omega

theorem millis_ofMillis? {ms : Int} {t : Instant} (h : ofMillis? ms = some t) : t.millis = ms := by
  unfold ofMillis? ofNanos? at h
  split at h
  · cases h
    unfold millis
    simp only
    omega
  · cases h

theorem millis_le_millis {a b : Instant} (h : a ≤ b) : a.millis ≤ b.millis := by
  rw [le_def] at h
  unfold millis
  omega

end Instant

end Leasehold
