/-!
# Spans of time

A span is a length of time in whole nanoseconds, short of `2 ^ 64` seconds. It measures what
elapsed, how long a lease runs and how much a budget allows, so it is never negative and its
arithmetic never leaves the range:

* `Leasehold.Span.add` – the **saturating sum**, which stops at the longest span;
* `Leasehold.Span.add?` – the **exact sum**, absent when it would be too long;
* `Leasehold.Span.sub` – the **truncated difference**, which stops at zero;
* `Leasehold.Span.toSeconds` – the span in seconds as a floating-point number.

The order of spans is the order of their nanoseconds, and it is decidable.
-/

namespace Leasehold

/-- **A span of time**: whole nanoseconds, short of `2 ^ 64` seconds. -/
structure Span where
  /-- The length of the span. -/
  nanos : Nat
  /-- A span is shorter than `2 ^ 64` seconds. -/
  nanos_lt : nanos < 18446744073709551616000000000
deriving DecidableEq

namespace Span

/-! ### The order of spans -/

instance : LE Span := ⟨fun a b => a.nanos ≤ b.nanos⟩

instance : LT Span := ⟨fun a b => a.nanos < b.nanos⟩

instance (a b : Span) : Decidable (a ≤ b) := inferInstanceAs (Decidable (a.nanos ≤ b.nanos))

instance (a b : Span) : Decidable (a < b) := inferInstanceAs (Decidable (a.nanos < b.nanos))

theorem le_def {a b : Span} : a ≤ b ↔ a.nanos ≤ b.nanos := Iff.rfl

theorem lt_def {a b : Span} : a < b ↔ a.nanos < b.nanos := Iff.rfl

@[ext]
theorem ext {a b : Span} (h : a.nanos = b.nanos) : a = b := by
  cases a
  cases b
  simp_all

/-! ### Making spans -/

/-- No time at all. -/
def zero : Span := ⟨0, by decide⟩

instance : Inhabited Span := ⟨zero⟩

/-- The longest span, one nanosecond short of `2 ^ 64` seconds. -/
def longest : Span := ⟨18446744073709551615999999999, by decide⟩

/-- The span of `n` nanoseconds, or the longest span when that is too long. -/
def ofNanos (n : Nat) : Span :=
  if h : n < 18446744073709551616000000000 then ⟨n, h⟩ else longest

/-- A whole number of seconds. -/
def ofSeconds (s : UInt64) : Span :=
  ⟨s.toNat * 1000000000, by have := s.toNat_lt; omega⟩

/-- A whole number of milliseconds. -/
def ofMillis (ms : UInt64) : Span :=
  ⟨ms.toNat * 1000000, by have := ms.toNat_lt; omega⟩

/-- Whole seconds and the nanoseconds of the last, incomplete second. -/
def ofParts (s : UInt64) (n : Fin 1000000000) : Span :=
  ⟨s.toNat * 1000000000 + n.val, by have := s.toNat_lt; have := n.isLt; omega⟩

/-- The whole seconds of a span. -/
def seconds (d : Span) : Nat := d.nanos / 1000000000

/-- The nanoseconds of a span beyond its whole seconds. -/
def subsecond (d : Span) : Nat := d.nanos % 1000000000

theorem nanos_ofNanos (n : Nat) :
    (ofNanos n).nanos = min n longest.nanos := by
  unfold ofNanos
  split <;> simp only [longest] <;> omega

/-! ### Arithmetic -/

/-- **The saturating sum** of two spans. -/
def add (a b : Span) : Span := ofNanos (a.nanos + b.nanos)

/-- **The exact sum** of two spans, absent when it is too long for a span. -/
def add? (a b : Span) : Option Span :=
  if h : a.nanos + b.nanos < 18446744073709551616000000000 then some ⟨a.nanos + b.nanos, h⟩
  else none

/-- **The truncated difference**: what is left of `a` after `b`. -/
def sub (a b : Span) : Span :=
  ⟨a.nanos - b.nanos, Nat.lt_of_le_of_lt (Nat.sub_le _ _) a.nanos_lt⟩

instance : Add Span := ⟨add⟩

instance : Sub Span := ⟨sub⟩

instance : Max Span := ⟨fun a b => if a ≤ b then b else a⟩

theorem nanos_add (a b : Span) : (a + b).nanos = min (a.nanos + b.nanos) longest.nanos :=
  nanos_ofNanos _

theorem nanos_sub (a b : Span) : (a - b).nanos = a.nanos - b.nanos := rfl

theorem nanos_max (a b : Span) : (max a b).nanos = max a.nanos b.nanos := by
  change (if a ≤ b then b else a).nanos = _
  simp only [le_def]
  split <;> omega

/-- The span in seconds: the whole seconds, and the fraction divided out. -/
def toSeconds (d : Span) : Float :=
  (UInt64.ofNat d.seconds).toFloat + (UInt64.ofNat d.subsecond).toFloat / 1000000000.0

end Span

end Leasehold
