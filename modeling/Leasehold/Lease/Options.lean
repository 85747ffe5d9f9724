import Leasehold.Time.Span

/-!
# How to take a lease

Options say for how long a lease is taken, how often taking it is tried again while somebody else
holds it, and how long to sleep before each new attempt.

* `Leasehold.LockOptions` – the options, with their defaults;
* `Leasehold.LockOptions.attempts` – how many attempts there are in all, which a word of 32 bits
  counts (`Leasehold.LockOptions.attempts_bounds`).
-/

namespace Leasehold

/-- **How long to hold a lease and how hard to try for it.** -/
structure LockOptions where
  /-- For how long the lease is taken. -/
  ttl : Span := .ofSeconds 60
  /-- The pause before each attempt but the first. -/
  sleep : Span := .ofMillis 10
  /-- How many attempts may follow the first. -/
  retries : UInt32 := 10
deriving DecidableEq

/-- **How many attempts there are**: one more than the retries, as far as 32 bits count. -/
def LockOptions.attempts (o : LockOptions) : Nat := min (o.retries.toNat + 1) 4294967295

/-- **There is an attempt, and a word of 32 bits counts them all**, whatever the retries are. -/
theorem LockOptions.attempts_bounds (o : LockOptions) :
    0 < o.attempts ∧ o.attempts < 4294967296 ∧
      (o.retries.toNat + 1 < 4294967296 → o.attempts = o.retries.toNat + 1) := by
  unfold attempts
  omega

end Leasehold
