import Leasehold.Lease.Service

/-!
# Work under a lease

Work that must not be done twice at once is done under a lease: the lease is taken, with as many
attempts as the options allow, the work is done once, and the lease is given back however the
work ended.

* `Leasehold.Lease.obtain` – the attempts, with a sleep before each but the first;
* `Leasehold.Lease.release` – gives the lease back; that it cannot be given back is no error,
  since it ends by itself;
* `Leasehold.Lease.inLock` – the work under the lease;
* `Leasehold.Lease.abandon` – what becomes of the lease when the work is never finished.
-/

namespace Leasehold.Lease

/-! ### Taking a lease -/

/-- Up to some number of attempts; `isRetry` says whether one was made before. -/
def obtainWithin (key : String) (o : LockOptions) :
    Nat → Bool → Action LeaseError (Option (LeaseGuard × Bool))
  | 0, _ => pure none
  | attempts + 1, isRetry => do
    if isRetry then sleep o.sleep
    match ← tryObtain key o.ttl with
    | some guard => pure (some (guard, isRetry))
    | none => obtainWithin key o attempts true

/-- **Takes a lease**, and says whether the first attempt failed. -/
def obtain (key : String) (o : LockOptions) : Action LeaseError (LeaseGuard × Bool) := do
  match ← obtainWithin key o o.attempts false with
  | some taken => pure taken
  | none => throw (.notObtained key o.attempts)

/-! ### Giving it back -/

/-- **Gives a lease back.** When that fails the lease ends by itself. -/
def release (guard : LeaseGuard) (w : World) : World := (cancel guard w).2

/-- What becomes of a lease whose work is never finished: where somebody attends to it, it is
given back, and otherwise it ends by itself. -/
def abandon (guard : LeaseGuard) (isAttended : Bool) (w : World) : World :=
  if isAttended then release guard w else w

/-! ### Work under a lease -/

/-- **Why work under a lease fails.** -/
inductive Guarded (ε : Type) where
  /-- The lease could not be had, and the work was not done. -/
  | lease (e : LeaseError)
  /-- The work failed. -/
  | work (e : ε)

/-- **Does some work once under a lease.** The work is told whether the first attempt to take the
lease failed. -/
def inLock {ε α : Type} (key : String) (o : LockOptions) (work : Bool → Action ε α) :
    Action (Guarded ε) α :=
  fun w =>
    match obtain key o w with
    | (.error e, w) => (.error (.lease e), w)
    | (.ok (guard, isRetry), w) =>
      match work isRetry w with
      | (.ok answer, w) => (.ok answer, release guard w)
      | (.error e, w) => (.error (.work e), release guard w)

/-- Begins some work under a lease that is never finished, and gives what the work came to. -/
def inLockAbandoned {ε α : Type} (key : String) (o : LockOptions) (isAttended : Bool)
    (work : Bool → World → α × World) : Action (Guarded ε) α :=
  fun w =>
    match obtain key o w with
    | (.error e, w) => (.error (.lease e), w)
    | (.ok (guard, isRetry), w) =>
      let (part, w) := work isRetry w
      (.ok part, abandon guard isAttended w)

end Leasehold.Lease
