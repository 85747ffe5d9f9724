import Leasehold.Lease.Lock

/-!
# Counters with buffered increments

A counter counts some quantity for a record. Increments are many and wait in a buffer; a flush
moves them into the value, under the counter's lease, in two calls on the store. What a flush
that broke off has left between the two, the next one takes along.

* `Leasehold.Counters` – the quantities that are counted, and how their leases are taken;
* `Leasehold.CounterError` – why a call fails, and in which words;
* `Leasehold.Counters.increment`, `Leasehold.Counters.flush`, `Leasehold.Counters.clear`,
  `Leasehold.Counters.pending`, `Leasehold.Counters.value` – the calls.

A flush that moved anything gives a notice to every listener.
-/

namespace Leasehold

/-- **The quantities that are counted**, and how the leases of their counters are taken. -/
structure Counters where
  /-- The quantities. -/
  quantities : List String
  /-- How leases are taken. -/
  lock : LockOptions := { ttl := .ofSeconds 600 }
  /-- Who is told about flushes, in the order they are told. -/
  listeners : List Nat := []

/-- **Why a call on a counter fails.** -/
inductive CounterError where
  /-- The quantity is not counted. -/
  | unknown (quantity : String)
  /-- The lease could not be had, for another reason than that it was taken. -/
  | lease (e : LeaseError)
  /-- A call on the store failed. -/
  | store (f : Store.Fault)
deriving DecidableEq

/-- **The words for an error.** -/
def CounterError.message : CounterError → String
  | unknown quantity => quantity ++ " is not a counter attribute"
  | lease e => e.message
  | store f => "Counter store error: " ++ f.message

namespace Counters

/-- **The key of a counter's buffers.** -/
def bufferKey (record quantity : String) : String := record ++ ":counters:" ++ quantity

/-- **The key of a counter's lease.** -/
def leaseKey (record quantity : String) : String := bufferKey record quantity ++ ":lock"

/-- Whether a quantity is counted. -/
def counts (c : Counters) (quantity : String) : Bool := c.quantities.contains quantity

/-- Goes on only when a quantity is counted. -/
def requireCounted (c : Counters) (quantity : String) : Action CounterError Unit :=
  if c.counts quantity then pure () else throw (.unknown quantity)

/-- **Lets an increment wait**, and gives what waits then; an increment of zero is nothing. -/
def increment (c : Counters) (record quantity : String) (amount : Int) :
    Action CounterError (Option Int) := do
  c.requireCounted quantity
  if amount = 0 then pure none
  else
    let pending ← (edit fun s =>
      match s.incrementPending (bufferKey record quantity) amount with
      | (.error e, s) => (.error e, s)
      | (.ok n, s) => ((s.counterValue record quantity).map fun _ => n, s)).mapFault
      CounterError.store
    pure (some pending)

/-- Every listener is told what a flush did. -/
def notify (c : Counters) (record quantity : String) (flushed : FlushedCounter) :
    Action CounterError Unit :=
  fun w =>
    (.ok (), { w with
      notices := w.notices ++ c.listeners.map fun n => ⟨n, record, quantity, flushed⟩ })

/-- The part of a flush under the lease. -/
def flushHeld (c : Counters) (record quantity : String) :
    Action CounterError (Option FlushedCounter) := do
  let key := bufferKey record quantity
  let stolen ← (edit fun s => s.stealIncrements key).mapFault CounterError.store
  if stolen = 0 then pure none
  else
    let flushed ← (edit fun s => s.commitFlushed record quantity key).mapFault CounterError.store
    c.notify record quantity flushed
    pure (some flushed)

/-- **Moves what waits into the value**, unless nothing waits or somebody else is flushing. -/
def flush (c : Counters) (record quantity : String) :
    Action CounterError (Option FlushedCounter) := do
  c.requireCounted quantity
  fun w =>
    match Lease.inLock (leaseKey record quantity) c.lock (fun _ => c.flushHeld record quantity) w
    with
    | (.ok flushed, w) => (.ok flushed, w)
    | (.error (.work e), w) => (.error e, w)
    | (.error (.lease (.notObtained _ _)), w) => (.ok none, w)
    | (.error (.lease (.backend f)), w) => (.error (.lease (.backend f)), w)

/-- **Drops what waits.** -/
def clear (c : Counters) (record quantity : String) : Action CounterError Unit := do
  c.requireCounted quantity
  (edit fun s => (.ok (), s.clearPending (bufferKey record quantity))).mapFault .store

/-- **What waits.** -/
def pending (c : Counters) (record quantity : String) : Action CounterError Int := do
  c.requireCounted quantity
  (look fun s => s.pending (bufferKey record quantity)).mapFault .store

/-- **The value**, without what waits. -/
def value (c : Counters) (record quantity : String) : Action CounterError Int := do
  c.requireCounted quantity
  (look fun s => s.counterValue record quantity).mapFault .store

end Counters

end Leasehold
