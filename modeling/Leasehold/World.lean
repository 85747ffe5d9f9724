import Leasehold.Store.Aggregations
import Leasehold.Store.Counters
import Leasehold.Store.Events
import Leasehold.Store.Hooks
import Leasehold.Time.Budget

/-!
# The world that workers act in

A worker reads a clock, calls a database and takes leases. All three are parts of one world, and
an action is a function on worlds that answers or fails. An action that fails still leaves a
world behind, so what it did before it failed is not undone.

* `Leasehold.World` – the clock, the database and the lease service;
* `Leasehold.Action` – what a worker does;
* `Leasehold.look`, `Leasehold.edit` – a call on the store, which looks or changes something;
* `Leasehold.readElapsed`, `Leasehold.pass`, `Leasehold.sleep` – time.

A database call that breaks off leaves the database **poisoned**: every later call on it fails.
-/

namespace Leasehold

/-! ### The parts of the world -/

/-- **A database**: a store, and whether a call on it broke off. -/
structure Database where
  /-- The tables. -/
  store : Store := {}
  /-- Whether a call broke off. -/
  isPoisoned : Bool := false

/-- **Where leases are kept.** -/
inductive LeaseBackend where
  /-- In the memory of one process, with deadlines on the elapsed time. -/
  | memory (holds : Ledger Span)
  /-- In the store, with deadlines on the wall time. -/
  | shared

/-- **The calls on a lease service.** -/
inductive LeaseCall where
  /-- Takes a lease. -/
  | obtain
  /-- Gives a lease back. -/
  | cancel
  /-- Moves the deadline of a lease. -/
  | renew
  /-- Asks who holds a lease. -/
  | holder
deriving DecidableEq

/-- **A lease service**: where it keeps leases, what it meets with, and what it was asked. -/
structure LeaseService where
  /-- Where leases are kept. -/
  backend : LeaseBackend := .shared
  /-- For each kind of call, which of the next ones fail; those beyond the list do not. -/
  faults : LeaseCall → List Bool := fun _ => []
  /-- How much time passes when the attempt of that number finds the lease taken. -/
  contention : Nat → Span := fun _ => Span.zero
  /-- How many attempts to take a lease were made. -/
  tries : Nat := 0
  /-- How many tokens were issued. -/
  issued : Nat := 0

/-- **A notice**: a listener is told what a flush did to a counter. -/
structure Notice where
  /-- The number of the listener. -/
  listener : Nat
  /-- The record the counter counts for. -/
  record : String
  /-- What it counts. -/
  quantity : String
  /-- What the flush did. -/
  flushed : FlushedCounter
deriving DecidableEq

/-- **The world that workers act in.** -/
structure World where
  /-- The clock. -/
  clock : Clock
  /-- The database. -/
  database : Database := {}
  /-- The lease service. -/
  leases : LeaseService := {}
  /-- For how many nanoseconds the workers slept. -/
  slept : Nat := 0
  /-- The targets whose steps were begun, the latest first. -/
  begun : List Int := []
  /-- What listeners were told, the first notice first. -/
  notices : List Notice := []

/-! ### Actions -/

/-- **What a worker does** in the world: it answers or fails, and leaves a world behind. -/
abbrev Action (ε α : Type) := ExceptT ε (StateM World) α

namespace World

/-- The store of the world. -/
def store (w : World) : Store := w.database.store

/-- The world with another store. -/
def withStore (w : World) (s : Store) : World :=
  { w with database := { w.database with store := s } }

/-- The wall time. -/
def now (w : World) : Instant := w.clock.now

@[simp]
theorem store_withStore (w : World) (s : Store) : (w.withStore s).store = s := rfl

end World

/-- **A call on the store that only looks.** -/
def look {α : Type} (f : Store → Except Store.Fault α) : Action Store.Fault α :=
  fun w => if w.database.isPoisoned then (.error .poisoned, w) else (f w.store, w)

/-- **A call on the store that may change it.** -/
def edit {α : Type} (f : Store → Except Store.Fault α × Store) : Action Store.Fault α :=
  fun w =>
    if w.database.isPoisoned then (.error .poisoned, w)
    else
      let (answer, s) := f w.store
      (answer, w.withStore s)

/-- A call on the database that breaks off. -/
def breakOff {α : Type} : Action Store.Fault α :=
  fun w =>
    if w.database.isPoisoned then (.error .poisoned, w)
    else (.error .brokeOff, { w with database := { w.database with isPoisoned := true } })

/-- The wall time. -/
def wallTime {ε : Type} : Action ε Instant := fun w => (.ok w.now, w)

/-- The elapsed time; reading it may take time. -/
def readElapsed {ε : Type} : Action ε Span :=
  fun w =>
    let (reading, c) := w.clock.read
    (.ok reading, { w with clock := c })

/-- Some time passes. -/
def pass {ε : Type} (d : Span) : Action ε Unit :=
  fun w => (.ok (), { w with clock := w.clock.advance d })

/-- A worker sleeps. The world's clock does not move, but the sleep is accounted for. -/
def sleep {ε : Type} (d : Span) : Action ε Unit :=
  fun w => (.ok (), { w with slept := w.slept + d.nanos })

/-- The same action with its faults in other words. -/
def Action.mapFault {ε ε' α : Type} (f : ε → ε') (a : Action ε α) : Action ε' α :=
  fun w =>
    match a w with
    | (.ok x, w) => (.ok x, w)
    | (.error e, w) => (.error (f e), w)

end Leasehold
