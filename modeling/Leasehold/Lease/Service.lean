import Leasehold.Lease.Options
import Leasehold.Store.Leases
import Leasehold.World

/-!
# The lease service

The service takes, renews and gives back leases, and says who holds them. It keeps them in one of
two ledgers: in memory it counts the elapsed time, in the store the milliseconds of the wall time.

* `Leasehold.LeaseGuard` – what the holder of a lease has in hand;
* `Leasehold.LeaseError` – why a lease cannot be had, and in which words;
* `Leasehold.Lease.tryObtain`, `Leasehold.Lease.cancel`, `Leasehold.Lease.renew`,
  `Leasehold.Lease.holder`, `Leasehold.Lease.isHeld` – the calls.

A deadline that would lie beyond the end of time lies at the end of time.
-/

namespace Leasehold

/-- **What the holder of a lease has in hand.** -/
structure LeaseGuard where
  /-- The key of the lease. -/
  key : String
  /-- The token that proves who took it. -/
  token : Token
  /-- For how long it was taken. -/
  ttl : Span
deriving DecidableEq

/-! ### Errors -/

/-- Why a call on the lease service fails. -/
inductive LeaseFault where
  /-- It was bound to fail. -/
  | injected (call : LeaseCall)
  /-- The call on the store failed. -/
  | store (f : Store.Fault)
deriving DecidableEq

/-- **Why a lease cannot be had.** -/
inductive LeaseError where
  /-- Every attempt found it taken. -/
  | notObtained (key : String) (attempts : Nat)
  /-- A call on the service failed. -/
  | backend (f : LeaseFault)
deriving DecidableEq

/-- The name of a call in messages. -/
def LeaseCall.name : LeaseCall → String
  | obtain => "try_obtain"
  | cancel => "cancel"
  | renew => "renew"
  | holder => "holder"

/-- The words for a fault of the service. -/
def LeaseFault.message : LeaseFault → String
  | injected call => "injected fault in " ++ call.name
  | store f => f.message

/-- **The words for an error.** -/
def LeaseError.message : LeaseError → String
  | notObtained key attempts =>
    "Failed to obtain a lock '" ++ key ++ "' after " ++ toString attempts ++ " attempts"
  | backend f => "Lease backend error: " ++ f.message

namespace Lease

/-! ### Parts of calls -/

/-- Meets the fault that waits for a call, if there is one. -/
def meetFault (call : LeaseCall) : Action LeaseError Unit :=
  fun w =>
    match w.leases.faults call with
    | [] => (.ok (), w)
    | fails :: rest =>
      let faults := fun c => if c = call then rest else w.leases.faults c
      let w := { w with leases := { w.leases with faults } }
      if fails then (.error (.backend (.injected call)), w) else (.ok (), w)

/-- Counts an attempt to take a lease. -/
def countTry : Action LeaseError Unit :=
  fun w => (.ok (), { w with leases := { w.leases with tries := w.leases.tries + 1 } })

/-- Issues a token that no lease has yet. -/
def issueToken : Action LeaseError Token :=
  fun w =>
    (.ok (.issued w.leases.issued),
      { w with leases := { w.leases with issued := w.leases.issued + 1 } })

/-- Where leases are kept. -/
def backend : Action LeaseError LeaseBackend := fun w => (.ok w.leases.backend, w)

/-- Another ledger in memory. -/
def setHolds (holds : Ledger Span) : Action LeaseError Unit :=
  fun w => (.ok (), { w with leases := { w.leases with backend := .memory holds } })

/-- The time that passes when an attempt finds the lease taken. -/
def meetContention : Action LeaseError Unit :=
  fun w => pass (w.leases.contention w.leases.tries) w

/-- Changes the ledger in the store, and says whether there was a change. -/
def editShared (f : Store → Bool × Store) : Action LeaseError Bool :=
  (edit fun s =>
    let (isChanged, s) := f s
    (.ok isChanged, s)).mapFault fun e => .backend (.store e)

/-- Changes the ledger in memory, and says whether there was a change. -/
def editMemory (holds : Ledger Span) (f : Ledger Span → Option (Ledger Span)) :
    Action LeaseError Bool :=
  match f holds with
  | some holds => do
    setHolds holds
    pure true
  | none => pure false

/-! ### Calls -/

/-- **Tries once to take a lease.** -/
def tryObtain (key : String) (ttl : Span) : Action LeaseError (Option LeaseGuard) := do
  countTry
  meetFault .obtain
  let token ← issueToken
  let isTaken ←
    match ← backend with
    | .memory holds => do
      let now ← readElapsed
      let start ← readElapsed
      editMemory holds (Ledger.take? key token now (start + ttl))
    | .shared => do
      let now ← wallTime
      editShared fun s => s.takeLease key token now (now + ttl)
  if isTaken then pure (some ⟨key, token, ttl⟩)
  else do
    meetContention
    pure none

/-- **Gives a lease back**, and says whether the guard was still its holder's. -/
def cancel (guard : LeaseGuard) : Action LeaseError Bool := do
  meetFault .cancel
  match ← backend with
  | .memory holds => editMemory holds (Ledger.cancel? guard.key guard.token)
  | .shared => editShared fun s => s.cancelLease guard.key guard.token

/-- **Moves the deadline of a live lease**, and says whether the guard was its holder's. -/
def renew (guard : LeaseGuard) (ttl : Span) : Action LeaseError Bool := do
  meetFault .renew
  match ← backend with
  | .memory holds => do
    let now ← readElapsed
    let start ← readElapsed
    editMemory holds (Ledger.renew? guard.key guard.token now (start + ttl))
  | .shared => do
    let now ← wallTime
    editShared fun s => s.renewLease guard.key guard.token now (now + ttl)

/-- The token of a live lease in the store. -/
def sharedHolder (key : String) : Action LeaseError (Option Token) := do
  let now ← wallTime
  let held ← (look fun s => s.leaseHolder? key now).mapFault fun e => .backend (.store e)
  pure (held.map (·.1))

/-- **Who holds a lease now.** -/
def holder (key : String) : Action LeaseError (Option Token) := do
  meetFault .holder
  match ← backend with
  | .memory holds => do
    let now ← readElapsed
    pure ((holds.live? key now).map Hold.token)
  | .shared => sharedHolder key

/-- **Whether anybody holds a lease now.** -/
def isHeld (key : String) : Action LeaseError Bool := do
  let token ← holder key
  pure token.isSome

end Lease

end Leasehold
