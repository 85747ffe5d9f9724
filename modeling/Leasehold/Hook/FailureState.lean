import Leasehold.Lease.Lock

/-!
# Updating the failure state of a web hook

How a delivery went is written into the hook under its lease: the hook is read, changed and
written back while nobody else does the same. When the lease cannot be had because somebody else
is busy with the hook, that may not matter: the hook may already agree with the delivery.

* `Leasehold.HookError` – why an update or a delivery fails, and in which words;
* `Leasehold.HookUpdate` – what an update did;
* `Leasehold.updateHook` – the update;
* `Leasehold.applyToHook`, `Leasehold.reconcileHook` – its part under the lease, and its part
  when the lease was not to be had.

A hook that may not be told about events after an update moves the last failure of its project
forward.
-/

namespace Leasehold

/-- **Why an update or a delivery fails.** -/
inductive HookError where
  /-- There is no web hook of that number. -/
  | notFound (id : Int)
  /-- The lease could not be had. -/
  | lease (e : LeaseError)
  /-- A call on the store failed. -/
  | store (f : Store.Fault)
  /-- The request cannot be made. -/
  | delivery
deriving DecidableEq

/-- **The words for an error.** -/
def HookError.message : HookError → String
  | notFound id => "Web hook " ++ toString id ++ " not found"
  | lease e => e.message
  | store f => "Hook store error: " ++ f.message
  | delivery => "Hook delivery failed: builder error"

/-- **What an update did.** -/
inductive HookUpdate where
  /-- It changed the hook, or found that there was nothing to change. -/
  | applied (h : WebHook) (changed : Bool)
  /-- The hook was busy, but agrees with the delivery already. -/
  | alreadyConsistent (h : WebHook)
deriving DecidableEq

/-- The hook after an update. -/
def HookUpdate.hook : HookUpdate → WebHook
  | applied h _ => h
  | alreadyConsistent h => h

/-- How the lease of a hook is taken, unless told otherwise. -/
def hookLockOptions : LockOptions :=
  { ttl := .ofSeconds 15, sleep := .ofMillis 250, retries := 65 }

/-- Reads a hook, which has to be there. -/
def findHook (id : Int) : Action HookError WebHook := do
  match ← (look fun s => s.hook? id).mapFault HookError.store with
  | some h => pure h
  | none => throw (.notFound id)

/-- Writes the failure state of a hook. -/
def saveHook (h : WebHook) : Action HookError Unit :=
  (edit fun s => s.saveFailureState h).mapFault .store

/-- Moves the last failure of a project forward. -/
def noteFailure (project : Int) (t : Instant) : Action HookError Unit :=
  (edit fun s =>
    let (_, s) := s.recordLastFailure project t
    (.ok (), s)).mapFault .store

/-- **The part under the lease**: the hook is read, changed by the delivery, and written back
when that changed anything. -/
def applyToHook (id : Int) (c : Category) : Action HookError HookUpdate := do
  let before ← findHook id
  let now ← wallTime
  let after := before.apply c now
  let changed : Bool := after ≠ before
  if changed then saveHook after
  if after.isExecutable now then pure () else noteFailure after.project now
  pure (.applied after changed)

/-- **The part without the lease**: the hook agrees with the delivery when it may be told about
events after one that went well, and may not after any other. -/
def reconcileHook (id : Int) (c : Category) (e : LeaseError) : Action HookError HookUpdate := do
  let h ← findHook id
  let now ← wallTime
  if h.isExecutable now = (c = .ok) then pure (.alreadyConsistent h) else throw (.lease e)

/-- **Writes into a hook how a delivery went.** -/
def updateHook (o : LockOptions) (id : Int) (c : Category) : Action HookError HookUpdate :=
  fun w =>
    match Lease.inLock (WebHook.leaseKey id) o (fun _ => applyToHook id c) w with
    | (.ok u, w) => (.ok u, w)
    | (.error (.work e), w) => (.error e, w)
    | (.error (.lease (.backend f)), w) => (.error (.lease (.backend f)), w)
    | (.error (.lease (.notObtained key attempts)), w) =>
      reconcileHook id c (.notObtained key attempts) w

end Leasehold
