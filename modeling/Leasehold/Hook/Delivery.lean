import Leasehold.Hook.Address
import Leasehold.Hook.FailureState

/-!
# Delivering to web hooks

A delivery asks first whether the hook may be told about events at all. If so it makes a request
to the hook's address, and writes into the hook how that went. No answer counts as trouble that
is likely to pass. A request that cannot be made is an error of its own and leaves the hook alone.

* `Leasehold.Request` – what is sent;
* `Leasehold.Transport` – what comes back: the status of an answer, or none;
* `Leasehold.DeliveryOutcome` – what a delivery did;
* `Leasehold.deliver` – the delivery.
-/

namespace Leasehold

/-- **What is sent** to a web hook. -/
structure Request where
  /-- The address. -/
  url : String
  /-- The name of the event, in a header of its own. -/
  event : String
  /-- Who sends it. -/
  userAgent : String := "cronlease/0.1.0"
  /-- What kind of text the body is. -/
  contentType : String := "application/json"
  /-- The body. -/
  body : String
deriving DecidableEq

/-- **What comes back** for a request: the status of the answer, or nothing. -/
abbrev Transport := Request → Option Nat

/-- **What a delivery did.** -/
inductive DeliveryOutcome where
  /-- Nothing, because the hook may not be told about events. -/
  | skipped (status : HookStatus)
  /-- It sent a request. -/
  | delivered (c : Category) (httpStatus : Option Nat) (u : HookUpdate)

/-- How long a delivery waits for an answer, unless told otherwise. -/
def defaultDeliveryTimeout : Span := .ofSeconds 10

/-- The request of a delivery, absent when it cannot be made. -/
def Request.of? (h : WebHook) (event : String) (payload : Json.Value) : Option Request :=
  if Address.canReceive h.url && Address.canName event then
    some { url := h.url, event, body := payload.compact }
  else none

/-- How a request went. -/
def categoryOf (answer : Option Nat) : Category :=
  match answer with
  | some status => .ofStatus status
  | none => .error

/-- **Tells a web hook about an event.** -/
def deliver (t : Transport) (o : LockOptions) (id : Int) (event : String) (payload : Json.Value) :
    Action HookError DeliveryOutcome := do
  let h ← findHook id
  let now ← wallTime
  if h.status now = .enabled then
    match Request.of? h event payload with
    | none => throw .delivery
    | some request => do
      let answer := t request
      let update ← updateHook o id (categoryOf answer)
      pure (.delivered (categoryOf answer) answer update)
  else pure (.skipped (h.status now))

end Leasehold
