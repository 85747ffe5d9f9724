import Leasehold.Json.Tree
import Leasehold.Time.Timestamp

/-!
# Web hooks and their failures

A web hook is an address that gets told about events. How a delivery went decides what becomes of
the hook: after an **error**, which is likely to pass, it backs off for a while that doubles each
time; a delivery that the receiver **failed** to accept is counted, and more than three of them
disable the hook; a delivery that went **well** clears everything.

* `Leasehold.Category` – how a delivery went;
* `Leasehold.WebHook` – a hook with its failure state;
* `Leasehold.HookStatus` – what a hook may do now;
* `Leasehold.WebHook.apply` – what a delivery does to the hook.

Both counts have 32 bits. From its making on no hook counts further than a hundred, so that its sums
leave these bits only where somebody else has written the greatest count into a row. Then counting
an error comes to zero here, and breaks off where sums are checked.
-/

namespace Leasehold

/-! ### How a delivery went -/

/-- **How a delivery went.** -/
inductive Category where
  /-- The receiver is well. -/
  | ok
  /-- The receiver, or the way to it, is in trouble that is likely to pass. -/
  | error
  /-- The receiver does not want the delivery. -/
  | failed
deriving DecidableEq

namespace Category

/-- What a status of an answer means: from 200 to 399 all is well, from 500 to 599 the receiver
is in trouble, and all others refuse the delivery. -/
def ofStatus (status : Nat) : Category :=
  if 200 ≤ status ∧ status ≤ 399 then ok
  else if 500 ≤ status ∧ status ≤ 599 then error
  else failed

/-- The name of a category. -/
def name : Category → String
  | ok => "ok"
  | error => "error"
  | failed => "failed"

/-- The category of a name. -/
def ofName? (s : String) : Option Category :=
  if s = "ok" then some ok
  else if s = "error" then some error
  else if s = "failed" then some failed
  else none

/-- What is wrong with a name that no category has. -/
def invalidName (s : String) : String := "Invalid response category: " ++ s

theorem ofName?_name (c : Category) : ofName? c.name = some c := by
  cases c <;> rfl

end Category

/-! ### Status -/

/-- **What a hook may do now.** -/
inductive HookStatus where
  /-- It may be told about events. -/
  | enabled
  /-- It waits until some instant. -/
  | backingOff (deadline : Instant)
  /-- It is not told about anything. -/
  | disabled
deriving DecidableEq

namespace HookStatus

/-- The status in words. -/
def text : HookStatus → String
  | enabled => "enabled"
  | backingOff deadline => "backing off until " ++ deadline.offsetTimestamp
  | disabled => "disabled"

/-- The stored form of a status. -/
def toJson : HookStatus → Json.Value
  | enabled => .object [("state", .text "enabled")]
  | backingOff deadline =>
    .object [("state", .text "backing_off"), ("until", .text deadline.timestamp)]
  | disabled => .object [("state", .text "disabled")]

/-- The status of a state with its further fields. -/
def ofState? (state : String) (deadline : Option Json.Tree) (isPlain : Bool) : Option HookStatus :=
  if state = "enabled" then (if isPlain then some enabled else none)
  else if state = "disabled" then (if isPlain then some disabled else none)
  else if state = "backing_off" then do
    let t ← deadline
    let s ← t.text?
    let deadline ← Instant.ofTimestamp? s
    some (backingOff deadline)
  else none

/-- **A status from its stored form**: an object, in which other fields do not count, or a list of
the state and its fields. All of it has to be understood. -/
def ofJson? (t : Json.Tree) : Option HookStatus := do
  let _ ← t.value?
  match t with
  | .object members =>
    match members.filter fun m => m.1 = some "state" with
    | [(_, state)] => do
      let state ← state.text?
      match members.filter fun m => m.1 = some "until" with
      | [] => ofState? state none true
      | [(_, deadline)] => ofState? state (some deadline) true
      | _ => ofState? state none true
    | _ => none
  | .array [state] => do
    let state ← state.text?
    ofState? state none true
  | .array [state, deadline] => do
    let state ← state.text?
    ofState? state (some deadline) false
  | _ => none

end HookStatus

/-! ### Hooks -/

/-- **A web hook** with its failure state. -/
structure WebHook where
  /-- The number of the hook. -/
  id : Int
  /-- The project it belongs to. -/
  project : Int
  /-- The address that gets told. -/
  url : String
  /-- How many deliveries failed since one went well. -/
  recentFailures : Count := 0
  /-- How often the hook backed off since a delivery went well. -/
  backoffCount : Count := 0
  /-- Until when the hook backs off. -/
  disabledUntil : Option Instant := none
deriving DecidableEq

namespace WebHook

/-- A hook with more failed deliveries than this is disabled. -/
def failureThreshold : Count := 3

/-- Failures and backoffs are counted up to here. -/
def countLimit : Count := 100

/-- More failures than the threshold disable a hook for good. -/
def isDisabled (h : WebHook) : Bool := failureThreshold < h.recentFailures

/-- **What a hook may do** at some instant. -/
def status (h : WebHook) (now : Instant) : HookStatus :=
  if h.isDisabled then .disabled
  else
    match h.disabledUntil with
    | some deadline => if now < deadline then .backingOff deadline else .enabled
    | none => .enabled

/-- Whether a hook may be told about events. -/
def isExecutable (h : WebHook) (now : Instant) : Bool := h.status now = .enabled

/-- Clears the failure state, and says whether there was anything to clear. -/
def enable (h : WebHook) : Bool × WebHook :=
  if h.recentFailures = 0 ∧ h.backoffCount = 0 ∧ h.disabledUntil = none then (false, h)
  else (true, { h with recentFailures := 0, backoffCount := 0, disabledUntil := none })

/-- **How long the hook backs off next**: ten minutes, doubled for each time before, and one day
at most. -/
def nextBackoff (h : WebHook) : Span :=
  .ofSeconds (UInt64.ofNat (min (600 * Nat.pow 2 (min h.backoffCount.val 64)) 86400))

/-- Backs off. The sum is taken in the word of the count, before the limit is applied to it. -/
def backOff (h : WebHook) (now : Instant) : WebHook :=
  { h with
    disabledUntil := some (now + h.nextBackoff)
    backoffCount := min (h.backoffCount + 1) countLimit }

/-- Counts a failed delivery, and says whether the count was not yet at its limit. -/
def fail (h : WebHook) : Bool × WebHook :=
  if countLimit ≤ h.recentFailures then (false, h)
  else (true, { h with recentFailures := h.recentFailures + 1, disabledUntil := none })

/-- **Backoffs are counted up to the limit**, but from the greatest count that a word holds they
start again at zero. -/
theorem val_backoffCount_backOff (h : WebHook) (now : Instant) :
    (h.backOff now).backoffCount.val =
      if h.backoffCount.val = 4294967295 then 0 else min (h.backoffCount.val + 1) 100 := by
  change (min (h.backoffCount + 1) 100 : Count).val = _
  rw [Count.val_min, Count.val_add_one, show (100 : Count).val = 100 from rfl]
  split <;> omega

/-- **Failures are counted up to the limit.** -/
theorem val_recentFailures_fail (h : WebHook) :
    h.fail.2.recentFailures.val =
      if 100 ≤ h.recentFailures.val then h.recentFailures.val else h.recentFailures.val + 1 := by
  have hlimit : countLimit ≤ h.recentFailures ↔ 100 ≤ h.recentFailures.val := Iff.rfl
  rw [fail]
  by_cases hfull : 100 ≤ h.recentFailures.val
  · rw [if_pos (hlimit.2 hfull), if_pos hfull]
  · rw [if_neg fun h => hfull (hlimit.1 h), if_neg hfull]
    change (h.recentFailures + 1).val = _
    rw [Count.val_add_one, if_neg (by omega)]

/-- **What a delivery does to the hook.** -/
def apply (h : WebHook) (c : Category) (now : Instant) : WebHook :=
  match c with
  | .ok => h.enable.2
  | .error => h.backOff now
  | .failed => h.fail.2

/-- The stored form of a hook. -/
def toJson (h : WebHook) : Json.Value :=
  .object [("id", .integer h.id), ("project_id", .integer h.project), ("url", .text h.url),
    ("recent_failures", .integer h.recentFailures.val),
    ("backoff_count", .integer h.backoffCount.val),
    ("disabled_until", .ofOption (fun t => .text t.timestamp) h.disabledUntil)]

/-- An instant from its stored form. -/
def instantOfJson? (t : Json.Tree) : Option Instant := do
  let s ← t.text?
  Instant.ofTimestamp? s

/-- **A hook from its stored form.** -/
def ofJson? (t : Json.Tree) : Option WebHook := do
  match ← t.fields?
      ["id", "project_id", "url", "recent_failures", "backoff_count", "disabled_until"] with
  | [some id, some project, some url, some failures, some backoffs, deadline] => do
    let id ← id.integer64?
    let project ← project.integer64?
    let url ← url.text?
    let failures ← failures.count?
    let backoffs ← backoffs.count?
    let deadline ← (deadline.getD .null).option? instantOfJson?
    some ⟨id, project, url, failures, backoffs, deadline⟩
  | _ => none

/-- The key of the lease that guards the failure state of a hook. -/
def leaseKey (id : Int) : String := "web_hooks:update_hook_failure_state:" ++ toString id

end WebHook

end Leasehold
