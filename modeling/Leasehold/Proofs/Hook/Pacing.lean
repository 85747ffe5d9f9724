import Leasehold.Hook.Delivery
import Leasehold.Proofs.Hook.History

/-!
# How fast a hook is told about events

A delivery reads the hook and a clock, and makes a request only when the hook may be told about
events then. It writes down how that went only after the answer has come, which may be at any other
time. So whether the next request is made is decided by what was written down of the ones before
(`Leasehold.MaySend`), and with the description of the failure state by its history
(`Leasehold.WebHook.Reflects`) one can say of any run of deliveries when its requests were made:

* after an error the first request is made when the waiting has ended, and so is every later one,
  unless the clock was set back behind a request in between;
* setting the clock back is of no use either as long as there is nothing but errors, each written
  down no earlier than its request was made: one that ends the waiting after a later error is at
  the end of every waiting before (`Leasehold.backoffEnd_le_of_maySend`);
* after four failed deliveries there is no request any more.

A delivery that makes no request leaves the world as it is (`Leasehold.deliver_of_none`). The main
statement is `Leasehold.Deliveries.paced`. A failed delivery, and one that goes well, takes the
waiting off on purpose, and after that the clock alone decides
(`Leasehold.Deliveries.not_paced_setBack`).
-/

namespace Leasehold

open WebHook (tally sinceOk backoffEnd)

/-! ### When the waiting ends -/

namespace WebHook.Reflects

variable {h : WebHook} {s : List (Category × Instant)} {t now : Instant}

/-- **After an error** the hook waits for the time that the errors before it tell. -/
theorem disabledUntil_concat_error (hs : h.Reflects (s ++ [(.error, t)])) :
    h.disabledUntil.map Instant.nanos = some (backoffEnd t (tally .error s)) := by
  refine hs.waiting s t [] rfl rfl fun mid t' rest hcut => ?_
  cases mid <;> cases hcut

/-- A hook that may be told about events after an error has waited. -/
theorem backoffEnd_le (hs : h.Reflects (s ++ [(.error, t)])) (henabled : h.status now = .enabled) :
    backoffEnd t (tally .error s) ≤ now.nanos := by
  have hends := hs.disabledUntil_concat_error
  rw [status] at henabled
  split at henabled
  · cases henabled
  · split at henabled
    · rename_i deadline hdeadline
      split at henabled
      · cases henabled
      · rename_i hover
        rw [hdeadline, Option.map_some, Option.some.injEq] at hends
        rw [Instant.lt_def, Int.not_lt] at hover
        rw [← hends]
        exact hover
    · rename_i hnone
      rw [hnone] at hends
      cases hends

end WebHook.Reflects

/-- Waiting ends at a whole millisecond. -/
theorem backoffEnd_emod (t : Instant) (errors : Nat) : backoffEnd t errors % 1000000 = 0 :=
  Int.mul_emod_left _ _

/-- Waiting never ends before a whole millisecond that was over when it began. -/
theorem le_backoffEnd {T : Int} {t : Instant} (hT : T % 1000000 = 0) (hle : T ≤ t.nanos)
    (errors : Nat) : T ≤ backoffEnd t errors := by
  have hlast := t.nanos_le
  simp only [backoffEnd, Instant.last]
  omega

/-! ### Requests -/

/-- **The request that a delivery makes** in some world, if it makes one. -/
def request? (id : Int) (event : String) (payload : Json.Value) (w : World) : Option Request :=
  match (findHook id w).1 with
  | .ok h => if h.status w.now = .enabled then Request.of? h event payload else none
  | .error _ => none

section Requests

variable {id : Int} {event : String} {payload : Json.Value} {w : World} {request : Request}
  (t : Transport) (o : LockOptions)

/-- **A delivery that makes a request** writes down how that went. -/
theorem deliver_of_request (h : request? id event payload w = some request) :
    (∃ hook, w.store.hook? id = .ok (some hook) ∧ hook.status w.now = .enabled) ∧
      (deliver t o id event payload w).2 = (updateHook o id (categoryOf (t request)) w).2 := by
  rw [request?] at h
  rcases findHook_cases id w with ⟨hook, hfind, hfound, -⟩ | ⟨e, hfind⟩
  · rw [hfind] at h
    dsimp only at h
    split at h
    · rename_i henabled
      refine ⟨⟨hook, hfound, henabled⟩, ?_⟩
      rw [deliver]
      rw [Action.bind_of_ok hfind, Action.bind_of_ok (show wallTime w = (.ok w.now, w) from rfl),
        if_pos henabled, h]
      dsimp only
      cases hupdate : updateHook o id (categoryOf (t request)) w with
      | mk answer w' =>
        cases answer with
        | error e => rw [Action.bind_of_error hupdate]
        | ok u =>
          rw [Action.bind_of_ok hupdate]
          rfl
    · cases h
  · rw [hfind] at h
    cases h

/-- **A delivery that makes no request** leaves the world as it is, and does not say that it
delivered anything. -/
theorem deliver_of_none (h : request? id event payload w = none) :
    (deliver t o id event payload w).2 = w ∧
      ∀ c n u, (deliver t o id event payload w).1 ≠ .ok (.delivered c n u) := by
  rw [request?] at h
  rw [deliver]
  rcases findHook_cases id w with ⟨hook, hfind, -⟩ | ⟨e, hfind⟩
  · rw [hfind] at h
    dsimp only at h
    rw [Action.bind_of_ok hfind, Action.bind_of_ok (show wallTime w = (.ok w.now, w) from rfl)]
    by_cases henabled : hook.status w.now = .enabled
    · rw [if_pos henabled] at h ⊢
      rw [h]
      dsimp only
      rw [Action.throw_apply]
      exact ⟨rfl, fun _ _ _ => nofun⟩
    · rw [if_neg henabled, Action.pure_apply]
      exact ⟨rfl, fun _ _ _ => nofun⟩
  · rw [Action.bind_of_error hfind]
    exact ⟨rfl, fun _ _ _ => nofun⟩

end Requests

/-! ### Runs of deliveries -/

/-- **A request that was made**, and what was written down of it. -/
structure Sending where
  /-- The time at which the request was made. -/
  sent : Instant
  /-- How it went, and the time at which that was written down; absent when it was not. -/
  outcome : Option (Category × Instant)

/-- What was written down, after some deliveries of the past. -/
def outcomes (past : List (Category × Instant)) (ss : List Sending) : List (Category × Instant) :=
  past ++ ss.filterMap Sending.outcome

theorem outcomes_append (past : List (Category × Instant)) (ss ss' : List Sending) :
    outcomes past (ss ++ ss') = outcomes past ss ++ ss'.filterMap Sending.outcome := by
  rw [outcomes, outcomes, List.filterMap_append, List.append_assoc]

theorem outcomes_concat_some {past : List (Category × Instant)} {ss : List Sending} {s : Sending}
    {d : Category × Instant} (hs : s.outcome = some d) :
    outcomes past (ss ++ [s]) = outcomes past ss ++ [d] := by
  rw [outcomes_append, List.filterMap_cons, hs]
  rfl

theorem outcomes_concat_none {past : List (Category × Instant)} {ss : List Sending} {s : Sending}
    (hs : s.outcome = none) : outcomes past (ss ++ [s]) = outcomes past ss := by
  rw [outcomes_append, List.filterMap_cons, hs]
  exact List.append_nil _

/-- **Deliveries to a hook, one after another**, and the requests that they made. Between a request
and its being written down, and between two deliveries, anything may happen that leaves the hook
alone; the clock may be set to any time. -/
inductive Deliveries (id : Int) (w₀ : World) : List Sending → World → Prop
  /-- Nothing was delivered yet. -/
  | start : Deliveries id w₀ [] w₀
  /-- A delivery makes no request. -/
  | refuse {ss : List Sending} {w : World} (h : Deliveries id w₀ ss w) (t : Transport)
      (o : LockOptions) (event : String) (payload : Json.Value)
      (hnone : request? id event payload w = none) :
      Deliveries id w₀ ss (deliver t o id event payload w).2
  /-- A delivery makes a request, and after any answer or none the hook is updated. -/
  | send {ss : List Sending} {w w' : World} (h : Deliveries id w₀ ss w) {event : String}
      {payload : Json.Value} {request : Request}
      (hsend : request? id event payload w = some request)
      (hkeeps : w'.store.hook? id = w.store.hook? id) (answer : Option Nat) (o : LockOptions) :
      Deliveries id w₀
        (ss ++ [⟨w.now, (HookEvent.ofAnswer id (categoryOf answer) (heldWorld o id w').now
          (updateHook o id (categoryOf answer) w').1).delivery? id⟩])
        (updateHook o id (categoryOf answer) w').2
  /-- Anything else happens that leaves the hook alone. -/
  | elsewhere {ss : List Sending} {w w' : World} (h : Deliveries id w₀ ss w)
      (hkeeps : w'.store.hook? id = w.store.hook? id) : Deliveries id w₀ ss w'

/-- **A hook may be told about events** at some time, when all that is known of it is what was
written down. -/
def MaySend (past : List (Category × Instant)) (now : Instant) : Prop :=
  ∃ h : WebHook, h.Reflects (sinceOk past) ∧ h.status now = .enabled

section Pace

variable {past : List (Category × Instant)} {before since : List Sending} {r u now : Instant}

/-- After an error the hook may not be told about events before the waiting ends. -/
theorem MaySend.backoffEnd_le (h : MaySend (past ++ [(.error, u)]) now) :
    backoffEnd u (tally .error (sinceOk past)) ≤ now.nanos := by
  obtain ⟨hook, hreflects, henabled⟩ := h
  rw [WebHook.sinceOk_concat past (by decide)] at hreflects
  exact hreflects.backoffEnd_le henabled

/-- A hook that may be told about events is not disabled. -/
theorem MaySend.tally_failed_le (h : MaySend past now) : tally .failed (sinceOk past) ≤ 3 := by
  obtain ⟨hook, hreflects, henabled⟩ := h
  by_contra hmany
  rw [(hreflects.status_eq_disabled_iff now).2 (Nat.lt_of_not_le hmany)] at henabled
  cases henabled

/-- **Errors alone keep the pace**, however the clock is set: the hook may not be told about events
before the end of the waiting after any of them, when each was written down no earlier than its
request was made. -/
theorem backoffEnd_le_of_maySend
    (hmay : ∀ mid s rest, since = mid ++ s :: rest →
      MaySend (outcomes past (before ++ ⟨r, some (.error, u)⟩ :: mid)) s.sent)
    (herrors : ∀ s ∈ since, ∀ c t, s.outcome = some (c, t) → c = .error ∧ s.sent ≤ t)
    (hnow : MaySend (outcomes past (before ++ ⟨r, some (.error, u)⟩ :: since)) now) :
    backoffEnd u (tally .error (sinceOk (outcomes past before))) ≤ now.nanos := by
  induction since using List.reverseRecOn generalizing now with
  | nil =>
    rw [outcomes_concat_some (d := (.error, u)) rfl] at hnow
    exact hnow.backoffEnd_le
  | append_singleton since s ih =>
    have hmay' := fun mid s' rest (hcut : since = mid ++ s' :: rest) =>
      hmay mid s' (rest ++ [s]) (by rw [hcut, List.append_assoc, List.cons_append])
    have herrors' := fun s' hs' => herrors s' (List.mem_append_left [s] hs')
    rw [← List.cons_append, ← List.append_assoc] at hnow
    cases houtcome : s.outcome with
    | none =>
      rw [outcomes_concat_none houtcome] at hnow
      exact ih hmay' herrors' hnow
    | some d =>
      -- Another error: its request was made after the waiting, and it was written down later.
      obtain ⟨c, t⟩ := d
      obtain ⟨rfl, hlate⟩ := herrors s (List.mem_append_right since List.mem_cons_self) c t houtcome
      rw [outcomes_concat_some houtcome] at hnow
      have hsent := ih hmay' herrors' (hmay since s [] rfl)
      have hwaited := le_backoffEnd (backoffEnd_emod u _) (Int.le_trans hsent hlate) (t := t)
      exact Int.le_trans (hwaited _) hnow.backoffEnd_le

end Pace

namespace Deliveries

variable {id : Int} {w₀ w : World} {ss : List Sending} {past : List (Category × Instant)}

/-- **A delivery as a whole** is such a run, in which nothing happens before the hook is updated. -/
theorem run_deliver (h : Deliveries id w₀ ss w) (t : Transport) (o : LockOptions) (event : String)
    (payload : Json.Value) :
    Deliveries id w₀ ss (deliver t o id event payload w).2 ∨
      ∃ outcome,
        Deliveries id w₀ (ss ++ [⟨w.now, outcome⟩]) (deliver t o id event payload w).2 := by
  cases hrequest : request? id event payload w with
  | none => exact .inl (h.refuse t o event payload hrequest)
  | some request =>
    rw [(deliver_of_request t o hrequest).2]
    exact .inr ⟨_, h.send hrequest rfl (t request) o⟩

/-- **The hook is as what was written down leaves it**, and each request was made when it could be
told about events. -/
theorem reflects (h : Deliveries id w₀ ss w)
    (hstart : ∃ hook, w₀.store.hook? id = .ok (some hook) ∧ hook.Reflects (sinceOk past)) :
    (∃ hook, w.store.hook? id = .ok (some hook) ∧ hook.Reflects (sinceOk (outcomes past ss))) ∧
      ∀ before s rest, ss = before ++ s :: rest → MaySend (outcomes past before) s.sent := by
  induction h with
  | start =>
    refine ⟨?_, fun before s rest hcut => ?_⟩
    · rw [outcomes, List.filterMap_nil, List.append_nil]
      exact hstart
    · cases before <;> cases hcut
  | refuse _ t o event payload hnone ih =>
    rw [(deliver_of_none t o hnone).1]
    exact ih
  | elsewhere _ hkeeps ih =>
    rw [hkeeps]
    exact ih
  | @send ss w w' _ event payload request hsend hkeeps answer o ih =>
    obtain ⟨⟨hook, hfound, hreflects⟩, hmay⟩ := ih
    obtain ⟨⟨hook', hfound', henabled⟩, -⟩ := deliver_of_request (fun _ => answer) o hsend
    obtain rfl : hook' = hook := by
      rw [hfound] at hfound'
      cases hfound'
      rfl
    refine ⟨?_, fun before s rest hcut => ?_⟩
    · -- The update came through, or it left the hook alone and nothing was written down.
      rcases updateHook_cases o id (categoryOf answer) w' with
        ⟨before, changed, hbefore, hanswer, hchanges⟩ | ⟨hother, hkeeps'⟩
      · obtain rfl : before = hook' := by
          rw [hkeeps, hfound] at hbefore
          cases hbefore
          rfl
        rw [outcomes_concat_some (d := (categoryOf answer, (heldWorld o id w').now))]
        · exact ⟨_, hchanges.self, hreflects.apply (Store.stored_of_hook? hbefore) _ _⟩
        · rw [hanswer]
          exact if_pos rfl
      · rw [outcomes_concat_none (by rw [hother]; rfl), hkeeps'.hook, hkeeps]
        exact ⟨_, hfound, hreflects⟩
    · rcases WebHook.concat_eq_append_cons hcut with ⟨rfl, rfl, rfl⟩ | ⟨rest', rfl, rfl⟩
      · exact ⟨_, hreflects, henabled⟩
      · exact hmay before s rest' rfl

/-- **Deliveries keep the pace.** Take any run of deliveries to a hook, from where the hook is as
its past leaves it.

Consider an error that was written down, and the end of the waiting that it begins: ten minutes
later, or as much later as the errors before it tell that came after the last delivery that went
well. A request since then was made no earlier than that, unless the clock was set back behind a
request in between, which was not. Nor was it made earlier when the clock was set back, if all that
was written down in between are errors, each no earlier than its request was made.

No request was made after four failed deliveries without one that went well. And a delivery that
makes no request leaves the world as it is. -/
theorem paced (h : Deliveries id w₀ ss w)
    (hstart : ∃ hook, w₀.store.hook? id = .ok (some hook) ∧ hook.Reflects (sinceOk past)) :
    (∀ before r u since s rest, ss = before ++ ⟨r, some (.error, u)⟩ :: (since ++ s :: rest) →
      let deadline := backoffEnd u (tally .error (sinceOk (outcomes past before)))
      (deadline ≤ s.sent.nanos ∨ ∃ s' ∈ since, deadline ≤ s'.sent.nanos ∧ s.sent < s'.sent) ∧
        ((∀ s' ∈ since, ∀ c t, s'.outcome = some (c, t) → c = .error ∧ s'.sent ≤ t) →
          deadline ≤ s.sent.nanos)) ∧
      (∀ before s rest, ss = before ++ s :: rest →
        tally .failed (sinceOk (outcomes past before)) ≤ 3) ∧
      ∀ t o event payload, request? id event payload w = none →
        (deliver t o id event payload w).2 = w := by
  obtain ⟨-, hmay⟩ := h.reflects hstart
  refine ⟨fun before r u since s rest hcut => ⟨?_, fun herrors => ?_⟩,
    fun before s rest hcut => (hmay before s rest hcut).tally_failed_le,
    fun t o event payload hnone => (deliver_of_none t o hnone).1⟩
  · -- The first request after the error has waited, and it may be the one in question.
    have hfirst : ∀ s' rest', since ++ s :: rest = s' :: rest' →
        backoffEnd u (tally .error (sinceOk (outcomes past before))) ≤ s'.sent.nanos := by
      intro s' rest' hfirst
      rw [hfirst] at hcut
      refine MaySend.backoffEnd_le ?_
      rw [← outcomes_concat_some (s := ⟨r, some (.error, u)⟩) rfl]
      exact hmay _ s' rest' (by rw [hcut, List.append_assoc, List.singleton_append])
    cases since with
    | nil => exact .inl (hfirst s rest rfl)
    | cons s' since =>
      have hwaited := hfirst s' (since ++ s :: rest) rfl
      by_cases hback : s'.sent ≤ s.sent
      · exact .inl (Int.le_trans hwaited hback)
      · exact .inr ⟨s', List.mem_cons_self, hwaited, Int.not_le.1 hback⟩
  · refine backoffEnd_le_of_maySend (fun mid s' rest' hmid => ?_) herrors
      (hmay _ s rest (by rw [hcut, List.append_assoc, List.cons_append]))
    refine hmay _ s' (rest' ++ s :: rest) ?_
    rw [hcut, hmid]
    simp only [List.append_assoc, List.cons_append]

/-! A hook is told about an event and does not answer; it is told again when the waiting ends. -/

/-- The world at the end of the waiting after the first error. -/
def waited : World :=
  { (updateHook hookLockOptions 1 .error oneHook).2 with
    clock := { wall := ⟨600002000000, by decide, by decide⟩ } }

/-- The request that gets no answer. -/
def unanswered : Sending := ⟨oneHook.now, some (.error, oneHook.now)⟩

theorem hook_oneHook :
    ∃ hook, oneHook.store.hook? 1 = .ok (some hook) ∧ hook.Reflects (sinceOk []) :=
  ⟨_, rfl, .of_nil rfl rfl rfl⟩

theorem deliveries_waited : Deliveries 1 oneHook [unanswered] waited := by
  have hsend : request? 1 "push" .null oneHook =
      some { url := "https://example.org", event := "push", body := "null" } := by
    decide +kernel
  have hfirst := Deliveries.start.send hsend rfl none hookLockOptions
  have houtcome : (HookEvent.ofAnswer 1 (categoryOf none) (heldWorld hookLockOptions 1 oneHook).now
      (updateHook hookLockOptions 1 (categoryOf none) oneHook).1).delivery? 1 =
      some (.error, oneHook.now) := by
    decide +kernel
  rw [houtcome] at hfirst
  exact hfirst.elsewhere rfl

/-- What comes of the second request. -/
theorem send_waited (answer : Option Nat) :
    Deliveries 1 oneHook
      [unanswered, ⟨waited.now, (HookEvent.ofAnswer 1 (categoryOf answer)
        (heldWorld hookLockOptions 1 waited).now
        (updateHook hookLockOptions 1 (categoryOf answer) waited).1).delivery? 1⟩]
      (updateHook hookLockOptions 1 (categoryOf answer) waited).2 := by
  have hsend : request? 1 "push" .null waited =
      some { url := "https://example.org", event := "push", body := "null" } := by
    decide +kernel
  exact deliveries_waited.send hsend rfl answer hookLockOptions

theorem paced_waited :
    ∃ outcome w, Deliveries 1 oneHook [unanswered, ⟨waited.now, outcome⟩] w ∧
      backoffEnd oneHook.now 0 = 600002000000 ∧ backoffEnd oneHook.now 0 ≤ waited.now.nanos := by
  have hrun := send_waited (some 503)
  obtain ⟨-, hpace⟩ := (paced hrun hook_oneHook).1 [] oneHook.now oneHook.now [] _ [] rfl
  have hnone : tally .error (sinceOk (outcomes [] [])) = 0 := rfl
  rw [hnone] at hpace
  exact ⟨_, _, hrun, by decide, hpace (by simp)⟩

/-- **A failed delivery takes the waiting off**, and then the clock alone decides: it is set back
behind the end of the waiting after the error, and a request is made. -/
theorem not_paced_setBack :
    ∃ outcome w, Deliveries 1 oneHook
        [unanswered, ⟨waited.now, some (.failed, waited.now)⟩, ⟨Instant.epoch, outcome⟩] w ∧
      Instant.epoch.nanos < backoffEnd oneHook.now 0 := by
  have hfailed := send_waited (some 404)
  have houtcome : (HookEvent.ofAnswer 1 (categoryOf (some 404))
      (heldWorld hookLockOptions 1 waited).now
      (updateHook hookLockOptions 1 (categoryOf (some 404)) waited).1).delivery? 1 =
      some (.failed, waited.now) := by
    decide +kernel
  rw [houtcome] at hfailed
  let back : World :=
    { (updateHook hookLockOptions 1 (categoryOf (some 404)) waited).2 with
      clock := { wall := .epoch } }
  have hback : Deliveries 1 oneHook [unanswered, ⟨waited.now, some (.failed, waited.now)⟩] back :=
    hfailed.elsewhere rfl
  have hsend : request? 1 "push" .null back =
      some { url := "https://example.org", event := "push", body := "null" } := by
    decide +kernel
  exact ⟨_, _, hback.send hsend rfl none hookLockOptions, by decide⟩

end Deliveries

end Leasehold
