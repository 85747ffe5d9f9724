import Leasehold.Store.Basic

/-!
# Web hooks in the store

* `Leasehold.Store.addHook` – registers a web hook;
* `Leasehold.Store.hook?`, `Leasehold.Store.allHooks` – look web hooks up;
* `Leasehold.Store.saveFailureState` – writes the failure state of a web hook, and nothing else;
* `Leasehold.Store.recordLastFailure` – moves the last failure of a project forward, never back;
* `Leasehold.Store.lastFailure?` – the last failure of a project.
-/

namespace Leasehold.Store

/-! ### Hooks -/

/-- **The web hook of a row.** With a count that is none the row gives the fault that the reader
has for it, before its time is looked at. -/
def HookRow.read (unreadable : Fault) (r : HookRow) : Except Fault WebHook :=
  match Count.ofInt? r.recentFailures, Count.ofInt? r.backoffCount with
  | some recentFailures, some backoffCount =>
    (instant? r.disabledUntil).map fun disabledUntil =>
      { id := r.id, project := r.project, url := r.url, recentFailures, backoffCount,
        disabledUntil }
  | _, _ => .error unreadable

theorem HookRow.read_eq_ok {unreadable : Fault} {r : HookRow} {h : WebHook}
    (hr : r.read unreadable = .ok h) :
    h.id = r.id ∧ h.project = r.project ∧ h.url = r.url ∧
      r.recentFailures = h.recentFailures.val ∧ r.backoffCount = h.backoffCount.val ∧
      instant? r.disabledUntil = .ok h.disabledUntil := by
  rw [read] at hr
  split at hr
  · rename_i hfailures hbackoffs
    cases hdeadline : instant? r.disabledUntil with
    | error e =>
      rw [hdeadline] at hr
      cases hr
    | ok deadline =>
      rw [hdeadline] at hr
      cases hr
      exact ⟨rfl, rfl, rfl, Count.ofInt?_eq_some_iff.1 hfailures,
        Count.ofInt?_eq_some_iff.1 hbackoffs, rfl⟩
  · cases hr

/-- **A row cannot be read** when one of its counts is none, or else by its time. -/
theorem HookRow.read_eq_error {unreadable e : Fault} {r : HookRow}
    (hr : r.read unreadable = .error e) :
    e = unreadable ∧ (Count.ofInt? r.recentFailures = none ∨ Count.ofInt? r.backoffCount = none) ∨
      instant? r.disabledUntil = .error e := by
  rw [read] at hr
  split at hr
  · cases hdeadline : instant? r.disabledUntil with
    | error e' =>
      rw [hdeadline] at hr
      cases hr
      exact .inr rfl
    | ok deadline =>
      rw [hdeadline] at hr
      cases hr
  · rename_i hcounts
    cases hr
    refine .inl ⟨rfl, ?_⟩
    cases hfailures : Count.ofInt? r.recentFailures with
    | none => exact .inl rfl
    | some failures =>
      cases hbackoffs : Count.ofInt? r.backoffCount with
      | none => exact .inr rfl
      | some backoffs => exact absurd hbackoffs (hcounts failures backoffs hfailures)

/-- The web hook of a number. -/
def hook? (s : Store) (id : Int) : Except Fault (Option WebHook) :=
  match s.hooks.find? (·.id = id) with
  | none => .ok none
  | some r => (r.read .hookUnreadable).map some

/-- All web hooks, by number. -/
def allHooks (s : Store) : Except Fault (List WebHook) :=
  s.hooks.mapM (HookRow.read .listedHookUnreadable)

/-- **Registers a web hook.** -/
def addHook (s : Store) (project : Int) (url : String) : WebHook × Store :=
  let row : HookRow := { id := s.nextHook, project, url }
  ({ id := row.id, project, url },
    { s with hooks := s.hooks ++ [row], nextHook := s.nextHook + 1 })

/-- Writes the failure state of a web hook into a row. -/
def HookRow.write (h : WebHook) (r : HookRow) : HookRow :=
  { r with
    recentFailures := h.recentFailures.val
    backoffCount := h.backoffCount.val
    disabledUntil := h.disabledUntil.map Instant.millis }

/-- **Writes the failure state of a web hook**, and nothing else. -/
def saveFailureState (s : Store) (h : WebHook) : Except Fault Unit × Store :=
  if s.hooks.any (·.id = h.id) then
    (.ok (), { s with hooks := s.hooks.map fun r => if r.id = h.id then r.write h else r })
  else (.error (.noHook h.id), s)

/-! ### The last failure of a project -/

/-- **Moves the last failure of a project forward**, and says whether it moved. An earlier one is
ignored. -/
def recordLastFailure (s : Store) (project : Int) (t : Instant) : Bool × Store :=
  match s.lastFailures.find? (·.project = project) with
  | none => (true, { s with lastFailures := s.lastFailures ++ [⟨project, t.millis⟩] })
  | some r =>
    if r.millis < t.millis then
      (true, { s with
        lastFailures := s.lastFailures.map fun r =>
          if r.project = project then ⟨project, t.millis⟩ else r })
    else (false, s)

/-- **The last failure of a project**, if it had one. -/
def lastFailure? (s : Store) (project : Int) : Except Fault (Option Instant) :=
  instant? ((s.lastFailures.find? (·.project = project)).map LastFailureRow.millis)

end Leasehold.Store
