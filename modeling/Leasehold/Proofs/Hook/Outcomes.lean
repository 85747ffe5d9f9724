import Leasehold.Proofs.Hook.History
import Leasehold.Proofs.Lease.Scoped
import Leasehold.Store.Tampering

/-!
# How an update of a web hook ends

An update does one of five things, and the lease and the hook say which
(`Leasehold.Updated`, `Leasehold.updated_updateHook`):

* the lease is had and the hook is there: the delivery is **applied** to it, once, at the time under
  the lease, and the project is told if the hook may not be told about events any more
  (`Leasehold.Recorded`);
* the lease is had and there is **no such hook**;
* the hook is **busy** at every attempt: then all depends on whether it agrees with the delivery as
  it is;
* the service **fails**;
* the hook **cannot be read**, because the database is poisoned, or the hook's row has a count that
  is none or a time that is no instant (`Leasehold.World.HookUnreadable`).

Only the first of them does anything to hooks and projects. The hook that is answered is the one
that was computed; the row has its deadline in whole milliseconds (`Leasehold.WebHook.stored`). What
is computed is the sum in a word when an error is counted, so a row that somebody else has given the
greatest count gets zero (`Leasehold.WebHook.val_backoffCount_backOff`).
-/

namespace Leasehold

/-! ### What there is to read -/

namespace Store

/-- The row of a hook. -/
def rowOfHook? (s : Store) (id : Int) : Option HookRow := s.hooks.find? (·.id = id)

/-- **The last failure of a project as the row has it**, in milliseconds. -/
def lastFailureMillis? (s : Store) (project : Int) : Option Int :=
  (s.lastFailures.find? (·.project = project)).map LastFailureRow.millis

variable {s : Store} {id project : Int} {h : WebHook} {t : Instant}

/-- Writing the failure state of a hook changes no other row. -/
theorem rowOfHook?_saveFailureState_of_ne (hne : id ≠ h.id) :
    (s.saveFailureState h).2.rowOfHook? id = s.rowOfHook? id := by
  rw [saveFailureState]
  split
  · refine find?_map_ite_of_not (fun r _ => rfl) fun r hr heq => hne ?_
    exact (of_decide_eq_true hr).symm.trans heq
  · rfl

theorem lastFailureMillis?_congr {s' : Store} (h : s'.lastFailures = s.lastFailures)
    (project : Int) : s'.lastFailureMillis? project = s.lastFailureMillis? project := by
  rw [lastFailureMillis?, h, lastFailureMillis?]

/-- **A note about a project** moves its last failure to the later of what it was and the new
one. -/
theorem lastFailureMillis?_recordLastFailure_self (s : Store) (project : Int) (t : Instant) :
    (s.recordLastFailure project t).2.lastFailureMillis? project =
      (s.lastFailureMillis? project).merge max (some t.millis) := by
  rw [recordLastFailure]
  cases hr : s.lastFailures.find? (·.project = project) with
  | none =>
    rw [lastFailureMillis?, lastFailureMillis?, hr,
      find?_append_singleton_self hr (decide_eq_true rfl)]
    rfl
  | some r =>
    rw [lastFailureMillis?, lastFailureMillis?, hr, Option.map_some, Option.merge_some_some]
    dsimp only
    split
    · rename_i hlt
      rw [find?_map_ite_self (fun r hr => by rw [hr]) fun _ hr => of_decide_eq_true hr, hr,
        Int.max_eq_right (Int.le_of_lt hlt)]
      rfl
    · rename_i hge
      rw [hr, Int.max_eq_left (Int.not_lt.1 hge)]
      rfl

/-- A note about another project. -/
theorem lastFailureMillis?_recordLastFailure_of_ne {p : Int} (hne : p ≠ project) (t : Instant) :
    (s.recordLastFailure project t).2.lastFailureMillis? p = s.lastFailureMillis? p := by
  rw [recordLastFailure]
  split
  · have hrows : (s.lastFailures ++ [LastFailureRow.mk project t.millis]).find? (·.project = p) =
        s.lastFailures.find? (·.project = p) :=
      find?_append_singleton_of_not (decide_eq_false (Ne.symm hne))
    rw [lastFailureMillis?, hrows, lastFailureMillis?]
  · split
    · rw [lastFailureMillis?, find?_map_ite_of_not (fun r hr => by rw [hr])
        fun _ hr heq => hne ((of_decide_eq_true hr).symm.trans heq), lastFailureMillis?]
    · rfl

end Store

namespace World

variable {w w' : World}

/-- **What a look at a hook finds**, or why it fails. -/
def hook? (w : World) (id : Int) : Except Store.Fault (Option WebHook) :=
  if w.database.isPoisoned then .error .poisoned else w.store.hook? id

theorem hook?_of_sound (hw : w.database.isPoisoned = false) (id : Int) :
    w.hook? id = w.store.hook? id := by
  rw [hook?, hw]
  rfl

theorem hook?_eq_ok {id : Int} {found : Option WebHook} (h : w.hook? id = .ok found) :
    w.database.isPoisoned = false ∧ w.store.hook? id = .ok found := by
  rw [hook?] at h
  split at h
  · cases h
  · exact ⟨Bool.eq_false_iff.2 ‹_›, h⟩

/-- **Why a hook cannot be read.** -/
inductive HookUnreadable (w : World) (id : Int) : Store.Fault → Prop
  /-- The database is poisoned. -/
  | poisoned (h : w.database.isPoisoned = true) : HookUnreadable w id .poisoned
  /-- Its row has something for a count that is none. -/
  | count {r : Store.HookRow} (hrow : w.store.rowOfHook? id = some r)
      (h : ¬(0 ≤ r.recentFailures ∧ r.recentFailures < 4294967296) ∨
        ¬(0 ≤ r.backoffCount ∧ r.backoffCount < 4294967296)) :
      HookUnreadable w id .hookUnreadable
  /-- Its row has a time that is off the line. -/
  | time {r : Store.HookRow} {ms : Int} (hrow : w.store.rowOfHook? id = some r)
      (h : r.disabledUntil = some ms) (hoff : Instant.ofMillis? ms = none) :
      HookUnreadable w id (.timeOffLine ms)

/-- **What keeps a hook from being read** is the database or its row. -/
theorem hookUnreadable_of_error {id : Int} {f : Store.Fault} (h : w.hook? id = .error f) :
    w.HookUnreadable id f := by
  rw [hook?] at h
  split at h
  · cases h
    exact .poisoned ‹_›
  · rw [Store.hook?] at h
    split at h
    · cases h
    · rename_i r hrow
      rcases Store.HookRow.read_eq_error (Store.of_map_eq_error h) with ⟨rfl, hcount⟩ | htime
      · exact .count hrow (hcount.imp Count.ofInt?_eq_none_iff.1 Count.ofInt?_eq_none_iff.1)
      · obtain ⟨ms, hdeadline, hinstant⟩ := Store.exists_of_instant?_eq_error htime
        obtain ⟨rfl, hoff⟩ := Store.instant_eq_error hinstant
        exact .time hrow hdeadline hoff

/-- Leases and times are nothing about hooks. -/
theorem OnlyLeases.world_hook? (h : w.OnlyLeases w') (id : Int) : w'.hook? id = w.hook? id := by
  rw [World.hook?, World.hook?, h.isPoisoned, h.hook? id]

theorem OnlyLeases.rowOfHook? (h : w.OnlyLeases w') (id : Int) :
    w'.store.rowOfHook? id = w.store.rowOfHook? id :=
  h.find_eq (f := (·.rowOfHook? id)) fun _ _ => rfl

theorem OnlyLeases.lastFailureMillis? (h : w.OnlyLeases w') (p : Int) :
    w'.store.lastFailureMillis? p = w.store.lastFailureMillis? p :=
  h.find_eq (f := (·.lastFailureMillis? p)) fun _ _ => rfl

end World

variable {w w' w'' : World} {id : Int} {c : Category} {before after : WebHook} {now : Instant}

/-- Reading a hook, by what there is to find. -/
theorem findHook_eq (id : Int) (w : World) :
    findHook id w =
      (match w.hook? id with
        | .ok (some h) => .ok h
        | .ok none => .error (.notFound id)
        | .error f => .error (.store f), w) := by
  have hlook : look (fun s => s.hook? id) w = (w.hook? id, w) := by
    rw [look, World.hook?]
    split
    · rfl
    · rfl
  rw [findHook]
  cases hfound : w.hook? id with
  | error f =>
    rw [hfound] at hlook
    exact Action.bind_of_error (Action.mapFault_of_error hlook _) _
  | ok found =>
    rw [hfound] at hlook
    rw [Action.bind_of_ok (Action.mapFault_of_ok hlook _)]
    cases found with
    | none => rfl
    | some h => rfl

/-! ### A delivery that is applied -/

/-- **A delivery was recorded**: a hook was changed, and its project told about it if the hook may
not be told about events any more. -/
structure Recorded (id : Int) (before after : WebHook) (now : Instant) (w w' : World) : Prop where
  /-- The hook is found changed, with its deadline in whole milliseconds. -/
  hook : w'.hook? id = .ok (some after.stored)
  /-- The rows of all other hooks are as they were. -/
  hook_of_ne : ∀ id' ≠ id, w'.store.rowOfHook? id' = w.store.rowOfHook? id'
  /-- The last failure of its project moves to the later of what it was and now, in milliseconds,
  unless the hook may be told about events. -/
  lastFailure : w'.store.lastFailureMillis? before.project =
    if after.isExecutable now then w.store.lastFailureMillis? before.project
    else (w.store.lastFailureMillis? before.project).merge max (some now.millis)
  /-- The last failures of all other projects are as they were. -/
  lastFailure_of_ne : ∀ p ≠ before.project,
    w'.store.lastFailureMillis? p = w.store.lastFailureMillis? p

/-- Only leases and times have changed before a delivery was recorded, and after it. -/
theorem Recorded.onlyLeases {u u' : World} (h : Recorded id before after now w w')
    (hu : u.OnlyLeases w) (hu' : w'.OnlyLeases u') : Recorded id before after now u u' where
  hook := (hu'.world_hook? id).trans h.hook
  hook_of_ne id' hne :=
    (hu'.rowOfHook? id').trans ((h.hook_of_ne id' hne).trans (hu.rowOfHook? id'))
  lastFailure := by
    rw [hu'.lastFailureMillis?, h.lastFailure, hu.lastFailureMillis?]
  lastFailure_of_ne p hp :=
    (hu'.lastFailureMillis? p).trans ((h.lastFailure_of_ne p hp).trans (hu.lastFailureMillis? p))

/-- **A hook is saved, or has not changed**, and its project is told. -/
theorem recorded_noteDown (hbefore : w.hook? id = .ok (some before)) (hsame : after.Same before)
    (hw' : w' = w.withStore (w.store.saveFailureState after).2 ∨ after = before ∧ w' = w) :
    Recorded id before after now w (noteDown after now w').2 := by
  obtain ⟨hsound, hread⟩ := World.hook?_eq_ok hbefore
  have hid : after.id = id := hsame.id.trans (Store.id_of_hook? hread)
  -- What was saved, before anything is said about the project.
  have hsaved : w'.database.isPoisoned = false ∧ w'.store.hook? id = .ok (some after.stored) ∧
      (∀ id' ≠ id, w'.store.rowOfHook? id' = w.store.rowOfHook? id') ∧
      w'.store.lastFailures = w.store.lastFailures := by
    rcases hw' with rfl | ⟨rfl, rfl⟩
    · exact ⟨hsound, (Store.hook?_saveFailureState hread hsame).2.1,
        fun id' hne => Store.rowOfHook?_saveFailureState_of_ne (hid.symm ▸ hne),
        Store.lastFailures_saveFailureState _ _⟩
    · rw [Store.stored_of_hook? hread]
      exact ⟨hsound, hread, fun _ _ => rfl, rfl⟩
  obtain ⟨hsound', hread', hothers, hfailures⟩ := hsaved
  rw [noteDown]
  split
  · rename_i hexecutable
    refine ⟨(World.hook?_of_sound hsound' id).trans hread', hothers, ?_, fun p _ => ?_⟩
    · rw [if_pos hexecutable]
      exact Store.lastFailureMillis?_congr hfailures _
    · exact Store.lastFailureMillis?_congr hfailures p
  · rename_i hexecutable
    rw [noteFailure, Action.world_mapFault, Action.edit_of_sound hsound', hsame.project]
    dsimp only
    have hhooks := (Store.recordLastFailure_frame w'.store before.project now).1
    refine ⟨?_, fun id' hne => ?_, ?_, fun p hp => ?_⟩
    · have hlook : ∀ s, (w'.withStore s).hook? id = s.hook? id :=
        fun s => World.hook?_of_sound (w := w'.withStore s) hsound' id
      rw [hlook, Store.hook?, hhooks]
      exact hread'
    · rw [World.store_withStore, Store.rowOfHook?, hhooks]
      exact hothers id' hne
    · rw [if_neg hexecutable, World.store_withStore,
        Store.lastFailureMillis?_recordLastFailure_self, Store.lastFailureMillis?_congr hfailures]
    · rw [World.store_withStore, Store.lastFailureMillis?_recordLastFailure_of_ne hp,
        Store.lastFailureMillis?_congr hfailures]

/-- **The work under the lease** where the hook is found. -/
theorem applyToHook_of_hook? (h : w.hook? id = .ok (some before)) (c : Category) :
    (applyToHook id c w).1 =
        .ok (.applied (before.apply c w.now) (decide (before.apply c w.now ≠ before))) ∧
      Recorded id before (before.apply c w.now) w.now w (applyToHook id c w).2 := by
  obtain ⟨hsound, hread⟩ := World.hook?_eq_ok h
  have hfind : findHook id w = (.ok before, w) := by rw [findHook_eq, h]
  rw [applyToHook, Action.bind_of_ok hfind,
    Action.bind_of_ok (show wallTime w = (.ok w.now, w) from rfl)]
  have hsame := before.same_apply c w.now
  generalize before.apply c w.now = after at hsame
  dsimp only
  by_cases hchanged : after ≠ before
  · let w' : World := w.withStore (w.store.saveFailureState after).2
    have hsave : saveHook after w = (.ok (), w') := saveHook_of_sound hsound hread hsame
    rw [decide_eq_true hchanged, if_pos rfl, Action.bind_of_ok hsave,
      noteDown_bind (show w'.database.isPoisoned = false from hsound)]
    exact ⟨rfl, recorded_noteDown h hsame (.inl rfl)⟩
  · rw [decide_eq_false hchanged, if_neg Bool.false_ne_true, noteDown_bind hsound]
    exact ⟨rfl, recorded_noteDown h hsame (.inr ⟨Decidable.not_not.1 hchanged, rfl⟩)⟩

/-- The work under the lease where the hook is not found. -/
theorem applyToHook_of_error {e : HookError} (h : findHook id w = (.error e, w)) (c : Category) :
    applyToHook id c w = (.error e, w) := Action.bind_of_error h _

/-! ### The whole of it -/

/-- **How an update ends**: with its answer, and the world that it leaves. -/
inductive Updated (o : LockOptions) (id : Int) (c : Category) (w : World) :
    Except HookError HookUpdate × World → Prop
  /-- The lease is had and the hook is there. -/
  | applied {guard : LeaseGuard} {isRetry : Bool} {before : WebHook} {v w' : World}
      (hobtain : Lease.obtain (WebHook.leaseKey id) o w = (.ok (guard, isRetry), v))
      (hhook : w.hook? id = .ok (some before))
      (hrecorded : Recorded id before (before.apply c v.now) v.now w w') :
      Updated o id c w
        (.ok (.applied (before.apply c v.now) (decide (before.apply c v.now ≠ before))), w')
  /-- The lease is had and there is no such hook. -/
  | missing {guard : LeaseGuard} {isRetry : Bool} {v w' : World}
      (hobtain : Lease.obtain (WebHook.leaseKey id) o w = (.ok (guard, isRetry), v))
      (hhook : w.hook? id = .ok none) (honly : w.OnlyLeases w') :
      Updated o id c w (.error (.notFound id), w')
  /-- The hook is busy at every attempt, and agrees with the delivery. -/
  | consistent {h : WebHook} {v : World}
      (hrefused : Lease.Refused (WebHook.leaseKey id) o w o.attempts v)
      (hhook : w.hook? id = .ok (some h)) (hagrees : h.isExecutable v.now = true ↔ c = .ok)
      (honly : w.OnlyLeases v) :
      Updated o id c w (.ok (.alreadyConsistent h), v)
  /-- The hook is busy at every attempt, and does not agree with the delivery. -/
  | busy {h : WebHook} {v : World}
      (hrefused : Lease.Refused (WebHook.leaseKey id) o w o.attempts v)
      (hhook : w.hook? id = .ok (some h)) (hagrees : ¬(h.isExecutable v.now = true ↔ c = .ok))
      (honly : w.OnlyLeases v) :
      Updated o id c w (.error (.lease (.notObtained (WebHook.leaseKey id) o.attempts)), v)
  /-- The hook is busy at every attempt, and there is no such hook. -/
  | busyMissing {v : World} (hrefused : Lease.Refused (WebHook.leaseKey id) o w o.attempts v)
      (hhook : w.hook? id = .ok none) (honly : w.OnlyLeases v) :
      Updated o id c w (.error (.notFound id), v)
  /-- An attempt to take the lease fails. -/
  | fails {n : Nat} {f : LeaseFault} {u v : World} (hn : n < o.attempts)
      (hrefused : Lease.Refused (WebHook.leaseKey id) o w n u)
      (hcall : Lease.tryObtain (WebHook.leaseKey id) o.ttl (Lease.rested o (0 < n) u) =
        (.error (.backend f), v)) (honly : w.OnlyLeases v) :
      Updated o id c w (.error (.lease (.backend f)), v)
  /-- No attempt fails, and the hook cannot be read. -/
  | unreadable {f : Store.Fault} {v w' : World}
      (hobtain : (∃ guard isRetry,
          Lease.obtain (WebHook.leaseKey id) o w = (.ok (guard, isRetry), v)) ∨
        Lease.Refused (WebHook.leaseKey id) o w o.attempts v)
      (hhook : w.hook? id = .error f) (hcause : w.HookUnreadable id f) (honly : w.OnlyLeases w') :
      Updated o id c w (.error (.store f), w')

/-- An update that has the lease. -/
theorem updateHook_of_obtain {o : LockOptions} {guard : LeaseGuard} {isRetry : Bool} {v : World}
    (hobtain : Lease.obtain (WebHook.leaseKey id) o w = (.ok (guard, isRetry), v)) :
    updateHook o id c w =
      ((applyToHook id c v).1, Lease.release guard (applyToHook id c v).2) := by
  rw [updateHook, Lease.inLock_of_obtain hobtain]
  cases applyToHook id c v with
  | mk answer v' =>
    cases answer with
    | error e => rfl
    | ok u => rfl

/-- An update that found the hook busy at every attempt. -/
theorem updateHook_of_notObtained {o : LockOptions} {key : String} {attempts : Nat} {v : World}
    (hobtain : Lease.obtain (WebHook.leaseKey id) o w = (.error (.notObtained key attempts), v)) :
    updateHook o id c w = reconcileHook id c (.notObtained key attempts) v := by
  rw [updateHook, Lease.inLock, hobtain]

/-- How an update ends that has the lease. -/
theorem updated_of_obtain {o : LockOptions} {guard : LeaseGuard} {isRetry : Bool} {v : World}
    (hobtain : Lease.obtain (WebHook.leaseKey id) o w = (.ok (guard, isRetry), v))
    (honly : w.OnlyLeases v) : Updated o id c w (updateHook o id c w) := by
  have hread := honly.world_hook? id
  have hback : w.OnlyLeases (Lease.release guard v) :=
    honly.trans (Lease.onlyLeases_release guard v)
  rw [updateHook_of_obtain hobtain]
  cases hhook : w.hook? id with
  | error f =>
    have hfind : findHook id v = (.error (.store f), v) := by rw [findHook_eq, hread, hhook]
    rw [applyToHook_of_error hfind]
    exact .unreadable (.inl ⟨guard, _, hobtain⟩) hhook (World.hookUnreadable_of_error hhook) hback
  | ok found =>
    cases found with
    | none =>
      have hfind : findHook id v = (.error (.notFound id), v) := by rw [findHook_eq, hread, hhook]
      rw [applyToHook_of_error hfind]
      exact .missing hobtain hhook hback
    | some before =>
      obtain ⟨hanswer, hrecorded⟩ := applyToHook_of_hook? (hread.trans hhook) c
      rw [hanswer]
      exact .applied hobtain hhook
        (hrecorded.onlyLeases honly (Lease.onlyLeases_release guard _))

/-- How an update ends that found the hook busy at every attempt. -/
theorem updated_of_refused {o : LockOptions} {v : World}
    (hrefused : Lease.Refused (WebHook.leaseKey id) o w o.attempts v) (honly : w.OnlyLeases v) :
    Updated o id c w
      (reconcileHook id c (.notObtained (WebHook.leaseKey id) o.attempts) v) := by
  have hread := honly.world_hook? id
  rw [reconcileHook]
  cases hhook : w.hook? id with
  | error f =>
    have hfind : findHook id v = (.error (.store f), v) := by rw [findHook_eq, hread, hhook]
    rw [Action.bind_of_error hfind]
    exact .unreadable (.inr hrefused) hhook (World.hookUnreadable_of_error hhook) honly
  | ok found =>
    cases found with
    | none =>
      have hfind : findHook id v = (.error (.notFound id), v) := by rw [findHook_eq, hread, hhook]
      rw [Action.bind_of_error hfind]
      exact .busyMissing hrefused hhook honly
    | some h =>
      have hfind : findHook id v = (.ok h, v) := by rw [findHook_eq, hread, hhook]
      have htime : (wallTime : Action HookError Instant) v = (.ok v.now, v) := rfl
      rw [Action.bind_of_ok hfind, Action.bind_of_ok htime]
      split
      · rename_i hagrees
        exact .consistent hrefused hhook (iff_of_eq hagrees) honly
      · rename_i hagrees
        exact .busy hrefused hhook (fun h => hagrees (propext h)) honly

/-- **How an update ends**, in any world, with any options. -/
theorem updated_updateHook (o : LockOptions) (id : Int) (c : Category) (w : World) :
    Updated o id c w (updateHook o id c w) := by
  have hcalled := Lease.called_obtain (WebHook.leaseKey id) o w
  have honly := Lease.onlyLeases_obtain (WebHook.leaseKey id) o w
  cases hobtain : Lease.obtain (WebHook.leaseKey id) o w with
  | mk answer v =>
    rw [hobtain] at hcalled honly
    cases hcalled with
    | takes hn hrefused hcall => exact updated_of_obtain hobtain honly
    | fails hn hrefused hcall =>
      rw [updateHook, Lease.inLock, hobtain]
      exact .fails hn hrefused hcall honly
    | refused hrefused =>
      rw [updateHook_of_notObtained hobtain]
      exact updated_of_refused hrefused honly

/-! A hook whose row has a time that is no instant can be leased, but not updated. -/

/-- The world after somebody wrote such a time into the row of its hook. -/
def garbledHook : World :=
  oneHook.withStore (oneHook.store.overwriteTime .disabledUntil 1 9223372036854775807).2

theorem updateHook_garbledHook :
    (garbledHook.store.rowOfHook? 1).isSome = true ∧
      (∃ taken, (Lease.obtain (WebHook.leaseKey 1) hookLockOptions garbledHook).1 = .ok taken) ∧
      (updateHook hookLockOptions 1 .ok garbledHook).1 =
        .error (.store (.timeOffLine 9223372036854775807)) ∧
      (∀ h changed, (updateHook hookLockOptions 1 .ok garbledHook).1 ≠ .ok (.applied h changed)) ∧
      (∀ h, (updateHook hookLockOptions 1 .ok garbledHook).1 ≠ .ok (.alreadyConsistent h)) ∧
      (updateHook hookLockOptions 1 .ok garbledHook).1 ≠ .error (.notFound 1) ∧
      ∀ e, (updateHook hookLockOptions 1 .ok garbledHook).1 ≠ .error (.lease e) := by
  have hrow : (garbledHook.store.rowOfHook? 1).isSome = true := by decide +kernel
  have hobtain : (Lease.obtain (WebHook.leaseKey 1) hookLockOptions garbledHook).1 =
      .ok (⟨WebHook.leaseKey 1, .issued 0, hookLockOptions.ttl⟩, false) := by
    decide +kernel
  have hupdate : (updateHook hookLockOptions 1 .ok garbledHook).1 =
      .error (.store (.timeOffLine 9223372036854775807)) := by
    decide +kernel
  refine ⟨hrow, ⟨_, hobtain⟩, hupdate, ?_⟩
  rw [hupdate]
  refine ⟨fun _ _ => ?_, fun _ => ?_, ?_, fun _ => ?_⟩
  all_goals simp only [ne_eq, reduceCtorEq, not_false_eq_true, Except.error.injEq]

end Leasehold
