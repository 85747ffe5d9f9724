import Leasehold.Hook.FailureState
import Leasehold.Proofs.Lease.Calls
import Leasehold.Proofs.Store.Lookup
import Leasehold.Proofs.Store.Reading

/-!
# What saving a hook does to it

A hook that is read, changed by a delivery and written back is found changed afterwards, but for
one thing: the instant until which it backs off comes back in whole milliseconds
(`Leasehold.WebHook.stored`). Every other hook is found as it was
(`Leasehold.Store.hook?_saveFailureState`).

The calls behind an update change nothing else that matters to the other updates: they leave the
clock and all leases alone (`Leasehold.World.KeepsLeases`). Saving a hook is all or nothing
(`Leasehold.saveHook_cases`), and a note about the project of a hook leaves all hooks alone
(`Leasehold.noteDown_cases`).
-/

namespace Leasehold

/-! ### Hooks -/

namespace WebHook

/-- **A hook as it is read back** after it was written. -/
def stored (h : WebHook) : WebHook := { h with disabledUntil := h.disabledUntil.map Instant.floor }

/-- **Some deliveries, one after another**, with the hook written and read back after each. -/
def replay (h : WebHook) (deliveries : List (Category × Instant)) : WebHook :=
  deliveries.foldl (fun h d => (h.apply d.1 d.2).stored) h

theorem replay_append_singleton (h : WebHook) (deliveries : List (Category × Instant))
    (c : Category) (now : Instant) :
    h.replay (deliveries ++ [(c, now)]) = ((h.replay deliveries).apply c now).stored :=
  List.foldl_append

/-- **Two hooks that differ in their failure states only.** -/
structure Same (h h' : WebHook) : Prop where
  /-- The number of the hook. -/
  id : h.id = h'.id
  /-- The project it belongs to. -/
  project : h.project = h'.project
  /-- The address that gets told. -/
  url : h.url = h'.url

/-- **A delivery changes the failure state only.** -/
theorem same_apply (h : WebHook) (c : Category) (now : Instant) : (h.apply c now).Same h := by
  cases c with
  | ok =>
    rw [apply, enable]
    split
    · exact ⟨rfl, rfl, rfl⟩
    · exact ⟨rfl, rfl, rfl⟩
  | error => exact ⟨rfl, rfl, rfl⟩
  | failed =>
    rw [apply, fail]
    split
    · exact ⟨rfl, rfl, rfl⟩
    · exact ⟨rfl, rfl, rfl⟩

end WebHook

/-! ### Rows -/

namespace Store

/-- A hook from a row has whole milliseconds. -/
theorem HookRow.stored_of_read {unreadable : Fault} {r : HookRow} {h : WebHook}
    (hr : r.read unreadable = .ok h) : h.stored = h := by
  obtain ⟨-, -, -, -, -, hdeadline⟩ := HookRow.read_eq_ok hr
  exact congrArg (WebHook.mk _ _ _ _ _) (floor_of_instant? hdeadline)

/-- **A row that a hook was written into** can be read: its counts are counts. -/
theorem HookRow.read_write {unreadable : Fault} {r : HookRow} {h : WebHook} (hid : h.id = r.id)
    (hproject : h.project = r.project) (hurl : h.url = r.url) :
    (r.write h).read unreadable = .ok h.stored := by
  obtain ⟨id, project, url, failures, backoffs, deadline⟩ := h
  obtain rfl : id = r.id := hid
  obtain rfl : project = r.project := hproject
  obtain rfl : url = r.url := hurl
  rw [HookRow.read, HookRow.write, Count.ofInt?_val, Count.ofInt?_val]
  cases deadline with
  | none => rfl
  | some t =>
    simp only [Option.map_some, instant?, instant_millis]
    rfl

variable {s : Store} {id : Int} {h : WebHook}

theorem hook?_eq_some (hs : s.hook? id = .ok (some h)) :
    ∃ r, s.hooks.find? (·.id = id) = some r ∧ r.id = id ∧ r.read .hookUnreadable = .ok h := by
  rw [hook?] at hs
  split at hs
  · cases hs
  · rename_i r hr
    have hid := List.find?_some hr
    obtain ⟨h', hread, hsome⟩ := exists_of_map_eq_ok hs
    rw [Option.some.inj hsome] at hread
    exact ⟨r, hr, of_decide_eq_true hid, hread⟩

theorem id_of_hook? (hs : s.hook? id = .ok (some h)) : h.id = id := by
  obtain ⟨r, -, hid, hread⟩ := hook?_eq_some hs
  exact (HookRow.read_eq_ok hread).1.trans hid

theorem stored_of_hook? (hs : s.hook? id = .ok (some h)) : h.stored = h := by
  obtain ⟨r, -, -, hread⟩ := hook?_eq_some hs
  exact HookRow.stored_of_read hread

/-- **One more delivery** to a hook that is as some deliveries left it. -/
theorem hook?_replay_append {before : WebHook} {deliveries : List (Category × Instant)}
    (h : (s.hook? id).map (Option.map (·.replay deliveries)) = .ok (some before)) (c : Category)
    (now : Instant) :
    (s.hook? id).map (Option.map (·.replay (deliveries ++ [(c, now)]))) =
      .ok (some (before.apply c now).stored) := by
  obtain ⟨found, hfound, hsome⟩ := exists_of_map_eq_ok h
  obtain ⟨first, rfl, rfl⟩ := Option.map_eq_some_iff.1 hsome
  rw [hfound, Except.map, Option.map_some, WebHook.replay_append_singleton]

/-- **Writing the failure state of a hook**: it is found as it was written, and every other hook
as it was. -/
theorem hook?_saveFailureState {before : WebHook} (hs : s.hook? id = .ok (some before))
    (hsame : h.Same before) :
    (s.saveFailureState h).1 = .ok () ∧
      (s.saveFailureState h).2.hook? id = .ok (some h.stored) ∧
      ∀ id' ≠ id, (s.saveFailureState h).2.hook? id' = s.hook? id' := by
  obtain ⟨r, hr, hrid, hread⟩ := hook?_eq_some hs
  obtain ⟨hid, hproject, hurl, -⟩ := HookRow.read_eq_ok hread
  have hnumber : h.id = id := hsame.id.trans (id_of_hook? hs)
  have hwrite : ∀ (id' : Int) (r : HookRow), r.id = h.id →
      decide ((r.write h).id = id') = decide (r.id = id') := fun _ _ _ => rfl
  have hany : s.hooks.any (·.id = h.id) = true := by
    refine List.any_eq_true.2 ⟨r, List.mem_of_find?_eq_some hr, ?_⟩
    rw [hnumber]
    exact decide_eq_true hrid
  rw [saveFailureState, if_pos hany]
  refine ⟨rfl, ?_, fun id' hne => ?_⟩
  · rw [hook?, find?_map_ite_self (hwrite id) fun r hr => (of_decide_eq_true hr).trans hnumber.symm,
      hr]
    exact congrArg (Except.map some) (HookRow.read_write (hsame.id.trans hid)
      (hsame.project.trans hproject) (hsame.url.trans hurl))
  · rw [hook?, find?_map_ite_of_not (hwrite id') fun r hr heq =>
      hne ((of_decide_eq_true hr).symm.trans (heq.trans hnumber))]
    rfl

/-- The failure state of a hook is no lease. -/
theorem leases_saveFailureState (s : Store) (h : WebHook) :
    (s.saveFailureState h).2.leases = s.leases := by
  rw [saveFailureState]
  split
  · rfl
  · rfl

/-- The last failure of a project is nothing about its hooks, and no lease. -/
theorem recordLastFailure_frame (s : Store) (project : Int) (t : Instant) :
    (s.recordLastFailure project t).2.hooks = s.hooks ∧
      (s.recordLastFailure project t).2.leases = s.leases := by
  rw [recordLastFailure]
  split
  · exact ⟨rfl, rfl⟩
  · split
    · exact ⟨rfl, rfl⟩
    · exact ⟨rfl, rfl⟩

end Store

/-! ### Calls -/

variable {w : World}

/-- Leases and times are nothing about hooks. -/
theorem World.OnlyLeases.hook? {w w' : World} (h : w.OnlyLeases w') (id : Int) :
    w'.store.hook? id = w.store.hook? id := by
  have hhooks := congrArg (fun s : Store => s.hook? id) h.store
  exact hhooks

/-- **Reading a hook** changes nothing, and finds it only in a database that is not poisoned. -/
theorem findHook_cases (id : Int) (w : World) :
    (∃ h, findHook id w = (.ok h, w) ∧ w.store.hook? id = .ok (some h) ∧
        w.database.isPoisoned = false) ∨
      ∃ e, findHook id w = (.error e, w) := by
  rw [findHook]
  cases hp : w.database.isPoisoned with
  | true =>
    have hlook : look (fun s => s.hook? id) w = (.error .poisoned, w) := by
      rw [look, hp]
      rfl
    rw [Action.bind_of_error (Action.mapFault_of_error hlook _)]
    exact .inr ⟨_, rfl⟩
  | false =>
    have hlook : look (fun s => s.hook? id) w = (w.store.hook? id, w) := by
      rw [look, hp]
      rfl
    cases hfound : w.store.hook? id with
    | error f =>
      rw [hfound] at hlook
      rw [Action.bind_of_error (Action.mapFault_of_error hlook _)]
      exact .inr ⟨_, rfl⟩
    | ok found =>
      rw [hfound] at hlook
      rw [Action.bind_of_ok (Action.mapFault_of_ok hlook _)]
      cases found with
      | none => exact .inr ⟨_, rfl⟩
      | some h => exact .inl ⟨h, rfl, rfl, rfl⟩

theorem eq_of_findHook {id : Int} {w w' : World} {answer : Except HookError WebHook}
    (h : findHook id w = (answer, w')) : w' = w := by
  rcases findHook_cases id w with ⟨found, hfind, -⟩ | ⟨e, hfind⟩
  · rw [hfind] at h
    exact (congrArg Prod.snd h).symm
  · rw [hfind] at h
    exact (congrArg Prod.snd h).symm

/-- Saving a hook leaves the clock and all leases alone. -/
theorem keepsLeases_saveHook (h : WebHook) (w : World) : w.KeepsLeases (saveHook h w).2 := by
  rw [saveHook, Action.world_mapFault]
  cases hp : w.database.isPoisoned with
  | true =>
    rw [Action.edit_of_poisoned hp]
    exact .refl w
  | false =>
    rw [Action.edit_of_sound hp]
    exact World.keepsLeases_withStore (Store.leases_saveFailureState w.store h)

/-- Saving a hook that was found, in a database that is not poisoned. -/
theorem saveHook_of_sound {id : Int} {h before : WebHook} (hp : w.database.isPoisoned = false)
    (hw : w.store.hook? id = .ok (some before)) (hsame : h.Same before) :
    saveHook h w = (.ok (), w.withStore (w.store.saveFailureState h).2) := by
  have hedit := Action.edit_of_sound hp fun s => s.saveFailureState h
  rw [(Store.hook?_saveFailureState hw hsame).1] at hedit
  exact Action.mapFault_of_ok hedit _

/-- **Saving a hook is all or nothing.** -/
theorem saveHook_cases {id : Int} {h before : WebHook} (hw : w.store.hook? id = .ok (some before))
    (hsame : h.Same before) :
    (∃ w', saveHook h w = (.ok (), w') ∧ w'.database.isPoisoned = false ∧
        w'.store.hook? id = .ok (some h.stored) ∧
        ∀ id' ≠ id, w'.store.hook? id' = w.store.hook? id') ∨
      w.database.isPoisoned = true ∧ ∃ e, saveHook h w = (.error e, w) := by
  cases hp : w.database.isPoisoned with
  | true =>
    rw [saveHook, Action.mapFault_of_error (Action.edit_of_poisoned hp _)]
    exact .inr ⟨rfl, _, rfl⟩
  | false =>
    obtain ⟨-, hself, hothers⟩ := Store.hook?_saveFailureState hw hsame
    exact .inl ⟨_, saveHook_of_sound hp hw hsame, hp, hself, hothers⟩

/-- Moves the last failure of the project of a hook forward, unless the hook may be told about
events. -/
def noteDown (h : WebHook) (now : Instant) : Action HookError Unit :=
  if h.isExecutable now then pure () else noteFailure h.project now

/-- **A note about the project of a hook** leaves all hooks alone, and succeeds in a database that
is not poisoned. -/
theorem noteDown_cases (h : WebHook) (now : Instant) (w : World) :
    w.KeepsLeases (noteDown h now w).2 ∧
      (∀ id, (noteDown h now w).2.store.hook? id = w.store.hook? id) ∧
      (w.database.isPoisoned = false → (noteDown h now w).1 = .ok ()) := by
  rw [noteDown]
  split
  · exact ⟨.refl w, fun _ => rfl, fun _ => rfl⟩
  · rw [noteFailure]
    cases hp : w.database.isPoisoned with
    | true =>
      rw [Action.mapFault_of_error (Action.edit_of_poisoned hp _)]
      exact ⟨.refl w, fun _ => rfl, nofun⟩
    | false =>
      obtain ⟨hhooks, hleases⟩ := Store.recordLastFailure_frame w.store h.project now
      rw [Action.mapFault_of_ok (Action.edit_of_sound hp _)]
      refine ⟨World.keepsLeases_withStore hleases, fun id => ?_, fun _ => rfl⟩
      exact congrArg (fun hooks => Store.hook? { w.store with hooks } id) hhooks

/-- The end of the work under the lease, in a database that is not poisoned. -/
theorem noteDown_bind (hp : w.database.isPoisoned = false) (h : WebHook) (now : Instant)
    (u : HookUpdate) :
    (if h.isExecutable now = true then pure u
      else noteFailure h.project now >>= fun _ => pure u : Action HookError HookUpdate) w =
      (.ok u, (noteDown h now w).2) := by
  have hnote := (noteDown_cases h now w).2.2 hp
  cases hdown : noteDown h now w with
  | mk answer w' =>
    rw [hdown] at hnote
    cases hnote
    rw [noteDown] at hdown
    split at hdown
    · rename_i hexecutable
      rw [if_pos hexecutable]
      cases hdown
      rfl
    · rename_i hexecutable
      rw [if_neg hexecutable, Action.bind_of_ok hdown]
      rfl

end Leasehold
