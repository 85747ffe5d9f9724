import Leasehold.Proofs.Hook.History

/-!
# The last failure of a project

The store keeps one instant for each project. All hooks of the project move it, each under a lease
of its own, so that the lease of one does not keep the others from moving it; and they move it by a
clock that may be set back. What it shows is a function of what the updates answered all the same.

An update that was applied is a **setback** for the project of its hook when it left the hook so
that it may not be told about events (`Leasehold.UpdateRecord.setback?`). The last failure is the
latest of all setbacks, in whole milliseconds: one update moves it to the later of what it was and
its own setback (`Leasehold.lastFailure?_updateHook`), and a run of updates, with anything else in
between that leaves the last failures alone, to the latest of them all
(`Leasehold.UpdateRun.lastFailure?_merge`).

The hooks do not have to be new when the run begins, nor do they have to be in any particular
state: what an update answers tells of the hook as it left it.
-/

namespace Leasehold

/-! ### The later of two instants -/

namespace Instant

instance associative_max : Std.Associative (max : Instant → Instant → Instant) := by
  refine ⟨fun a b c => ?_⟩
  ext
  rw [nanos_max, nanos_max, nanos_max, nanos_max]
  omega

theorem floor_max (a b : Instant) : (max a b).floor = max a.floor b.floor := by
  ext
  have hfloor : ∀ t : Instant, t.floor.nanos = t.nanos / 1000000 * 1000000 := fun _ => rfl
  rw [nanos_max, hfloor, hfloor, hfloor, nanos_max]
  omega

theorem max_of_le {a b : Instant} (h : a ≤ b) : max a b = b := if_pos h

theorem max_of_lt {a b : Instant} (h : b < a) : max a b = a := by
  refine if_neg fun hle => ?_
  rw [le_def] at hle
  rw [lt_def] at h
  omega

theorem le_max_left (a b : Instant) : a ≤ max a b := by
  rw [le_def, nanos_max]
  exact Int.le_max_left _ _

/-- Rounding the later of two instants that may be absent. -/
theorem map_floor_merge (a b : Option Instant) :
    (a.merge max b).map floor = (a.map floor).merge max (b.map floor) := by
  cases a with
  | none => rw [Option.merge_none_left, Option.map_none, Option.merge_none_left]
  | some a =>
    cases b with
    | none => rw [Option.merge_none_right, Option.map_none, Option.merge_none_right]
    | some b => exact congrArg some (floor_max a b)

/-- The latest of some instants, when there may be one more. -/
theorem max?_append_toList (ts : List Instant) (o : Option Instant) :
    (ts ++ o.toList).max? = ts.max?.merge max o := by
  cases o with
  | none => rw [Option.toList_none, List.append_nil, Option.merge_none_right]
  | some t =>
    cases ts with
    | nil => rfl
    | cons u ts =>
      rw [Option.toList_some, List.cons_append, List.max?_cons', List.max?_cons', List.foldl_append]
      rfl

end Instant

/-! ### Rows -/

namespace Store

variable {s : Store} {p project : Int} {t : Instant} {m : Option Instant}

/-- A row of a project is one of the same project after the change. -/
theorem sameProject_of_eq (project : Int) (t : Instant) (p : Int) (r : LastFailureRow)
    (hr : r.project = project) :
    decide ((LastFailureRow.mk project t.millis).project = p) = decide (r.project = p) := by
  rw [hr]

/-- **A note about a project** moves its last failure to the later of what it was and the new
one. -/
theorem lastFailure?_recordLastFailure_self (hm : s.lastFailure? p = .ok m) :
    (s.recordLastFailure p t).2.lastFailure? p = .ok (m.merge max (some t.floor)) := by
  have hkeeps := sameProject_of_eq p t
  have hnew : instant? (some t.millis) = .ok (some t.floor) := by
    rw [instant?, instant_millis]
    rfl
  rw [lastFailure?] at hm
  rw [recordLastFailure]
  cases hr : s.lastFailures.find? (·.project = p) with
  | none =>
    rw [hr] at hm
    cases hm
    rw [lastFailure?, find?_append_singleton_self hr (decide_eq_true rfl), Option.merge_none_left]
    exact hnew
  | some r =>
    rw [hr, Option.map_some, instant?] at hm
    obtain ⟨u, hu, rfl⟩ := exists_of_map_eq_ok hm
    have hmillis := millis_of_instant hu
    rw [Option.merge_some_some]
    dsimp only
    split
    · -- The row is earlier, and it gets the new time.
      rename_i hlt
      have hrows : (s.lastFailures.map fun r =>
          if r.project = p then LastFailureRow.mk p t.millis else r).find? (·.project = p) =
            some ⟨p, t.millis⟩ := by
        rw [find?_map_ite_self (hkeeps p) fun _ hr => of_decide_eq_true hr, hr]
        rfl
      have hle : u ≤ t.floor := by
        rw [← floor_of_instant hu, Instant.le_def]
        have hms : u.millis * 1000000 ≤ t.millis * 1000000 := by omega
        exact hms
      rw [lastFailure?, hrows, Instant.max_of_le hle]
      exact hnew
    · -- The row stays. It is in whole milliseconds, so no part of one can make the new time later.
      rename_i hge
      have hsame : max u t.floor = u := by
        by_cases hlt : t.floor < u
        · exact Instant.max_of_lt hlt
        · rw [← floor_of_instant hu, Instant.lt_def] at hlt
          have hms : ¬t.millis * 1000000 < u.millis * 1000000 := hlt
          have heq : t.floor = u := by
            rw [← floor_of_instant hu]
            ext
            change t.millis * 1000000 = u.millis * 1000000
            omega
          rw [heq]
          exact Instant.max_of_le (Int.le_refl _)
      rw [lastFailure?, hr, hsame]
      exact hm

/-- A note about another project. -/
theorem lastFailure?_recordLastFailure_of_ne (hne : project ≠ p) :
    (s.recordLastFailure project t).2.lastFailure? p = s.lastFailure? p := by
  rw [recordLastFailure]
  split
  · have hrows : (s.lastFailures ++ [LastFailureRow.mk project t.millis]).find? (·.project = p) =
        s.lastFailures.find? (·.project = p) :=
      find?_append_singleton_of_not (decide_eq_false hne)
    rw [lastFailure?, hrows, lastFailure?]
  · split
    · rw [lastFailure?, find?_map_ite_of_not (sameProject_of_eq project t p)
        fun _ hr heq => hne (heq.symm.trans (of_decide_eq_true hr)), lastFailure?]
    · rfl

end Store

/-! ### Updates -/

/-- **What became of an update**: the time that it was under the lease, and its answer. -/
structure UpdateRecord where
  /-- The time under the lease. -/
  now : Instant
  /-- The answer. -/
  answer : Except HookError HookUpdate

/-- **A setback for a project**: the time of an update that was applied and left a hook of the
project so that it may not be told about events at that time. -/
def UpdateRecord.setback? (project : Int) (u : UpdateRecord) : Option Instant :=
  match u.answer with
  | .ok (.applied h _) => if h.project = project ∧ ¬h.isExecutable u.now then some u.now else none
  | _ => none

/-- The setbacks for a project. -/
def setbacks (project : Int) (us : List UpdateRecord) : List Instant :=
  us.filterMap (UpdateRecord.setback? project)

/-- What becomes of an update in some world. -/
def updateRecord (o : LockOptions) (id : Int) (c : Category) (w : World) : UpdateRecord :=
  ⟨(heldWorld o id w).now, (updateHook o id c w).1⟩

theorem setbacks_concat (project : Int) (us : List UpdateRecord) (u : UpdateRecord) :
    setbacks project (us ++ [u]) = setbacks project us ++ (u.setback? project).toList := by
  rw [setbacks, List.filterMap_append, setbacks, List.filterMap_cons]
  cases u.setback? project with
  | none => rfl
  | some t => rfl

/-- What was not applied is no setback. -/
theorem UpdateRecord.setback?_eq_none {u : UpdateRecord}
    (h : ∀ hook changed, u.answer ≠ .ok (.applied hook changed)) (project : Int) :
    u.setback? project = none := by
  rw [setback?]
  split
  · rename_i hook changed heq
    exact absurd heq (h hook changed)
  · rfl

section Updates

variable {w w' : World} {p : Int} {m : Option Instant}

theorem World.OnlyLeases.lastFailure? (h : w.OnlyLeases w') (p : Int) :
    w'.store.lastFailure? p = w.store.lastFailure? p := by
  have hfailures := congrArg (fun s : Store => s.lastFailure? p) h.store
  exact hfailures

/-- A look at the last failure needs no more than their table. -/
theorem lastFailure?_congr (h : w'.store.lastFailures = w.store.lastFailures) (p : Int) :
    w'.store.lastFailure? p = w.store.lastFailure? p := by
  rw [Store.lastFailure?, Store.lastFailure?, h]

/-- **A note about the project of a hook**, by the setback that it is. -/
theorem lastFailure?_noteDown (hp : w.database.isPoisoned = false)
    (hm : w.store.lastFailure? p = .ok m) (h : WebHook) (changed : Bool) (now : Instant) :
    (noteDown h now w).2.store.lastFailure? p =
      .ok (m.merge max (((⟨now, .ok (.applied h changed)⟩ : UpdateRecord).setback? p).map
        Instant.floor)) := by
  rw [noteDown, UpdateRecord.setback?]
  dsimp only
  by_cases hexecutable : h.isExecutable now = true
  · rw [if_pos hexecutable, if_neg fun hboth => hboth.2 hexecutable]
    exact hm.trans (congrArg Except.ok Option.merge_none_right.symm)
  · rw [if_neg hexecutable, noteFailure, Action.world_mapFault, Action.edit_of_sound hp,
      World.store_withStore]
    by_cases hproject : h.project = p
    · rw [if_pos ⟨hproject, hexecutable⟩, hproject]
      exact Store.lastFailure?_recordLastFailure_self hm
    · rw [if_neg fun hboth => hproject hboth.1, Option.map_none, Option.merge_none_right]
      exact (Store.lastFailure?_recordLastFailure_of_ne hproject).trans hm

/-- **One update** moves the last failure of a project to the later of what it was and the setback
that the update is. -/
theorem lastFailure?_updateHook (o : LockOptions) (id : Int) (c : Category)
    (hm : w.store.lastFailure? p = .ok m) :
    (updateHook o id c w).2.store.lastFailure? p =
      .ok (m.merge max (((updateRecord o id c w).setback? p).map Instant.floor)) := by
  rcases updateHook_parts o id c w with
    ⟨before, changed, guard, w₁, -, hp, hfailures, -, hupdate⟩ | ⟨hnot, honly⟩
  · rw [updateRecord, hupdate, (Lease.onlyLeases_release guard _).lastFailure? p]
    exact lastFailure?_noteDown hp ((lastFailure?_congr hfailures p).trans hm) _ _ _
  · rw [UpdateRecord.setback?_eq_none hnot, Option.map_none, Option.merge_none_right]
    exact (honly.lastFailure? p).trans hm

end Updates

/-! ### Updates that are no setback -/

namespace WebHook

/-- A hook that was enabled may be told about events. -/
theorem isExecutable_enable (h : WebHook) (now : Instant) : h.enable.2.isExecutable now := by
  rw [enable]
  split
  · rename_i hclear
    obtain ⟨hfailures, -, hdeadline⟩ := hclear
    rw [isExecutable, status, isDisabled, hfailures, hdeadline]
    rfl
  · rfl

/-- A delivery that failed takes the waiting off, so a hook that has not failed too often may be
told about events. -/
theorem isExecutable_fail {h : WebHook} (hle : h.fail.2.recentFailures ≤ failureThreshold)
    (now : Instant) : h.fail.2.isExecutable now := by
  have hdisabled : h.fail.2.isDisabled = false := decide_eq_false (Fin.not_lt.2 hle)
  rw [isExecutable, status, hdisabled]
  rw [fail] at hle ⊢
  split at hle
  · rename_i hlimit
    exact absurd (Fin.le_trans hlimit hle) (by decide)
  · rename_i hlimit
    rw [if_neg hlimit]
    rfl

end WebHook

/-- **An update that is no setback for a project**: a delivery that went well, one that failed and
left the hook at the threshold or below it, one to a hook of another project, and one that was not
applied. -/
theorem setback?_updateRecord_eq_none {o : LockOptions} {id : Int} {c : Category} {w : World}
    {p : Int}
    (h : c = .ok ∨ ∀ hook changed, (updateHook o id c w).1 = .ok (.applied hook changed) →
      hook.project ≠ p ∨ c = .failed ∧ hook.recentFailures ≤ WebHook.failureThreshold) :
    (updateRecord o id c w).setback? p = none := by
  rcases updateHook_parts o id c w with
    ⟨before, changed, guard, w₁, -, -, -, -, hupdate⟩ | ⟨hnot, -⟩
  · have hanswer := congrArg Prod.fst hupdate
    rw [updateRecord, hanswer, UpdateRecord.setback?]
    -- Each of the cases leaves a hook that may be told about events, or one of another project.
    refine if_neg fun hboth => ?_
    obtain ⟨hproject, hexecutable⟩ := hboth
    rcases h with rfl | h
    · exact hexecutable (before.isExecutable_enable _)
    · rcases h _ changed hanswer with hne | ⟨rfl, hle⟩
      · exact hne hproject
      · exact hexecutable (WebHook.isExecutable_fail hle _)
  · exact UpdateRecord.setback?_eq_none hnot p

/-! ### Runs -/

/-- **Some updates, one after another**, of any hooks and in any order, and what became of them.
Whatever happens in between leaves the last failures alone: hooks are made and edited, other work is
done, the clock moves either way. -/
inductive UpdateRun (w₀ : World) : List UpdateRecord → World → Prop
  /-- Nothing has happened yet. -/
  | start : UpdateRun w₀ [] w₀
  /-- A hook is updated. -/
  | update {us : List UpdateRecord} {w : World} (h : UpdateRun w₀ us w) (o : LockOptions) (id : Int)
      (c : Category) : UpdateRun w₀ (us ++ [updateRecord o id c w]) (updateHook o id c w).2
  /-- Anything else happens that leaves the last failures alone. -/
  | elsewhere {us : List UpdateRecord} {w w' : World} (h : UpdateRun w₀ us w)
      (hkeeps : w'.store.lastFailures = w.store.lastFailures) : UpdateRun w₀ us w'

section Runs

variable {w₀ w : World} {us : List UpdateRecord} {p : Int} {m : Option Instant}

/-- **A run moves the last failure of a project** to the latest of what it was and all setbacks. -/
theorem UpdateRun.lastFailure?_merge (h : UpdateRun w₀ us w)
    (hm : w₀.store.lastFailure? p = .ok m) :
    w.store.lastFailure? p = .ok (m.merge max ((setbacks p us).max?.map Instant.floor)) := by
  induction h with
  | start => exact hm.trans (congrArg Except.ok Option.merge_none_right.symm)
  | update _ o id c ih =>
    -- Setbacks merge in any grouping, so the last one may come after all others are merged.
    have hassoc := (Option.associative_merge (max : Instant → Instant → Instant)).assoc
    rw [lastFailure?_updateHook o id c ih, setbacks_concat, Instant.max?_append_toList,
      Instant.map_floor_merge, hassoc]
  | elsewhere _ hkeeps ih => exact (lastFailure?_congr hkeeps p).trans ih

/-- **The last failure of a project is the latest setback for it**, in whole milliseconds, and there
is none as long as there was no setback. No later run moves it back; and no update moves it that is
a delivery that went well, one that failed and left the hook at the threshold or below it, one to a
hook of another project, or one that was not applied. -/
theorem UpdateRun.lastFailure?_eq (h : UpdateRun w₀ us w)
    (hnone : w₀.store.lastFailure? p = .ok none) :
    w.store.lastFailure? p = .ok ((setbacks p us).max?.map Instant.floor) ∧
      (∀ us' w' t, UpdateRun w us' w' → w.store.lastFailure? p = .ok (some t) →
        ∃ t', w'.store.lastFailure? p = .ok (some t') ∧ t ≤ t') ∧
      ∀ o id c,
        (c = .ok ∨ ∀ hook changed, (updateHook o id c w).1 = .ok (.applied hook changed) →
          hook.project ≠ p ∨ c = .failed ∧ hook.recentFailures ≤ WebHook.failureThreshold) →
        (updateHook o id c w).2.store.lastFailure? p = w.store.lastFailure? p := by
  have hw := h.lastFailure?_merge hnone
  rw [Option.merge_none_left] at hw
  refine ⟨hw, fun us' w' t hrun ht => ?_, fun o id c hspared => ?_⟩
  · have hlater := hrun.lastFailure?_merge ht
    cases hlast : (setbacks p us').max?.map Instant.floor with
    | none =>
      rw [hlast, Option.merge_none_right] at hlater
      exact ⟨t, hlater, Int.le_refl _⟩
    | some u =>
      rw [hlast, Option.merge_some_some] at hlater
      exact ⟨_, hlater, Instant.le_max_left t u⟩
  · rw [lastFailure?_updateHook o id c hw, setback?_updateRecord_eq_none hspared, Option.map_none,
      Option.merge_none_right, hw]

/-! Two hooks of a project back off, the second by a clock that was set back. -/

/-- The world after two hooks were made. -/
def twoHooks : World := oneHook.withStore (oneHook.store.addHook 7 "https://example.com").2

/-- The world after the first of them had an error, with the clock set back. -/
def firstBacksOff : World :=
  { (updateHook hookLockOptions 1 .error twoHooks).2 with clock := { wall := .epoch } }

set_option maxRecDepth 4000 in
theorem lastFailure?_eq_firstBacksOff :
    ∃ us w, UpdateRun twoHooks us w ∧ twoHooks.store.lastFailure? 7 = .ok none ∧
      setbacks 7 us = [twoHooks.now, .epoch] ∧
      w.store.lastFailure? 7 = .ok (some twoHooks.now.floor) := by
  have hfirst : UpdateRun twoHooks _ firstBacksOff :=
    (UpdateRun.start.update hookLockOptions 1 .error).elsewhere rfl
  have hsecond := hfirst.update hookLockOptions 2 .error
  have hsetbacks : setbacks 7 ([] ++ [updateRecord hookLockOptions 1 .error twoHooks] ++
      [updateRecord hookLockOptions 2 .error firstBacksOff]) = [twoHooks.now, .epoch] := by
    decide +kernel
  have hlast := (hsecond.lastFailure?_eq (p := 7) rfl).1
  rw [hsetbacks] at hlast
  exact ⟨_, _, hsecond, rfl, hsetbacks, hlast⟩

end Runs

end Leasehold
