import Leasehold.Proofs.Store.Numbering
import Leasehold.Proofs.Store.Reading
import Leasehold.Store.Hooks

/-!
# The times in the tables

A time is kept as its millisecond, and reading it back fails where that millisecond is off the time
line. No call writes such a one, because the millisecond of an instant is rounded down and the line
begins with a whole one (`Leasehold.Store.instant_millis`).

So a read that rejects a time (`Leasehold.Store.Rejects`) has found one that nobody here wrote: it
was in the tables before the first call, whatever was called since
(`Leasehold.Store.Rejects.hasTime_of_runAll`).
-/

namespace Leasehold

namespace Store

variable {s s' s'' : Store} {ms : Int}

/-! ### Times -/

/-- **A row has a time** in one of its columns. -/
inductive AggregationRow.HasTime (r : AggregationRow) (ms : Int) : Prop where
  /-- The last run of a mode. -/
  | lastRun (m : Mode) (h : r.lastRun.get m = some ms)
  /-- The time of the cursor. -/
  | cursor (h : r.cursorTime = some ms)

/-- **A store has a time** in one of its tables. -/
inductive HasTime (s : Store) (ms : Int) : Prop where
  /-- In the row of an aggregation. -/
  | aggregation {r : AggregationRow} (hr : r ∈ s.aggregations) (h : r.HasTime ms)
  /-- In the row of an event. -/
  | event {r : EventRow} (hr : r ∈ s.events) (h : r.millis = ms)
  /-- In the row of a web hook. -/
  | hook {r : HookRow} (hr : r ∈ s.hooks) (h : r.disabledUntil = some ms)
  /-- In the row of a last failure. -/
  | lastFailure {r : LastFailureRow} (hr : r ∈ s.lastFailures) (h : r.millis = ms)

/-! ### Reads -/

/-- **A read rejects a time.** -/
inductive Rejects (s : Store) (ms : Int) : Prop where
  /-- Of the aggregation of a number. -/
  | aggregation (id : Int) (h : s.aggregation? id = .error (.timeOffLine ms))
  /-- Of the aggregation of a target. -/
  | aggregationOfTarget (target : Int)
    (h : s.aggregationOfTarget? target = .error (.timeOffLine ms))
  /-- Of a target that is registered. -/
  | register (target : Int) (h : (s.register target).1 = .error (.timeOffLine ms))
  /-- Of any aggregation. -/
  | allAggregations (h : s.allAggregations = .error (.timeOffLine ms))
  /-- Of a batch. -/
  | dueBatch (m : Mode) (cutoff : Instant) (limit : Nat)
    (h : s.dueBatch m cutoff limit = .error (.timeOffLine ms))
  /-- Of a page of events. -/
  | eventsAfter (target : Int) (cursor : Option Cursor) (limit : Nat)
    (h : s.eventsAfter target cursor limit = .error (.timeOffLine ms))
  /-- Of the web hook of a number. -/
  | hook (id : Int) (h : s.hook? id = .error (.timeOffLine ms))
  /-- Of any web hook. -/
  | allHooks (h : s.allHooks = .error (.timeOffLine ms))
  /-- Of the last failure of a project. -/
  | lastFailure (project : Int) (h : s.lastFailure? project = .error (.timeOffLine ms))

/-- **A time that is off the line.** -/
def OffLine (ms : Int) : Prop := Instant.ofMillis? ms = none

theorem offLine_of_instant {ms' : Int} (h : instant ms' = .error (.timeOffLine ms)) :
    ms' = ms ∧ OffLine ms := by
  obtain ⟨hfault, hoff⟩ := instant_eq_error h
  cases hfault
  exact ⟨rfl, hoff⟩

theorem offLine_of_instant? {time : Option Int} (h : instant? time = .error (.timeOffLine ms)) :
    time = some ms ∧ OffLine ms := by
  obtain ⟨ms', rfl, hinstant⟩ := exists_of_instant?_eq_error h
  obtain ⟨rfl, hoff⟩ := offLine_of_instant hinstant
  exact ⟨rfl, hoff⟩

/-- **A row of an aggregation** whose time is rejected. -/
theorem AggregationRow.hasTime_of_read {r : AggregationRow}
    (h : r.read = .error (.timeOffLine ms)) : r.HasTime ms ∧ OffLine ms := by
  have hstats : ∀ m, readStats m r.stats ≠ .error (.timeOffLine ms) := by
    intro m
    rw [readStats]
    split
    · nofun
    · nofun
  rw [read] at h
  rcases of_bind_eq_error h with hcursor | ⟨cursor, -, h⟩
  · rw [readCursor] at hcursor
    split at hcursor
    · rename_i ms' event hms hevent
      obtain ⟨rfl, hoff⟩ := offLine_of_instant (of_map_eq_error hcursor)
      exact ⟨.cursor hms, hoff⟩
    · cases hcursor
  rcases of_bind_eq_error h with hrun | ⟨incremental, -, h⟩
  · obtain ⟨hms, hoff⟩ := offLine_of_instant? hrun
    exact ⟨.lastRun .incremental hms, hoff⟩
  rcases of_bind_eq_error h with hrun | ⟨full, -, h⟩
  · obtain ⟨hms, hoff⟩ := offLine_of_instant? hrun
    exact ⟨.lastRun .full hms, hoff⟩
  rcases of_bind_eq_error h with hread | ⟨stats, -, h⟩
  · exact absurd hread (hstats .incremental)
  rcases of_bind_eq_error h with hread | ⟨stats', -, h⟩
  · exact absurd hread (hstats .full)
  · cases h

theorem hasTime_of_findAggregation? {p : AggregationRow → Bool}
    (h : s.findAggregation? p = .error (.timeOffLine ms)) : s.HasTime ms ∧ OffLine ms := by
  rw [findAggregation?] at h
  split at h
  · cases h
  · rename_i r hr
    obtain ⟨htime, hoff⟩ := AggregationRow.hasTime_of_read (of_map_eq_error h)
    exact ⟨.aggregation (List.mem_of_find?_eq_some hr) htime, hoff⟩

/-- Of several rows of aggregations. -/
theorem hasTime_of_mapM {rows : List AggregationRow} (hrows : ∀ r ∈ rows, r ∈ s.aggregations)
    (h : rows.mapM AggregationRow.read = .error (.timeOffLine ms)) :
    s.HasTime ms ∧ OffLine ms := by
  obtain ⟨front, r, rest, rfl, hr, -⟩ := exists_of_mapM_eq_error h
  obtain ⟨htime, hoff⟩ := AggregationRow.hasTime_of_read hr
  exact ⟨.aggregation (hrows r (by simp)) htime, hoff⟩

/-- Of a row of a web hook. -/
theorem hasTime_of_hook {unreadable : Fault} {r : HookRow} (hr : r ∈ s.hooks)
    (hne : .timeOffLine ms ≠ unreadable) (h : r.read unreadable = .error (.timeOffLine ms)) :
    s.HasTime ms ∧ OffLine ms := by
  rcases HookRow.read_eq_error h with ⟨heq, -⟩ | htime
  · exact absurd heq hne
  · obtain ⟨htime, hoff⟩ := offLine_of_instant? htime
    exact ⟨.hook hr htime, hoff⟩

/-! ### Writes -/

/-- **A call that writes** into the tables. -/
inductive Write where
  /-- Registers a target. -/
  | register (target : Int)
  /-- Writes an aggregation. -/
  | saveAggregation (a : Aggregation)
  /-- Writes when an aggregation last ran in a mode. -/
  | markRun (id : Int) (m : Mode) (t : Instant)
  /-- Writes whether an aggregation runs. -/
  | setEnabled (id : Int) (enabled : Bool)
  /-- Adds an event. -/
  | addEvent (target value : Int) (t : Instant)
  /-- Registers a web hook. -/
  | addHook (project : Int) (url : String)
  /-- Writes the failure state of a web hook. -/
  | saveFailureState (h : WebHook)
  /-- Moves the last failure of a project forward. -/
  | recordLastFailure (project : Int) (t : Instant)
  /-- Writes anything about counters and leases. -/
  | other (counters : List CounterRow) (buffers : List BufferRow) (leases : Ledger Int)

/-- **The store after a write.** -/
def Write.run (s : Store) : Write → Store
  | register target => (s.register target).2
  | saveAggregation a => (s.saveAggregation a).2
  | markRun id m t => (s.markRun id m t).2
  | setEnabled id enabled => s.setEnabled id enabled
  | addEvent target value t => (s.addEvent target value t).2
  | addHook project url => (s.addHook project url).2
  | saveFailureState h => (s.saveFailureState h).2
  | recordLastFailure project t => (s.recordLastFailure project t).2
  | other counters buffers leases => { s with counters, buffers, leases }

/-- The store after several writes. -/
def Write.runAll (s : Store) (ws : List Write) : Store := ws.foldl Write.run s

/-- **The millisecond of an instant.** -/
def IsInstant (ms : Int) : Prop := ∃ t : Instant, t.millis = ms

/-- **No times have come but those of instants.** -/
def OnlyInstants (s s' : Store) : Prop := ∀ ms, s'.HasTime ms → s.HasTime ms ∨ IsInstant ms

theorem OffLine.not_isInstant (h : OffLine ms) : ¬IsInstant ms := by
  rintro ⟨t, rfl⟩
  rw [OffLine, Instant.ofMillis?_millis] at h
  cases h

theorem OnlyInstants.refl (s : Store) : s.OnlyInstants s := fun _ => .inl

theorem OnlyInstants.trans (h : s.OnlyInstants s') (h' : s'.OnlyInstants s'') :
    s.OnlyInstants s'' := by
  intro ms hms
  rcases h' ms hms with hms | hinstant
  · exact h ms hms
  · exact .inr hinstant

/-- A time off the line was there before. -/
theorem OnlyInstants.hasTime (h : s.OnlyInstants s') (hms : s'.HasTime ms) (hoff : OffLine ms) :
    s.HasTime ms := (h ms hms).resolve_right hoff.not_isInstant

/-- **Table by table**: each row was there before, or has no times but those of instants and of the
store before. -/
theorem onlyInstants_of_rows
    (haggregations : ∀ r ∈ s'.aggregations, r ∈ s.aggregations ∨
      ∀ ms, r.HasTime ms → s.HasTime ms ∨ IsInstant ms)
    (hevents : ∀ r ∈ s'.events, r ∈ s.events ∨ IsInstant r.millis)
    (hhooks : ∀ r ∈ s'.hooks, r ∈ s.hooks ∨ ∀ ms, r.disabledUntil = some ms → IsInstant ms)
    (hlastFailures : ∀ r ∈ s'.lastFailures, r ∈ s.lastFailures ∨ IsInstant r.millis) :
    s.OnlyInstants s' := by
  intro ms hms
  cases hms with
  | @aggregation r hr h =>
    rcases haggregations r hr with hr | hr
    · exact .inl (.aggregation hr h)
    · exact hr ms h
  | @event r hr h =>
    rcases hevents r hr with hr | hr
    · exact .inl (.event hr h)
    · exact .inr (h ▸ hr)
  | @hook r hr h =>
    rcases hhooks r hr with hr | hr
    · exact .inl (.hook hr h)
    · exact .inr (hr ms h)
  | @lastFailure r hr h =>
    rcases hlastFailures r hr with hr | hr
    · exact .inl (.lastFailure hr h)
    · exact .inr (h ▸ hr)

theorem isInstant_of_map {t : Option Instant} (h : t.map Instant.millis = some ms) :
    IsInstant ms := by
  obtain ⟨t, -, ht⟩ := Option.map_eq_some_iff.1 h
  exact ⟨t, ht⟩

/-- Rewriting rows with no times but their own and those of instants. -/
theorem onlyInstants_changeAggregation (id : Int) {f : AggregationRow → AggregationRow}
    (hf : ∀ r ms, (f r).HasTime ms → r.HasTime ms ∨ IsInstant ms) :
    s.OnlyInstants (s.changeAggregation id f) := by
  refine onlyInstants_of_rows (fun r hr => ?_) (fun _ => .inl) (fun _ => .inl) (fun _ => .inl)
  obtain ⟨r₀, hr₀, rfl⟩ := mem_changeAggregation.1 hr
  split
  · exact .inr fun ms h => (hf r₀ ms h).imp_left (.aggregation hr₀)
  · exact .inl hr₀

theorem onlyInstants_saveAggregation (a : Aggregation) :
    s.OnlyInstants (s.saveAggregation a).2 := by
  rw [saveAggregation]
  split
  · refine onlyInstants_changeAggregation a.id fun r ms h => .inr ?_
    cases h with
    | lastRun m h => exact isInstant_of_map ((lastRun_write a r m).symm.trans h)
    | cursor h =>
      obtain ⟨c, -, hc⟩ := Option.map_eq_some_iff.1 h
      exact ⟨c.time, hc⟩
  · exact .refl s

theorem onlyInstants_markRun (id : Int) (m : Mode) (t : Instant) :
    s.OnlyInstants (s.markRun id m t).2 := by
  rw [markRun]
  split
  · refine onlyInstants_changeAggregation id fun r ms h => ?_
    cases h with
    | lastRun m' h =>
      by_cases hm : m' = m
      · subst hm
        exact .inr ⟨t, Option.some.inj ((PerMode.get_set_self _ _ _).symm.trans h)⟩
      · exact .inl (.lastRun m' ((PerMode.get_set_of_ne _ hm _).symm.trans h))
    | cursor h => exact .inl (.cursor h)
  · exact .refl s

theorem tables_register (s : Store) (target : Int) :
    (s.register target).2.hooks = s.hooks ∧
      (s.register target).2.lastFailures = s.lastFailures := by
  unfold register
  simp only
  split <;> exact ⟨rfl, rfl⟩

/-- Registering rejects what a look at the target rejects afterwards. -/
theorem aggregationOfTarget?_register {target : Int}
    (h : (s.register target).1 = .error (.timeOffLine ms)) :
    (s.register target).2.aggregationOfTarget? target = .error (.timeOffLine ms) := by
  unfold register at h ⊢
  simp only at h ⊢
  split at h
  · cases h
  · cases h
  · rename_i hfound
    cases h
    rw [hfound]

theorem onlyInstants_register (target : Int) : s.OnlyInstants (s.register target).2 := by
  obtain ⟨hhooks, hlastFailures⟩ := tables_register s target
  refine onlyInstants_of_rows (fun r hr => ?_) (by rw [events_register]; exact fun _ => .inl)
    (by rw [hhooks]; exact fun _ => .inl) (by rw [hlastFailures]; exact fun _ => .inl)
  rcases mem_register hr with hr | rfl
  · exact .inl hr
  · refine .inr fun ms h => ?_
    cases h with
    | lastRun m h => cases m <;> cases h
    | cursor h => cases h

theorem onlyInstants_addEvent (target value : Int) (t : Instant) :
    s.OnlyInstants (s.addEvent target value t).2 := by
  refine onlyInstants_of_rows (fun _ => .inl) (fun r hr => ?_) (fun _ => .inl) (fun _ => .inl)
  rcases List.mem_append.1 hr with hr | hr
  · exact .inl hr
  · obtain rfl := List.mem_singleton.1 hr
    exact .inr ⟨t, rfl⟩

theorem onlyInstants_addHook (project : Int) (url : String) :
    s.OnlyInstants (s.addHook project url).2 := by
  refine onlyInstants_of_rows (fun _ => .inl) (fun _ => .inl) (fun r hr => ?_) (fun _ => .inl)
  rcases List.mem_append.1 hr with hr | hr
  · exact .inl hr
  · obtain rfl := List.mem_singleton.1 hr
    exact .inr nofun

theorem onlyInstants_saveFailureState (h : WebHook) :
    s.OnlyInstants (s.saveFailureState h).2 := by
  rw [saveFailureState]
  split
  · refine onlyInstants_of_rows (fun _ => .inl) (fun _ => .inl) (fun r hr => ?_) (fun _ => .inl)
    obtain ⟨r₀, hr₀, rfl⟩ := List.mem_map.1 hr
    split
    · exact .inr fun ms => isInstant_of_map
    · exact .inl hr₀
  · exact .refl s

theorem onlyInstants_recordLastFailure (project : Int) (t : Instant) :
    s.OnlyInstants (s.recordLastFailure project t).2 := by
  rw [recordLastFailure]
  split
  · refine onlyInstants_of_rows (fun _ => .inl) (fun _ => .inl) (fun _ => .inl) (fun r hr => ?_)
    rcases List.mem_append.1 hr with hr | hr
    · exact .inl hr
    · obtain rfl := List.mem_singleton.1 hr
      exact .inr ⟨t, rfl⟩
  · split
    · refine onlyInstants_of_rows (fun _ => .inl) (fun _ => .inl) (fun _ => .inl) (fun r hr => ?_)
      obtain ⟨r₀, hr₀, rfl⟩ := List.mem_map.1 hr
      split
      · exact .inr ⟨t, rfl⟩
      · exact .inl hr₀
    · exact .refl s

/-- **A write** brings no times but those of instants. -/
theorem onlyInstants_run (w : Write) : s.OnlyInstants (w.run s) := by
  cases w with
  | register target => exact onlyInstants_register target
  | saveAggregation a => exact onlyInstants_saveAggregation a
  | markRun id m t => exact onlyInstants_markRun id m t
  | setEnabled id enabled =>
    refine onlyInstants_changeAggregation id fun r ms h => .inl ?_
    cases h with
    | lastRun m h => exact .lastRun m h
    | cursor h => exact .cursor h
  | addEvent target value t => exact onlyInstants_addEvent target value t
  | addHook project url => exact onlyInstants_addHook project url
  | saveFailureState h => exact onlyInstants_saveFailureState h
  | recordLastFailure project t => exact onlyInstants_recordLastFailure project t
  | other counters buffers leases =>
    exact onlyInstants_of_rows (fun _ => .inl) (fun _ => .inl) (fun _ => .inl) (fun _ => .inl)

/-- Several writes bring no others. -/
theorem onlyInstants_runAll (s : Store) (ws : List Write) : s.OnlyInstants (Write.runAll s ws) := by
  induction ws generalizing s with
  | nil => exact .refl s
  | cons w ws ih => exact (onlyInstants_run w).trans (ih (w.run s))

/-! ### What is rejected -/

namespace Rejects

/-- **What is rejected** is a time of the store, and off the line. -/
theorem hasTime (h : s.Rejects ms) : s.HasTime ms ∧ OffLine ms := by
  cases h with
  | aggregation id h => exact hasTime_of_findAggregation? h
  | aggregationOfTarget target h => exact hasTime_of_findAggregation? h
  | register target h =>
    have hfound := aggregationOfTarget?_register h
    obtain ⟨htime, hoff⟩ := hasTime_of_findAggregation? hfound
    exact ⟨(onlyInstants_register target).hasTime htime hoff, hoff⟩
  | allAggregations h => exact hasTime_of_mapM (fun r hr => hr) h
  | dueBatch m cutoff limit h =>
    refine hasTime_of_mapM (fun r hr => ?_) h
    have hdue := List.mem_mergeSort.1 ((limited_sublist _ _).subset hr)
    exact (List.mem_filter.1 hdue).1
  | eventsAfter target cursor limit h =>
    obtain ⟨front, r, rest, hrows, hr, -⟩ := exists_of_mapM_eq_error h
    have hmem : r ∈ limited limit ((s.rowsAfter target cursor).mergeSort EventRow.noLater) := by
      rw [hrows]
      simp
    have hafter := List.mem_mergeSort.1 ((limited_sublist _ _).subset hmem)
    obtain ⟨htime, hoff⟩ := offLine_of_instant (of_map_eq_error hr)
    exact ⟨.event (List.mem_filter.1 hafter).1 htime, hoff⟩
  | hook id h =>
    rw [hook?] at h
    split at h
    · cases h
    · rename_i r hr
      exact hasTime_of_hook (List.mem_of_find?_eq_some hr) (by simp) (of_map_eq_error h)
  | allHooks h =>
    obtain ⟨front, r, rest, hrows, hr, -⟩ := exists_of_mapM_eq_error h
    exact hasTime_of_hook (hrows ▸ by simp) (by simp) hr
  | lastFailure project h =>
    obtain ⟨htime, hoff⟩ := offLine_of_instant? h
    obtain ⟨r, hr, rfl⟩ := Option.map_eq_some_iff.1 htime
    exact ⟨.lastFailure (List.mem_of_find?_eq_some hr) rfl, hoff⟩

/-- **A time that is rejected after some writes was there before all of them.** -/
theorem hasTime_of_runAll {ws : List Write} (h : (Write.runAll s ws).Rejects ms) :
    s.HasTime ms ∧ OffLine ms := by
  obtain ⟨htime, hoff⟩ := h.hasTime
  exact ⟨(onlyInstants_runAll s ws).hasTime htime hoff, hoff⟩

end Rejects

end Store

end Leasehold
