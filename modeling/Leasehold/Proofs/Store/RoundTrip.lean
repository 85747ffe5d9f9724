import Leasehold.Proofs.Aggregation.Ahead
import Leasehold.Proofs.Hook.Saving
import Leasehold.Proofs.Store.Statistics
import Leasehold.Proofs.Store.Times

/-!
# What is written is read back

All times are kept as whole milliseconds, so what is read back is what was written with each of its
times rounded down (`Leasehold.Aggregation.stored`, `Leasehold.WebHook.stored`), and rounding down
once more changes nothing: writing what was read leaves every row as it is.

An event is a new row. It turns up between the events that its target has already, in the pages
after any cursor that comes before it once both times are rounded (`Leasehold.Store.TurnsUp`). Such a
page fails when one of its events cannot be read, so the events around it have to be readable.
-/

namespace Leasehold

/-! ### Rounding down -/

/-- **A cursor as it is read back** after it was written. -/
def Cursor.stored (c : Cursor) : Cursor := { c with time := c.time.floor }

/-- **An aggregation as it is read back** after it was written. -/
def Aggregation.stored (a : Aggregation) : Aggregation :=
  { a with
    lastRun := ⟨a.lastRun.incremental.map Instant.floor, a.lastRun.full.map Instant.floor⟩
    cursor := a.cursor.map Cursor.stored }

theorem Instant.map_millis_floor (t : Option Instant) :
    (t.map floor).map millis = t.map millis := by
  rw [Option.map_map]
  exact congrArg (Option.map · t) (funext millis_floor)

namespace Store

variable {s s' : Store} {a : Aggregation} {h : WebHook}

theorem instant?_map_millis (t : Option Instant) :
    instant? (t.map Instant.millis) = .ok (t.map Instant.floor) := by
  cases t with
  | none => rfl
  | some t =>
    rw [Option.map_some, instant?, instant_millis]
    rfl

/-! ### One row of a table -/

/-- **At most the rows of one number have changed**, and none has come, gone or moved. -/
def OnlyAt {α : Type} (number : α → Int) (id : Int) (rows rows' : List α) : Prop :=
  List.Forall₂ (fun r r' => number r' = number r ∧ (number r ≠ id → r' = r)) rows rows'

section Table

variable {α : Type} {number : α → Int} {id : Int} {f : α → α}

theorem onlyAt_map_ite (hf : ∀ r, number (f r) = number r) (rows : List α) :
    OnlyAt number id rows (rows.map fun r => if number r = id then f r else r) := by
  rw [OnlyAt, List.forall₂_map_right_iff, List.forall₂_same]
  intro r _
  split
  · rename_i hid
    exact ⟨hf r, fun hne => absurd hid hne⟩
  · exact ⟨rfl, fun _ => rfl⟩

/-- The row of a number is found as it was rewritten. -/
theorem find?_rewritten (hf : ∀ r, number (f r) = number r) {rows : List α} {r : α}
    (hr : rows.find? (fun r => number r = id) = some r) :
    (rows.map fun r => if number r = id then f r else r).find? (fun r => number r = id) =
      some (f r) := by
  rw [find?_map_ite_self (fun r _ => by rw [hf]) fun r hr => of_decide_eq_true hr, hr]
  rfl

/-- There is a row of a number after rewriting where there was one before. -/
theorem any_rewritten (hf : ∀ r, number (f r) = number r) (rows : List α) :
    (rows.map fun r => if number r = id then f r else r).any (fun r => number r = id) =
      rows.any fun r => number r = id := by
  rw [List.any_map]
  refine congrArg rows.any (funext fun r => ?_)
  by_cases hr : number r = id
  · simp [hr, hf]
  · simp [hr]

/-- Rewriting rows once more, in a way that changes nothing any more. -/
theorem rewritten_rewritten {g : α → α} (id : Int) (hf : ∀ r, number (f r) = number r)
    (hg : ∀ r, g (f r) = f r) (rows : List α) :
    ((rows.map fun r => if number r = id then f r else r).map
        fun r => if number r = id then g r else r) =
      rows.map fun r => if number r = id then f r else r := by
  rw [List.map_map]
  refine List.map_congr_left fun r _ => ?_
  by_cases hr : number r = id
  · simp [hr, hf, hg]
  · simp [hr]

end Table

/-! ### Aggregations -/

/-- **Reading the row that an aggregation was written into.** -/
theorem AggregationRow.read_write {r : AggregationRow} (hid : r.id = a.id)
    (htarget : r.target = a.target)
    (hruntimes : ∀ m, ∀ x ∈ (a.stats.get m).runtimes, reread? x = some x) :
    (AggregationRow.write a r).read = .ok a.stored := by
  have hstats : ∀ m, readStats m (AggregationRow.write a r).stats = .ok (a.stats.get m) := by
    intro m
    have hcolumn : (AggregationRow.write a r).stats.get m = .written (a.stats.get m) := by
      cases m with
      | incremental => rfl
      | full => rfl
    rw [readStats, hcolumn, StatsText.read?_written (hruntimes m)]
  have hincremental : instant? (AggregationRow.write a r).lastRun.incremental =
      .ok (a.lastRun.incremental.map Instant.floor) := instant?_map_millis _
  have hfull : instant? (AggregationRow.write a r).lastRun.full =
      .ok (a.lastRun.full.map Instant.floor) := instant?_map_millis _
  rw [read, readCursor_write, hincremental, hfull, hstats, hstats]
  obtain ⟨id, target, enabled, lastRun, cursor, total, processed, stats⟩ := a
  obtain rfl : r.id = id := hid
  obtain rfl : r.target = target := htarget
  rfl

/-- **Writing what was read** leaves the row as it is. -/
theorem AggregationRow.write_stored (a : Aggregation) (r : AggregationRow) :
    AggregationRow.write a.stored (AggregationRow.write a r) = AggregationRow.write a r := by
  have hcursor : (a.cursor.map Cursor.stored).map (fun c => c.time.millis) =
      a.cursor.map fun c => c.time.millis := by
    rw [Option.map_map]
    exact congrArg (Option.map · a.cursor) (funext fun c => Instant.millis_floor c.time)
  have hevent : (a.cursor.map Cursor.stored).map Cursor.event = a.cursor.map Cursor.event := by
    rw [Option.map_map]
    rfl
  simp only [write, Aggregation.stored, Instant.map_millis_floor, hcursor, hevent]

/-- **What saving an aggregation comes to**: it is read back with its times rounded down. -/
structure KeepsAggregation (s : Store) (a : Aggregation) (s' : Store) : Prop where
  /-- What is read back. -/
  read : s'.aggregation? a.id = .ok (some a.stored)
  /-- The texts of its statistics read as the statistics, character by character. -/
  texts : ∀ m, (StatsText.foreign (a.stats.get m).toJson.compact).read? = some (a.stats.get m)
  /-- All other rows are as they were. -/
  rows : OnlyAt AggregationRow.id a.id s.aggregations s'.aggregations
  /-- So are all other tables. -/
  tables : s' = { s with aggregations := s'.aggregations }
  /-- Saving what was read back changes nothing more. -/
  again : s'.saveAggregation a.stored = (.ok (), s')

theorem keepsAggregation_saveAggregation {r : AggregationRow}
    (hr : s.aggregations.find? (·.id = a.id) = some r) (htarget : r.target = a.target)
    (hrecorded : ∀ m, (a.stats.get m).IsRecorded)
    (hruntimes : ∀ m, ∀ x ∈ (a.stats.get m).runtimes, reread? x = some x) :
    ∃ s', s.saveAggregation a = (.ok (), s') ∧ s.KeepsAggregation a s' := by
  have hmatch := List.find?_some hr
  have hid : r.id = a.id := of_decide_eq_true hmatch
  have hnumber : ∀ r, (AggregationRow.write a r).id = r.id := fun _ => rfl
  have hhas : s.hasAggregation a.id = true :=
    List.any_eq_true.2 ⟨r, List.mem_of_find?_eq_some hr, decide_eq_true hid⟩
  refine ⟨_, if_pos hhas, ?_, ?_, onlyAt_map_ite hnumber s.aggregations, rfl, ?_⟩
  · rw [aggregation?, findAggregation?, changeAggregation, find?_rewritten hnumber hr]
    exact congrArg (Except.map some) (AggregationRow.read_write hid htarget hruntimes)
  · exact fun m => StatsText.read?_foreign (hrecorded m) (hruntimes m)
  · have hagain := rewritten_rewritten a.id hnumber (AggregationRow.write_stored a) s.aggregations
    refine (if_pos ((any_rewritten hnumber s.aggregations).trans hhas)).trans ?_
    exact congrArg (fun rows => (Except.ok (), { s with aggregations := rows })) hagain

theorem saveAggregation_of_missing (hmissing : ∀ r ∈ s.aggregations, r.id ≠ a.id) :
    s.saveAggregation a = (.error (.noAggregation a.id), s) := by
  have hhas : s.hasAggregation a.id = false := by
    simpa [hasAggregation] using hmissing
  rw [saveAggregation, hhas]
  rfl

/-! ### Web hooks -/

/-- **What saving the failure state of a web hook comes to**: the web hook is read back with its
time rounded down. -/
structure KeepsHook (s : Store) (h : WebHook) (s' : Store) : Prop where
  /-- What is read back. -/
  read : s'.hook? h.id = .ok (some h.stored)
  /-- All other rows are as they were. -/
  rows : OnlyAt HookRow.id h.id s.hooks s'.hooks
  /-- So are all other tables. -/
  tables : s' = { s with hooks := s'.hooks }
  /-- Saving what was read back changes nothing more. -/
  again : s'.saveFailureState h.stored = (.ok (), s')

theorem HookRow.write_stored (h : WebHook) (r : HookRow) :
    (r.write h).write h.stored = r.write h := by
  simp only [write, WebHook.stored, Instant.map_millis_floor]

theorem keepsHook_saveFailureState {r : HookRow} (hr : s.hooks.find? (·.id = h.id) = some r)
    (hproject : r.project = h.project) (hurl : r.url = h.url) :
    ∃ s', s.saveFailureState h = (.ok (), s') ∧ s.KeepsHook h s' := by
  have hmatch := List.find?_some hr
  have hid : r.id = h.id := of_decide_eq_true hmatch
  have hnumber : ∀ r : HookRow, (r.write h).id = r.id := fun _ => rfl
  have hhas : s.hooks.any (·.id = h.id) = true :=
    List.any_eq_true.2 ⟨r, List.mem_of_find?_eq_some hr, decide_eq_true hid⟩
  refine ⟨_, if_pos hhas, ?_, onlyAt_map_ite hnumber s.hooks, rfl, ?_⟩
  · rw [hook?, find?_rewritten hnumber hr]
    exact congrArg (Except.map some) (HookRow.read_write hid.symm hproject.symm hurl.symm)
  · have hagain := rewritten_rewritten h.id hnumber (HookRow.write_stored h) s.hooks
    refine (if_pos ((any_rewritten hnumber s.hooks).trans hhas)).trans ?_
    exact congrArg (fun rows => (Except.ok (), { s with hooks := rows })) hagain

theorem saveFailureState_of_missing (hmissing : ∀ r ∈ s.hooks, r.id ≠ h.id) :
    s.saveFailureState h = (.error (.noHook h.id), s) := by
  have hhas : s.hooks.any (·.id = h.id) = false := by
    simpa using hmissing
  rw [saveFailureState, hhas]
  rfl

/-! ### Events -/

/-- Reading the first rows of those that can all be read. -/
theorem mapM_limited {ε α β : Type} {f : α → Except ε β} {as : List α} {bs : List β}
    (h : as.mapM f = .ok bs) (limit : Nat) :
    (limited limit as).mapM f = .ok (limited limit bs) := by
  have htake : ∀ n, (as.take n).mapM f = .ok (bs.take n) := by
    intro n
    induction as generalizing bs n with
    | nil =>
      obtain rfl : [] = bs := Except.ok.inj h
      rw [List.take_nil, List.take_nil]
      exact h
    | cons a as ih =>
      rw [List.mapM_cons] at h
      obtain ⟨b, hb, h⟩ := exists_of_bind_eq_ok h
      obtain ⟨bs, hbs, h⟩ := exists_of_bind_eq_ok h
      cases h
      cases n with
      | zero => rfl
      | succ n =>
        rw [List.take_succ_cons, List.take_succ_cons, List.mapM_cons, hb, ih hbs n]
        rfl
  unfold limited
  split
  · exact htake limit
  · exact h

/-- Rows in their order are cut where another one belongs. -/
theorem exists_place {rows : List EventRow} (row : EventRow)
    (hsorted : rows.Pairwise fun a b => a.noLater b = true) :
    ∃ front back, rows = front ++ back ∧ (∀ r ∈ front, r.noLater row = true) ∧
      ∀ r ∈ back, ¬r.noLater row = true := by
  induction rows with
  | nil => exact ⟨[], [], rfl, by simp, by simp⟩
  | cons a rows ih =>
    obtain ⟨ha, hrows⟩ := List.pairwise_cons.1 hsorted
    by_cases hrow : a.noLater row = true
    · obtain ⟨front, back, rfl, hfront, hback⟩ := ih hrows
      exact ⟨a :: front, back, rfl, List.forall_mem_cons.2 ⟨hrow, hfront⟩, hback⟩
    · refine ⟨[], a :: rows, rfl, nofun, List.forall_mem_cons.2 ⟨hrow, fun r hr hlater => ?_⟩⟩
      exact hrow (EventRow.noLater_trans (ha r hr) hlater)

theorem pairwise_middle {α : Type} {R : α → α → Prop} {front back : List α} {a : α}
    (h : (front ++ back).Pairwise R) (hfront : ∀ x ∈ front, R x a) (hback : ∀ x ∈ back, R a x) :
    (front ++ a :: back).Pairwise R := by
  obtain ⟨hpairsfront, hpairsback, hcross⟩ := List.pairwise_append.1 h
  refine List.pairwise_append.2 ⟨hpairsfront, List.pairwise_cons.2 ⟨hback, hpairsback⟩, ?_⟩
  exact fun x hx => List.forall_mem_cons.2 ⟨hfront x hx, hcross x hx⟩

/-- **An added row takes its place** among the rows ahead. -/
theorem rowsAhead_addEvent (hs : s.Numbered) {target : Int} {cursor : Option Cursor} (value : Int)
    (t : Instant) {row : EventRow} (hrow : row = ⟨s.nextEvent, target, t.millis, value⟩)
    (hafter : row.isAfter cursor = true) :
    ∃ front back, s.rowsAhead target cursor = front ++ back ∧
      (s.addEvent target value t).2.rowsAhead target cursor = front ++ row :: back ∧
      (∀ r ∈ front, r.noLater row = true) ∧ ∀ r ∈ back, ¬r.noLater row = true := by
  have hsorted : (s.rowsAhead target cursor).Pairwise fun a b => a.noLater b = true :=
    pairwise_noLater _
  have hids := id_ne_rowsAhead hs.event_ne target cursor
  have hperm : (s.rowsAfter target cursor).Perm (s.rowsAhead target cursor) :=
    (List.mergeSort_perm _ _).symm
  have hnew : ∀ r ∈ s.rowsAhead target cursor, r.id ≠ row.id := by
    intro r hr
    have hlt := hs.event_lt r (List.mem_filter.1 (hperm.symm.subset hr)).1
    rw [hrow]
    exact Int.ne_of_lt hlt
  obtain ⟨front, back, hcut, hfront, hback⟩ := exists_place row hsorted
  rw [hcut] at hsorted hids hperm hnew
  refine ⟨front, back, hcut, rowsAhead_eq ?_ ?_ ?_, hfront, hback⟩
  · have hpasses : [row].filter (fun r => r.target = target && r.isAfter cursor) = [row] := by
      refine List.filter_eq_self.2 (List.forall_mem_singleton.2 ?_)
      rw [hafter, Bool.and_true, decide_eq_true_eq, hrow]
    have hadded : (s.addEvent target value t).2.rowsAfter target cursor =
        s.rowsAfter target cursor ++ [row] := by
      rw [rowsAfter, addEvent, List.filter_append, ← hrow, hpasses]
      rfl
    rw [hadded]
    exact (List.perm_append_singleton row _).trans ((hperm.cons row).trans List.perm_middle.symm)
  · refine pairwise_middle hsorted hfront fun r hr => ?_
    exact ((Bool.or_eq_true _ _).mp (EventRow.noLater_total r row)).resolve_left (hback r hr)
  · exact pairwise_middle hids (fun r hr => hnew r (List.mem_append_left _ hr))
      fun r hr => (hnew r (List.mem_append_right _ hr)).symm

/-- **An added event turns up** in the pages of its target after a cursor, whatever their limit:
between the events that come before it and those that come after it. -/
def TurnsUp (s s' : Store) (e : Event) (cursor : Option Cursor) : Prop :=
  ∃ earlier later,
    (∀ limit, s.eventsAfter e.target cursor limit = .ok (limited limit (earlier ++ later))) ∧
    (∀ limit, s'.eventsAfter e.target cursor limit =
      .ok (limited limit (earlier ++ e :: later))) ∧
    (∀ x ∈ earlier, x.cursor.before e.cursor = true) ∧
    ∀ x ∈ later, e.cursor.before x.cursor = true

/-- Rows that can all be read give the pages that their events do. -/
theorem eventsAfter_of_rowsAhead {target : Int} {cursor : Option Cursor} {es : List Event}
    (h : (s.rowsAhead target cursor).mapM EventRow.read = .ok es) (limit : Nat) :
    s.eventsAfter target cursor limit = .ok (limited limit es) := mapM_limited h limit

theorem isAfter_of_before {cursor : Option Cursor} {row : EventRow} {t : Instant}
    (hmillis : row.millis = t.millis)
    (h : ∀ c ∈ cursor, c.stored.before ⟨t.floor, row.id⟩ = true) : row.isAfter cursor = true := by
  cases cursor with
  | none => rfl
  | some c =>
    have hc := h c rfl
    change (c.time.floor < t.floor || (c.time.floor = t.floor && c.event < row.id)) = true at hc
    simp only [Bool.or_eq_true, Bool.and_eq_true, decide_eq_true_eq, Instant.lt_def,
      Instant.ext_iff, Instant.floor] at hc
    simp only [EventRow.isAfter, Bool.or_eq_true, Bool.and_eq_true, decide_eq_true_eq, hmillis]
    omega

/-- An event with the time of an instant can be read. -/
theorem exists_read {r : EventRow} (h : IsInstant r.millis) : ∃ e, r.read = .ok e := by
  obtain ⟨t, ht⟩ := h
  rw [EventRow.read, ← ht, instant_millis]
  exact ⟨_, rfl⟩

theorem turnsUp_addEvent (hs : s.Numbered) {target : Int} {cursor : Option Cursor} (value : Int)
    (t : Instant) (hread : ∀ r ∈ s.rowsAfter target cursor, ∃ e, r.read = .ok e)
    (hcursor : ∀ c ∈ cursor, c.stored.before ⟨t.floor, s.nextEvent⟩ = true) :
    s.TurnsUp (s.addEvent target value t).2 ⟨s.nextEvent, target, t.floor, value⟩ cursor := by
  generalize hrow : (⟨s.nextEvent, target, t.millis, value⟩ : EventRow) = row
  have hafter : row.isAfter cursor = true := by
    refine isAfter_of_before (t := t) ?_ ?_
    · rw [← hrow]
    · rw [← hrow]
      exact hcursor
  have he : row.read = .ok ⟨s.nextEvent, target, t.floor, value⟩ := by
    rw [← hrow, EventRow.read, instant_millis]
    rfl
  obtain ⟨front, back, hahead, hahead', hfront, hback⟩ :=
    rowsAhead_addEvent hs value t hrow.symm hafter
  have hperm : (s.rowsAfter target cursor).Perm (front ++ back) :=
    hahead ▸ (List.mergeSort_perm _ _).symm
  have hold : ∀ r ∈ front ++ back, (∃ e, r.read = .ok e) ∧ r.id < row.id := by
    intro r hr
    have hmem := hperm.symm.subset hr
    refine ⟨hread r hmem, ?_⟩
    rw [← hrow]
    exact hs.event_lt r (List.mem_filter.1 hmem).1
  obtain ⟨earlier, hearlier⟩ := exists_mapM_eq_ok fun r hr => (hold r (List.mem_append_left _ hr)).1
  obtain ⟨later, hlater⟩ := exists_mapM_eq_ok fun r hr => (hold r (List.mem_append_right _ hr)).1
  refine ⟨earlier, later, eventsAfter_of_rowsAhead ?_, eventsAfter_of_rowsAhead ?_, ?_, ?_⟩
  · rw [hahead, List.mapM_append, hearlier, hlater]
    rfl
  · rw [hahead', List.mapM_append, hearlier, List.mapM_cons, he, hlater]
    rfl
  · intro x hx
    obtain ⟨r, hr, hrx⟩ := mem_of_mapM_ok hearlier hx
    have hplace := EventRow.noLater_iff.1 (hfront r hr)
    have hid := (hold r (List.mem_append_left _ hr)).2
    refine (before_iff hrx he).2 ?_
    omega
  · intro x hx
    obtain ⟨r, hr, hrx⟩ := mem_of_mapM_ok hlater hx
    have hplace := hback r hr
    rw [EventRow.noLater_iff] at hplace
    have hid := (hold r (List.mem_append_right _ hr)).2
    refine (before_iff he hrx).2 ?_
    omega

/-! ### All together -/

/-- **What is written is read back**, up to rounding its times down to whole milliseconds, and no
time that is written is ever rejected. -/
theorem written_is_read_back (s : Store) :
    -- An aggregation with the number and the target of a row.
    (∀ (a : Aggregation) (r : AggregationRow), s.aggregations.find? (·.id = a.id) = some r →
      r.target = a.target → (∀ m, (a.stats.get m).IsRecorded) →
      (∀ m, ∀ x ∈ (a.stats.get m).runtimes, reread? x = some x) →
      ∃ s', s.saveAggregation a = (.ok (), s') ∧ s.KeepsAggregation a s') ∧
    (∀ a : Aggregation, (∀ r ∈ s.aggregations, r.id ≠ a.id) →
      s.saveAggregation a = (.error (.noAggregation a.id), s)) ∧
    -- An event, for each cursor that it comes after.
    (∀ (target value : Int) (t : Instant) (cursor : Option Cursor), s.Numbered →
      (∀ r ∈ s.rowsAfter target cursor, ∃ e, r.read = .ok e) →
      (∀ c ∈ cursor, c.stored.before ⟨t.floor, s.nextEvent⟩ = true) →
      ∃ s', s.addEvent target value t = (⟨s.nextEvent, target, t.floor, value⟩, s') ∧
        s.TurnsUp s' ⟨s.nextEvent, target, t.floor, value⟩ cursor) ∧
    -- A web hook with the number, the project and the address of a row.
    (∀ (h : WebHook) (r : HookRow), s.hooks.find? (·.id = h.id) = some r →
      r.project = h.project → r.url = h.url →
      ∃ s', s.saveFailureState h = (.ok (), s') ∧ s.KeepsHook h s') ∧
    (∀ h : WebHook, (∀ r ∈ s.hooks, r.id ≠ h.id) →
      s.saveFailureState h = (.error (.noHook h.id), s)) ∧
    -- A time that is rejected after some writes was there before them, and no instant has it.
    ∀ (ws : List Write) (ms : Int), (Write.runAll s ws).Rejects ms →
      s.HasTime ms ∧ ¬IsInstant ms := by
  refine ⟨?_, fun a => saveAggregation_of_missing, ?_, ?_, fun h => saveFailureState_of_missing, ?_⟩
  · intro a r hr htarget hrecorded hruntimes
    exact keepsAggregation_saveAggregation hr htarget hrecorded hruntimes
  · intro target value t cursor hs hread hcursor
    exact ⟨_, rfl, turnsUp_addEvent hs value t hread hcursor⟩
  · intro h r hr hproject hurl
    exact keepsHook_saveFailureState hr hproject hurl
  · intro ws ms hrejects
    obtain ⟨htime, hoff⟩ := hrejects.hasTime_of_runAll
    exact ⟨htime, hoff.not_isInstant⟩

/-- A store with a row in each table. -/
def smallTables : Store :=
  { aggregations := [{ id := 1, target := 7 }, { id := 2, target := 8 }]
    nextAggregation := 3
    events := [⟨1, 7, -2, 40⟩, ⟨2, 7, 3, 2⟩]
    nextEvent := 3
    hooks := [{ id := 1, project := 10, url := "http://localhost/hook" }]
    nextHook := 2 }

/-- A nanosecond before the start of 1970. -/
def beforeEpoch : Instant := ⟨-1, by decide, by decide⟩

/-- An aggregation with times at both ends of the line, and one run of two and a half seconds. -/
def extremes : Aggregation :=
  { id := 2
    target := 8
    enabled := false
    lastRun := ⟨some ⟨-8334601228799999999999, by decide, by decide⟩, some beforeEpoch⟩
    cursor := some ⟨.last, 1⟩
    total := -5
    processed := 3
    stats := ⟨({} : RunStats).record (.ofMillis 2500) 3, {}⟩ }

/-- A web hook that backs off until the end of the line. -/
def endlessHook : WebHook :=
  { id := 1, project := 10, url := "http://localhost/hook", disabledUntil := some .last }

/-- The times of an aggregation, of an event and of a web hook are rounded down, also before 1970
and at the ends of the line. -/
theorem written_is_read_back_extremes :
    (∃ s', smallTables.saveAggregation extremes = (.ok (), s') ∧
      s'.aggregation? 2 = .ok (some { extremes with
        lastRun := ⟨some ⟨-8334601228800000000000, by decide, by decide⟩,
          some ⟨-1000000, by decide, by decide⟩⟩
        cursor := some ⟨⟨8210266876799999000000, by decide, by decide⟩, 1⟩ })) ∧
    (∃ s', smallTables.addEvent 7 5 beforeEpoch =
        (⟨3, 7, ⟨-1000000, by decide, by decide⟩, 5⟩, s') ∧
      smallTables.TurnsUp s' ⟨3, 7, ⟨-1000000, by decide, by decide⟩, 5⟩ none) ∧
    ∃ s', smallTables.saveFailureState endlessHook = (.ok (), s') ∧
      s'.hook? 1 = .ok (some { endlessHook with
        disabledUntil := some ⟨8210266876799999000000, by decide, by decide⟩ }) := by
  obtain ⟨hsave, -, hadd, hhook, -, -⟩ := written_is_read_back smallTables
  have hepoch : beforeEpoch.floor = ⟨-1000000, by decide, by decide⟩ := by decide +kernel
  have hlast : Instant.last.floor = ⟨8210266876799999000000, by decide, by decide⟩ := by
    decide +kernel
  refine ⟨?_, ?_, ?_⟩
  · have hrecorded : ∀ m, (extremes.stats.get m).IsRecorded := by
      intro m
      cases m with
      | incremental => exact .record .empty _ (by decide)
      | full => exact .empty
    have hruntimes : ∀ m, ∀ x ∈ (extremes.stats.get m).runtimes, reread? x = some x := by
      intro m
      cases m with
      | incremental => decide +kernel
      | full => nofun
    obtain ⟨s', hsaved, hkeeps⟩ := hsave extremes { id := 2, target := 8 } rfl rfl hrecorded
      hruntimes
    have hfirst : Instant.floor ⟨-8334601228799999999999, by decide, by decide⟩ =
        ⟨-8334601228800000000000, by decide, by decide⟩ := by decide +kernel
    have hread := hkeeps.read
    rw [Aggregation.stored, extremes] at hread
    simp only [Option.map_some, Cursor.stored, hfirst, hepoch, hlast] at hread
    exact ⟨s', hsaved, hread⟩
  · rw [← hepoch]
    refine hadd 7 5 beforeEpoch none ?_ (fun r hr => ?_) fun c hc => absurd hc (by simp)
    · constructor <;> simp [smallTables]
    · have hmem : r ∈ smallTables.events := (List.mem_filter.1 hr).1
      rcases List.mem_pair.1 hmem with rfl | rfl
      · exact exists_read ⟨⟨-2000000, by decide, by decide⟩, by decide⟩
      · exact exists_read ⟨⟨3000000, by decide, by decide⟩, by decide⟩
  · obtain ⟨s', hsaved, hkeeps⟩ := hhook endlessHook
      { id := 1, project := 10, url := "http://localhost/hook" } rfl rfl rfl
    have hread := hkeeps.read
    rw [WebHook.stored, endlessHook] at hread
    simp only [Option.map_some, hlast] at hread
    exact ⟨s', hsaved, hread⟩

end Store

end Leasehold
