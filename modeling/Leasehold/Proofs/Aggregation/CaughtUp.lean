import Leasehold.Proofs.Aggregation.Visiting

/-!
# A run that caught up

Two parties ask the budget of a run: each step between two pages, and the worker after each step.
A step that finds it run out stops early, yet it marks its row as run and succeeds like any other,
so the row is not due any more although events of its target are left. What keeps this from going
unnoticed is that the elapsed time never goes back: the worker asks later than the step, and
finds the budget run out as well (`Leasehold.Shift.Within.isOver`).

So a report that the worker caught up can be relied on (`Leasehold.reportsTruly_perform`): nothing
is due any more, and every step of the run that succeeded has read all events of its target. Nothing
is asked of the clock but that its elapsed time never goes back, and it may move at each reading.
-/

namespace Leasehold

open Store (AggregationRow)

namespace Store

variable {s : Store} {a : Aggregation} {r : AggregationRow}

/-- **A row has read all events of its target**: none comes after its cursor. -/
def HasReadAll (s : Store) (r : AggregationRow) : Prop :=
  ∃ cursor, readCursor r = .ok cursor ∧ s.rowsAfter r.target cursor = []

/-- What comes after a cursor depends on its millisecond alone. -/
theorem rowsAfter_floor (s : Store) (target : Int) (cursor : Option Cursor) :
    s.rowsAfter target (cursor.map fun c => { c with time := c.time.floor }) =
      s.rowsAfter target cursor := by
  cases cursor with
  | none => rfl
  | some c =>
    rw [rowsAfter, rowsAfter]
    refine List.filter_congr fun r _ => ?_
    simp only [Option.map_some, EventRow.isAfter, Instant.millis_floor]

theorem hasReadAll_write (h : s.rowsAfter r.target a.cursor = []) :
    s.HasReadAll (AggregationRow.write a r) := by
  refine ⟨_, readCursor_write a r, ?_⟩
  rw [rowsAfter_floor]
  exact h

end Store

variable {o : WorkerOptions} {size : Nat} {cs : Circumstances} {w : World}

/-- **After a tour that is not over every step has caught up** and has read all events. -/
theorem hasReadAll_of_not_isOver {p : Terms} {s : Shift} {rows : List AggregationRow}
    (hcan : s.CanVisit rows) (hover : (s.tour p rows).isOver = false) {v : Visit}
    (hv : v ∈ (s.tour p rows).visits) {outcome : Shift.Outcome} (hanswer : v.answer = .ok outcome) :
    outcome.caughtUp = true ∧
      ∀ r ∈ (s.tour p rows).last.store.aggregations, r.id = v.row.id →
        (s.tour p rows).last.store.HasReadAll r := by
  have hmade := Shift.made_tour hcan v hv
  have hcaught : outcome.caughtUp = true := by
    rcases Shift.isOver_tour p rows s with ⟨hend, -⟩ | ⟨-, hnone⟩
    · rw [hover] at hend
      cases hend
    · by_contra hearly
      exact hnone v hv (Shift.isOver_of_early hmade hanswer (Bool.eq_false_iff.2 hearly))
  refine ⟨hcaught, ?_⟩
  intro r hr hid
  obtain ⟨g, hg, hlast, -, hafter⟩ := Shift.exists_store_tour (p := p) hcan
  rw [hlast] at hr ⊢
  obtain ⟨r₀, hr₀, rfl⟩ := List.mem_map.1 hr
  have hrow : v.row ∈ s.store.aggregations := by
    refine hcan.mem v.row ?_
    exact (Shift.rows_tour p rows s).subset (List.mem_map_of_mem hv)
  obtain rfl : r₀ = v.row := AggregationRow.eq_of_id_eq hcan.id_ne hr₀ hrow ((hg r₀).symm.trans hid)
  obtain ⟨a', hwrite, hnone⟩ := Shift.row_of_ok hmade hanswer (hafter v hv) hid
  rw [hwrite]
  exact Store.hasReadAll_write (hnone hcaught)

/-- **After the tour of a run that is not over nothing is due**, since it went through all that
was. -/
theorem due_dueTour (hs : w.database.isPoisoned = false)
    (hid : w.store.aggregations.Pairwise fun a b => a.id ≠ b.id)
    (hover : (w.dueTour o size cs).isOver = false)
    (hall : (w.dueTour o size cs).visits.map Visit.row =
      w.store.dueInOrder o.mode w.now.millis) :
    (w.dueTour o size cs).last.store.due o.mode w.now.millis = [] := by
  have hcan := Shift.canVisit_due (s := Shift.opening o w) hs hid o.mode w.now.millis
  have hread : ∀ r ∈ w.store.dueInOrder o.mode w.now.millis, ∃ a, r.read = .ok a := by
    intro r hr
    rw [← hall] at hr
    obtain ⟨v, hv, rfl⟩ := List.mem_map.1 hr
    obtain ⟨a, ha, -⟩ := (Shift.made_tour hcan v hv).eq
    exact ⟨a, ha⟩
  have hrest := Shift.dueInOrder_last_tour hcan hread (List.append_nil _).symm hover
  exact List.nil_perm.1 (hrest ▸ Store.dueInOrder_perm _ o.mode w.now.millis)

/-- **What a report says is true.** When it says that the worker caught up, nothing is due any
more, and every step that succeeded caught up and has read all events of its target. When some step
stopped early, it says that the worker was over time. -/
theorem reportsTruly_perform {report : Report}
    (hid : w.store.aggregations.Pairwise fun a b => a.id ≠ b.id)
    (h : (perform o size cs w).1 = .ok report) :
    Visiting o size cs w (w.dueTour o size cs).visits ∧
      (report.stopReason = .caughtUp →
        (perform o size cs w).2.store.due o.mode w.now.millis = [] ∧
          ∀ v ∈ (w.dueTour o size cs).visits, ∀ outcome, v.answer = .ok outcome →
            outcome.caughtUp = true ∧
              ∀ r ∈ (perform o size cs w).2.store.aggregations, r.id = v.row.id →
                (perform o size cs w).2.store.HasReadAll r) ∧
      ((∃ v ∈ (w.dueTour o size cs).visits, ∃ outcome, v.answer = .ok outcome ∧
          outcome.caughtUp = false) →
        report.stopReason = .overTime) := by
  have hs := isPoisoned_of_report h
  obtain ⟨hvisiting, hall, hperform⟩ := visiting_of_report hid h
  rw [hperform] at h
  cases h
  have hcan := Shift.canVisit_due (s := Shift.opening o w) hs hid o.mode w.now.millis
  refine ⟨hvisiting, fun hreason => ?_, ?_⟩
  · have hover := Tour.stopReason_eq_caughtUp.1 hreason
    rw [hperform]
    exact ⟨due_dueTour hs hid hover (hall hover), fun v hv outcome hanswer =>
      hasReadAll_of_not_isOver hcan hover hv hanswer⟩
  · rintro ⟨v, hv, outcome, hanswer, hearly⟩
    refine Tour.stopReason_eq_overTime.2 ?_
    by_contra hover
    have hcaught := (hasReadAll_of_not_isOver hcan (Bool.eq_false_iff.2 hover) hv hanswer).1
    rw [hearly] at hcaught
    cases hcaught

/-- One aggregation with a single event, one that is disabled, and a clock that moves at every
reading. -/
def smallWorld : World where
  clock := { wall := .epoch, costs := [.ofSeconds 1, .ofSeconds 2], tick := .ofSeconds 3 }
  database := { store := {
    aggregations := [{ id := 1, target := 7 }, { id := 2, target := 8, enabled := false }]
    nextAggregation := 3
    events := [⟨1, 7, 3000, 5⟩]
    nextEvent := 2 } }

theorem exists_report_smallWorld (maxRuntime : Span) :
    (perform { maxRuntime } 1 undisturbed smallWorld).1 =
      .ok ((smallWorld.dueTour { maxRuntime } 1 undisturbed).report .incremental) := by
  have hread : ∀ r ∈ smallWorld.store.aggregations, ∃ a, r.read = .ok a :=
    List.forall_mem_cons.2 ⟨⟨_, rfl⟩, List.forall_mem_singleton.2 ⟨_, rfl⟩⟩
  rw [perform_of_readable { maxRuntime } 1 undisturbed rfl (by decide +kernel) fun r hr =>
    hread r (Store.mem_dueInOrder.1 hr).1]

/-- **With time enough the report is that the worker caught up**, and so it did. With three seconds
the step stops after its first page, and the report is that the worker was over time. -/
theorem reportsTruly_smallWorld :
    ((perform {} 1 undisturbed smallWorld).2.store.due .incremental 0 = [] ∧
        ∃ v ∈ (smallWorld.dueTour {} 1 undisturbed).visits, v.answer = .ok ⟨1, true⟩ ∧
          ∀ r ∈ (perform {} 1 undisturbed smallWorld).2.store.aggregations, r.id = v.row.id →
            (perform {} 1 undisturbed smallWorld).2.store.HasReadAll r) ∧
      (∃ v ∈ (smallWorld.dueTour { maxRuntime := .ofSeconds 3 } 1 undisturbed).visits,
          v.answer = .ok ⟨1, false⟩) ∧
        ((smallWorld.dueTour { maxRuntime := .ofSeconds 3 } 1 undisturbed).report
          .incremental).stopReason = .overTime := by
  obtain ⟨-, hcaught, -⟩ := reportsTruly_perform (by decide +kernel)
    (exists_report_smallWorld (.ofSeconds 250))
  obtain ⟨-, -, hover⟩ := reportsTruly_perform (by decide +kernel)
    (exists_report_smallWorld (.ofSeconds 3))
  have hearly : ∃ v ∈ (smallWorld.dueTour { maxRuntime := .ofSeconds 3 } 1 undisturbed).visits,
      v.answer = .ok ⟨1, false⟩ := by
    decide +kernel
  have hall : ∃ v ∈ (smallWorld.dueTour {} 1 undisturbed).visits, v.answer = .ok ⟨1, true⟩ := by
    decide +kernel
  refine ⟨?_, hearly, ?_⟩
  · obtain ⟨hnone, hreads⟩ := hcaught (by decide +kernel)
    obtain ⟨v, hv, hanswer⟩ := hall
    exact ⟨hnone, v, hv, hanswer, (hreads v hv _ hanswer).2⟩
  · obtain ⟨v, hv, hanswer⟩ := hearly
    exact hover ⟨v, hv, _, hanswer, rfl⟩

end Leasehold
