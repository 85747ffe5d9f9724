import Leasehold.Proofs.Aggregation.Words
import Mathlib.Algebra.GroupWithZero.Nat

/-!
# What one run of the worker visits

A run steps the aggregations that are due when it begins, in the order of their turns and each at
most once, and stops after the first one at whose end its budget has run out. What else is in the
table stays as it is, and a step that is refused moves nothing but the marker of its row
(`Leasehold.Visiting`, `Leasehold.exists_visiting_perform`). None of it depends on how many
aggregations are taken at a time.

The sums of a run are made here without bounds, and they are those of the program as long as they
fit into 64 bits (`Leasehold.World.SumsFit`).

Two things can go wrong, and both concern rows that somebody else has written. A row that is due
and cannot be read makes the loading of its batch fail, and the run ends with that fault instead of
a report (`Leasehold.perform_garbledWorld`); the rows before that batch have been visited, and that
is still the beginning of the same order. An event that cannot be read makes a step fail halfway,
after it has saved some pages.
-/

namespace Leasehold

open Store (AggregationRow)

/-! ### The tour of a run -/

/-- **The shift at the beginning of a run**, with its budget begun. -/
def Shift.opening (o : WorkerOptions) (w : World) : Shift :=
  ⟨{ w with clock := (Budget.begin o.maxRuntime w.clock).2 },
    (Budget.begin o.maxRuntime w.clock).1⟩

/-- What the tour of a run goes by. -/
def World.terms (o : WorkerOptions) (size : Nat) (cs : Circumstances) (w : World) : Terms :=
  ⟨cs, size, o.mode, w.now⟩

/-- **The tour of a run** through all that is due when it begins. -/
def World.dueTour (o : WorkerOptions) (size : Nat) (cs : Circumstances) (w : World) : Tour :=
  (Shift.opening o w).dueTour (w.terms o size cs)

/-- The time since the run began, at the end of a visit. -/
def Visit.elapsed (w : World) (v : Visit) : Span := v.after.world.clock.elapsed - w.clock.elapsed

variable {o : WorkerOptions} {size : Nat} {cs : Circumstances} {w : World}

theorem isOver_iff_of_follows {s : Shift} (h : (Shift.opening o w).Follows s) :
    s.IsOver ↔ o.maxRuntime ≤ s.world.clock.elapsed - w.clock.elapsed := by
  rw [Shift.IsOver, h.start, h.allowed]
  rfl

/-- The report of a run that has made a tour. -/
def Tour.report (m : Mode) (t : Tour) : Report where
  mode := m
  tally := t.count {}
  stopReason := t.stopReason
  usage := (t.last.budget.usage t.last.world.clock).1

/-- The world after the report. -/
def Tour.close (t : Tour) : World :=
  { t.last.world with clock := (t.last.budget.usage t.last.world.clock).2 }

theorem perform_eq (o : WorkerOptions) (size : Nat) (cs : Circumstances) (w : World) :
    perform o size cs w =
      match Shift.runBatches (w.terms o size cs).circumstances (w.terms o size cs).pageSize
        o.batchSize (w.terms o size cs).mode (w.terms o size cs).cutoff {} (Shift.opening o w) with
      | (.error e, s) => (.error e, s.world)
      | (.ok (tally, stopReason), s) =>
        (.ok { mode := o.mode, tally, stopReason, usage := (s.budget.usage s.world.clock).1 },
          { s.world with clock := (s.budget.usage s.world.clock).2 }) :=
  rfl

/-- **A run makes its tour and reports it**, or it fails after the beginning of that tour: then the
budget has not run out, and a row that is due cannot be read. -/
theorem perform_cases (o : WorkerOptions) (size : Nat) (cs : Circumstances)
    (hs : w.database.isPoisoned = false)
    (hid : w.store.aggregations.Pairwise fun a b => a.id ≠ b.id) :
    (((w.dueTour o size cs).isOver = false → (w.dueTour o size cs).visits.map Visit.row =
        w.store.dueInOrder o.mode w.now.millis) ∧
      perform o size cs w =
        (.ok ((w.dueTour o size cs).report o.mode), (w.dueTour o size cs).close)) ∨
    ∃ rows rest e, w.store.dueInOrder o.mode w.now.millis = rows ++ rest ∧
      (∀ r ∈ rows, ∃ a, r.read = .ok a) ∧ (∃ r ∈ rest, ∀ a, r.read ≠ .ok a) ∧
      ((Shift.opening o w).tour (w.terms o size cs) rows).isOver = false ∧
      perform o size cs w =
        (.error e, ((Shift.opening o w).tour (w.terms o size cs) rows).last.world) := by
  have hperform := perform_eq o size cs w
  rcases Shift.runBatches_cases (s := Shift.opening o w) (p := w.terms o size cs) o.batchSize {}
    hs hid with
    ⟨hall, hrun⟩ | ⟨rows, rest, e, hdue, hrows, hread, hover, hrun⟩
  · rw [hrun] at hperform
    exact .inl ⟨hall, hperform⟩
  · rw [hrun] at hperform
    exact .inr ⟨rows, rest, e, hdue, hrows, hread, hover, hperform⟩

/-! ### What is visited -/

/-- **What a run of the worker visits**, and what it leaves behind. -/
structure Visiting (o : WorkerOptions) (size : Nat) (cs : Circumstances) (w : World)
    (vs : List Visit) : Prop where
  /-- The visits are the first ones of the tour through all that is due. -/
  made : vs <+: (w.dueTour o size cs).visits
  /-- They keep to the order of what was due in the beginning, and leave none out. -/
  inOrder : vs.map Visit.row <+: w.store.dueInOrder o.mode w.now.millis
  /-- No row is visited twice. -/
  once : vs.Pairwise fun v v' => v.row.id ≠ v'.row.id
  /-- The steps that were begun are those of the visits. -/
  begun : (perform o size cs w).2.begun = (vs.map fun v => v.row.target).reverse ++ w.begun
  /-- The worker goes on as long as its budget lasts. -/
  goesOn : ∀ v ∈ vs.dropLast, v.elapsed w < o.maxRuntime
  /-- It reports that it is over time when the budget has run out at the end of a visit, and
  otherwise that it caught up, having visited all that was due. -/
  stops : ∀ report, (perform o size cs w).1 = .ok report →
    report.stopReason = .overTime ∧ (∃ v ∈ vs.getLast?, o.maxRuntime ≤ v.elapsed w) ∨
      report.stopReason = .caughtUp ∧
        vs.map Visit.row = w.store.dueInOrder o.mode w.now.millis ∧
        ∀ v ∈ vs, v.elapsed w < o.maxRuntime
  /-- Other rows stay as they are, and a refused step moves nothing but the marker of its row. -/
  table : ∃ g : AggregationRow → AggregationRow,
    (perform o size cs w).2.store =
        { w.store with aggregations := w.store.aggregations.map g } ∧
      (∀ r, (∀ v ∈ vs, v.row.id ≠ r.id) → g r = r) ∧
      ∀ v ∈ vs, v.answer = .error .refused → ∃ t, w.now ≤ t ∧
        g v.row = { v.row with lastRun := v.row.lastRun.set o.mode (some t.millis) }
  /-- Where every event can be read, only refused steps fail. -/
  refused : (∀ r ∈ w.store.events, ∃ e, r.read = .ok e) →
    ∀ v ∈ vs, ∀ e, v.answer = .error e → e = .refused

/-- A tour through the first rows that are due makes the visits of a run that leaves what the tour
leaves. -/
theorem visiting_of_tour {rows rest : List AggregationRow}
    (hs : w.database.isPoisoned = false)
    (hid : w.store.aggregations.Pairwise fun a b => a.id ≠ b.id)
    (hdue : w.store.dueInOrder o.mode w.now.millis = rows ++ rest) {t : Tour}
    (ht : t = (Shift.opening o w).tour (w.terms o size cs) rows)
    (hmade : t.visits <+: (w.dueTour o size cs).visits)
    (hstore : (perform o size cs w).2.store = t.last.store)
    (hbegun : (perform o size cs w).2.begun = t.last.world.begun)
    (hreport : ∀ report, (perform o size cs w).1 = .ok report →
      report.stopReason = t.stopReason ∧
        (t.isOver = false → t.visits.map Visit.row = w.store.dueInOrder o.mode w.now.millis)) :
    Visiting o size cs w t.visits := by
  have hcan : (Shift.opening o w).CanVisit rows :=
    (Shift.canVisit_due (s := Shift.opening o w) hs hid o.mode w.now.millis).sublist
      (hdue ▸ List.sublist_append_left rows rest)
  have hrows := Shift.rows_tour (w.terms o size cs) rows (Shift.opening o w)
  have hover := Shift.isOver_tour (w.terms o size cs) rows (Shift.opening o w)
  have hvisits := Shift.made_tour (p := w.terms o size cs) hcan
  rw [← ht] at hrows hover hvisits
  have hiff : ∀ v ∈ t.visits, v.after.IsOver ↔ o.maxRuntime ≤ v.elapsed w := fun v hv =>
    isOver_iff_of_follows (hvisits v hv).after
  have hlt : ∀ v ∈ t.visits, ¬v.after.IsOver → v.elapsed w < o.maxRuntime := by
    intro v hv hgoesOn
    rw [hiff v hv, Span.le_def] at hgoesOn
    rw [Span.lt_def]
    omega
  refine ⟨hmade, ?inOrder, ?once, ?begun, ?goesOn, ?stops, ?table, ?refused⟩
  case inOrder =>
    rw [hdue]
    exact hrows.trans (List.prefix_append rows rest)
  case once =>
    have hne := hcan.rows_ne.sublist hrows.sublist
    rwa [List.pairwise_map] at hne
  case begun =>
    rw [hbegun, ht]
    exact Shift.begun_tour (w.terms o size cs) rows _
  case goesOn =>
    intro v hv
    refine hlt v ((List.dropLast_sublist _).subset hv) ?_
    rcases hover with ⟨-, front, last, heq, -, hfront⟩ | ⟨-, hnone⟩
    · rw [heq, List.dropLast_concat] at hv
      exact hfront v hv
    · exact hnone v ((List.dropLast_sublist _).subset hv)
  case stops =>
    intro report hok
    obtain ⟨hreason, hall⟩ := hreport report hok
    rcases hover with ⟨hend, front, last, heq, hlast, -⟩ | ⟨hend, hnone⟩
    · rw [Tour.stopReason_eq_overTime.2 hend] at hreason
      refine .inl ⟨hreason, last, ?_, (hiff last ?_).1 hlast⟩
      · rw [heq, List.getLast?_concat]
        rfl
      · rw [heq]
        exact List.mem_append_right front List.mem_cons_self
    · rw [Tour.stopReason_eq_caughtUp.2 hend] at hreason
      exact .inr ⟨hreason, hall hend, fun v hv => hlt v hv (hnone v hv)⟩
  case table =>
    obtain ⟨g, hg, hlast, hother, hafter⟩ := Shift.exists_store_tour (p := w.terms o size cs) hcan
    rw [← ht] at hlast hother hafter
    refine ⟨g, hstore.trans hlast, hother, ?_⟩
    intro v hv hrefused
    exact Shift.row_of_refused (hvisits v hv) hrefused (hafter v hv) (hg v.row)
  case refused =>
    intro hevents v hv e he
    exact Shift.refused_of_readable (hvisits v hv) hevents he

/-- A poisoned database ends the run at once. -/
theorem perform_of_poisoned (o : WorkerOptions) (size : Nat) (cs : Circumstances)
    (hs : w.database.isPoisoned = true) :
    perform o size cs w = (.error .poisoned, (Shift.opening o w).world) := by
  have hbatch : (Shift.opening o w).batch (w.terms o size cs).mode (w.terms o size cs).cutoff
      (max o.batchSize 1) = .error .poisoned := by
    rw [Shift.batch, look]
    exact congrArg Prod.fst (if_pos hs)
  rw [perform_eq, Shift.runBatches_of_error hbatch]

theorem visiting_of_poisoned (hs : w.database.isPoisoned = true) : Visiting o size cs w [] := by
  have hperform := perform_of_poisoned o size cs hs
  refine ⟨List.nil_prefix, List.nil_prefix, .nil, ?_, List.forall_mem_nil _, ?_, ?_, ?_⟩
  · rw [hperform]
    rfl
  · intro report hok
    rw [hperform] at hok
    cases hok
  · refine ⟨id, ?_, fun r _ => rfl, List.forall_mem_nil _⟩
    rw [hperform, List.map_id]
    rfl
  · exact fun _ => List.forall_mem_nil _

theorem isPoisoned_of_report {report : Report} (h : (perform o size cs w).1 = .ok report) :
    w.database.isPoisoned = false := by
  cases hs : w.database.isPoisoned with
  | true =>
    rw [perform_of_poisoned o size cs hs] at h
    cases h
  | false => rfl

/-- **A run that ends with a report has made the visits of its tour**, all there are unless it is
over, and left what the tour left. -/
theorem visiting_of_report {report : Report}
    (hid : w.store.aggregations.Pairwise fun a b => a.id ≠ b.id)
    (h : (perform o size cs w).1 = .ok report) :
    Visiting o size cs w (w.dueTour o size cs).visits ∧
      ((w.dueTour o size cs).isOver = false → (w.dueTour o size cs).visits.map Visit.row =
        w.store.dueInOrder o.mode w.now.millis) ∧
      perform o size cs w =
        (.ok ((w.dueTour o size cs).report o.mode), (w.dueTour o size cs).close) := by
  have hs := isPoisoned_of_report h
  rcases perform_cases o size cs hs hid with ⟨hall, hperform⟩ | ⟨_, _, _, -, -, -, -, hperform⟩
  · refine ⟨visiting_of_tour hs hid (List.append_nil _).symm rfl List.prefix_rfl
      ?_ ?_ ?_, hall, hperform⟩
    · rw [hperform]
      rfl
    · rw [hperform]
      rfl
    · intro report hok
      rw [hperform] at hok
      cases hok
      exact ⟨rfl, hall⟩
  · rw [hperform] at h
    cases h

/-- **The visits of a run**: those of its tour whose steps it has begun. -/
def World.visits (o : WorkerOptions) (size : Nat) (cs : Circumstances) (w : World) : List Visit :=
  (w.dueTour o size cs).visits.take ((perform o size cs w).2.begun.length - w.begun.length)

theorem visits_eq {vs : List Visit} (hmade : vs <+: (w.dueTour o size cs).visits)
    (hbegun : (perform o size cs w).2.begun = (vs.map fun v => v.row.target).reverse ++ w.begun) :
    w.visits o size cs = vs := by
  have hlength : (perform o size cs w).2.begun.length - w.begun.length = vs.length := by
    rw [hbegun, List.length_append, List.length_reverse, List.length_map]
    omega
  rw [World.visits, hlength]
  exact (List.prefix_iff_eq_take.1 hmade).symm

theorem Visiting.visits_eq {vs : List Visit} (h : Visiting o size cs w vs) :
    w.visits o size cs = vs :=
  Leasehold.visits_eq h.made h.begun

/-- **Every run has its visits**, whether or not it ends with a report: it takes their rows from the
front of what is due, and leaves the rest in order. -/
theorem exists_visiting_left (o : WorkerOptions) (size : Nat) (cs : Circumstances)
    (hid : w.store.aggregations.Pairwise fun a b => a.id ≠ b.id) :
    ∃ vs, Visiting o size cs w vs ∧
      w.store.dueInOrder o.mode w.now.millis = vs.map Visit.row ++
        (perform o size cs w).2.store.dueInOrder o.mode w.now.millis ∧
      (perform o size cs w).2.store.aggregations.Pairwise fun a b => a.id ≠ b.id := by
  cases hs : w.database.isPoisoned with
  | true =>
    rw [perform_of_poisoned o size cs hs]
    exact ⟨[], visiting_of_poisoned hs, rfl, hid⟩
  | false =>
    have hcan := Shift.canVisit_due (s := Shift.opening o w) hs hid o.mode w.now.millis
    rcases perform_cases o size cs hs hid with
      ⟨-, hperform⟩ | ⟨rows, rest, e, hdue, hrows, -, hover, hperform⟩
    · refine ⟨_, (visiting_of_report hid (congrArg Prod.fst hperform)).1, ?_⟩
      have hleft := Shift.dueInOrder_tour (p := w.terms o size cs) hcan (List.append_nil _).symm
      rw [hperform]
      exact ⟨hleft, hcan.id_ne_last_tour (w.terms o size cs)⟩
    · have hcan := hcan.sublist (hdue ▸ List.sublist_append_left rows rest)
      refine ⟨_, visiting_of_tour hs hid hdue rfl ?_ ?_ ?_ ?_, ?_⟩
      · have happend : w.dueTour o size cs = _ := congrArg
          (fun rows => (Shift.opening o w).tour (w.terms o size cs) rows) hdue
        rw [happend, Shift.tour_append hrows hover]
        exact List.prefix_append _ _
      · rw [hperform]
        rfl
      · rw [hperform]
      · intro report hok
        rw [hperform] at hok
        cases hok
      · have hleft := Shift.dueInOrder_tour (p := w.terms o size cs) hcan hdue
        rw [hperform]
        exact ⟨hleft, hcan.id_ne_last_tour (w.terms o size cs)⟩

theorem exists_visiting (o : WorkerOptions) (size : Nat) (cs : Circumstances)
    (hid : w.store.aggregations.Pairwise fun a b => a.id ≠ b.id) :
    ∃ vs, Visiting o size cs w vs :=
  (exists_visiting_left o size cs hid).imp fun _ h => h.1

/-- **A run ends with the report of its tour** where the rows that are due can be read. -/
theorem perform_of_readable (o : WorkerOptions) (size : Nat) (cs : Circumstances)
    (hs : w.database.isPoisoned = false)
    (hid : w.store.aggregations.Pairwise fun a b => a.id ≠ b.id)
    (hread : ∀ r ∈ w.store.dueInOrder o.mode w.now.millis, ∃ a, r.read = .ok a) :
    perform o size cs w =
      (.ok ((w.dueTour o size cs).report o.mode), (w.dueTour o size cs).close) := by
  rcases perform_cases o size cs hs hid with
    ⟨-, hperform⟩ | ⟨rows, rest, e, hdue, -, ⟨r, hr, hunread⟩, -, -⟩
  · exact hperform
  · obtain ⟨a, ha⟩ := hread r (hdue ▸ List.mem_append_right rows hr)
    exact absurd ha (hunread a)

/-! ### Sums of a run -/

/-- **The sums of a run fit**: those of its visits, and how many events they have folded. -/
structure World.SumsFit (o : WorkerOptions) (size : Nat) (cs : Circumstances) (w : World) :
    Prop where
  /-- The sums of each visit. -/
  visits : ∀ v ∈ w.visits o size cs, v.SumsFit (w.terms o size cs)
  /-- The events of all visits. -/
  records : Cell.InRange ((w.visits o size cs).map Visit.folded).sum

/-- **A run ends with a report**, and did not break off or wrap at a sum before. -/
structure World.Reports (o : WorkerOptions) (size : Nat) (cs : Circumstances) (w : World)
    (report : Report) : Prop where
  /-- The report is its answer. -/
  answer : (perform o size cs w).1 = .ok report
  /-- Its sums fit. -/
  fits : w.SumsFit o size cs

/-- Refused steps make no sums. -/
theorem sumsFit_of_fails (hcs : ∀ ts a, (cs ts a).fails = true) : w.SumsFit o size cs := by
  have hrefused : ∀ v ∈ w.visits o size cs, v.answer = .error .refused := by
    intro v hv
    obtain ⟨a, -, heq⟩ := Shift.eq_visitOf_of_mem_tour (List.mem_of_mem_take hv)
    rw [heq]
    exact congrArg Prod.fst (Shift.attempt_of_fails (hcs _ a))
  refine ⟨fun v hv => Visit.sumsFit_of_refused (hrefused v hv), ?_⟩
  have hnone : ((w.visits o size cs).map Visit.folded).sum = 0 := by
    refine List.sum_eq_zero_iff_forall_eq_nat.2 (List.forall_mem_map.2 fun v hv => ?_)
    rw [Visit.folded, hrefused v hv]
  rw [hnone]
  decide

/-- **Whether the sums of a run fit** can be told from the events ahead of what is due. -/
theorem sumsFit_of_ahead (hs : w.database.isPoisoned = false)
    (hid : w.store.aggregations.Pairwise fun a b => a.id ≠ b.id)
    (hevents : w.store.events.Pairwise fun a b => a.id ≠ b.id)
    (hfits : ∀ r ∈ w.store.dueInOrder o.mode w.now.millis, ∀ a, r.read = .ok a →
      (Shift.opening o w).AheadFits (Shift.startOf o.mode a))
    (hrecords : Cell.InRange ((w.visits o size cs).map Visit.folded).sum) :
    w.SumsFit o size cs := by
  refine ⟨fun v hv => ?_, hrecords⟩
  have hv := List.mem_of_mem_take hv
  have hmade := Shift.made_tour (p := w.terms o size cs)
    (Shift.canVisit_due (s := Shift.opening o w) hs hid o.mode w.now.millis) v hv
  have hrow := (Shift.rows_tour (w.terms o size cs) _ _).subset (List.mem_map_of_mem hv)
  exact hmade.sumsFit hevents (hfits v.row hrow)

/-- **A run visits the beginning of what is due**, of any store, in any circumstances and by any
clock, if its sums fit; and where the rows that are due can be read, it ends with a report and its
batches make no difference. -/
theorem exists_visiting_perform (o : WorkerOptions) (size : Nat) (cs : Circumstances) (w : World)
    (hid : w.store.aggregations.Pairwise fun a b => a.id ≠ b.id) (hfits : w.SumsFit o size cs) :
    (∃ vs, Visiting o size cs w vs) ∧
      (w.database.isPoisoned = false →
        (∀ r ∈ w.store.dueInOrder o.mode w.now.millis, ∃ a, r.read = .ok a) →
          (∃ report, w.Reports o size cs report) ∧
            ∀ batchSize, perform { o with batchSize } size cs w = perform o size cs w ∧
              w.SumsFit { o with batchSize } size cs) := by
  refine ⟨exists_visiting o size cs hid, fun hs hread => ⟨?_, fun batchSize => ?_⟩⟩
  · exact ⟨_, congrArg Prod.fst (perform_of_readable o size cs hs hid hread), hfits⟩
  · -- The tour of a run knows nothing of its batches.
    have hperform : perform { o with batchSize } size cs w = perform o size cs w := by
      rw [perform_of_readable { o with batchSize } size cs hs hid hread,
        perform_of_readable o size cs hs hid hread]
      rfl
    have hvisits : w.visits { o with batchSize } size cs = w.visits o size cs := by
      rw [World.visits, hperform]
      rfl
    exact ⟨hperform, fun v hv => hfits.visits v (hvisits ▸ hv), hvisits ▸ hfits.records⟩

/-- Five aggregations, one of them disabled and one that has run just now. -/
def mixedWorld : World where
  clock := { wall := Instant.epoch + Span.ofSeconds 10, tick := .ofSeconds 1 }
  database := { store := {
    aggregations := [{ id := 1, target := 7, lastRun := ⟨some 5000, none⟩ },
      { id := 2, target := 8, enabled := false }, { id := 3, target := 9 },
      { id := 4, target := 10, lastRun := ⟨some 4000, some 0⟩ },
      { id := 5, target := 11, lastRun := ⟨some 10000, none⟩ }]
    nextAggregation := 6
    events := [⟨1, 9, 3000, 5⟩, ⟨2, 7, 1000, 1⟩]
    nextEvent := 3 } }

/-- The rows of it that are due. -/
def mixedRows : List AggregationRow :=
  [{ id := 3, target := 9 }, { id := 4, target := 10, lastRun := ⟨some 4000, some 0⟩ },
    { id := 1, target := 7, lastRun := ⟨some 5000, none⟩ }]

/-- Each step finds that the wall clock was set back, and that of one target is refused. -/
def rough : Circumstances := fun _ a =>
  { cost := .ofSeconds 2, skew := -5000, fails := a.target = 10 }

/-- One aggregation at a time, and nine seconds for all of them. -/
def hasty : WorkerOptions := { batchSize := 1, maxRuntime := .ofSeconds 9 }

theorem dueInOrder_mixedWorld :
    mixedWorld.store.dueInOrder hasty.mode mixedWorld.now.millis = mixedRows := by
  have hperm : ([mixedRows[2]] ++ mixedRows.take 2).Perm (mixedRows.take 2 ++ [mixedRows[2]]) :=
    List.perm_append_comm
  exact Store.dueInOrder_eq hperm (by decide +kernel) (by decide +kernel)

theorem readable_mixedRows : ∀ r ∈ mixedRows, ∃ a, r.read = .ok a :=
  List.forall_mem_cons.2 ⟨⟨_, rfl⟩, List.forall_mem_cons.2 ⟨⟨_, rfl⟩,
    List.forall_mem_singleton.2 ⟨_, rfl⟩⟩⟩

/-- The tour of a run in rough circumstances. -/
theorem dueTour_rough : mixedWorld.dueTour hasty 1 rough =
    (Shift.opening hasty mixedWorld).tour (mixedWorld.terms hasty 1 rough) mixedRows :=
  congrArg (fun rows => (Shift.opening hasty mixedWorld).tour _ rows) dueInOrder_mixedWorld

theorem perform_rough : perform hasty 1 rough mixedWorld =
    (.ok ((mixedWorld.dueTour hasty 1 rough).report hasty.mode),
      (mixedWorld.dueTour hasty 1 rough).close) :=
  perform_of_readable hasty 1 rough rfl (by decide +kernel)
    (dueInOrder_mixedWorld ▸ readable_mixedRows)

/-- Each of the rows has at most one small event ahead. -/
theorem sumsFit_rough : mixedWorld.SumsFit hasty 1 rough := by
  have hvisits := (visiting_of_report (by decide +kernel)
    (congrArg Prod.fst perform_rough)).1.visits_eq
  refine sumsFit_of_ahead rfl (by decide +kernel) (by decide +kernel) ?_ ?_
  · rw [dueInOrder_mixedWorld]
    refine List.forall_mem_cons.2 ⟨?_, List.forall_mem_cons.2 ⟨?_, List.forall_mem_singleton.2 ?_⟩⟩
    · rintro a ⟨⟩
      have hahead : mixedWorld.store.rowsAhead 9 none = [⟨1, 9, 3000, 5⟩] :=
        List.mergeSort_singleton _
      exact Shift.aheadFits_of_read hahead (.cons rfl .nil) (by decide) (by decide)
    · rintro a ⟨⟩
      have hahead : mixedWorld.store.rowsAhead 10 none = [] := List.mergeSort_nil
      exact Shift.aheadFits_of_read hahead .nil (by decide) (by decide)
    · rintro a ⟨⟩
      have hahead : mixedWorld.store.rowsAhead 7 none = [⟨2, 7, 1000, 1⟩] :=
        List.mergeSort_singleton _
      exact Shift.aheadFits_of_read hahead (.cons rfl .nil) (by decide) (by decide)
  · rw [hvisits, dueTour_rough]
    decide +kernel

/-- **A run in rough circumstances** visits two aggregations of three, the one that was never run
and the one that is refused, whatever its batches. -/
theorem exists_visiting_rough :
    (∃ vs, Visiting hasty 1 rough mixedWorld vs ∧ vs.map (fun v => v.row.target) = [9, 10]) ∧
      (perform { hasty with batchSize := 0 } 1 rough mixedWorld).2.begun = [10, 9] := by
  obtain ⟨⟨vs, hvs⟩, hreads⟩ :=
    exists_visiting_perform hasty 1 rough mixedWorld (by decide +kernel) sumsFit_rough
  rw [dueInOrder_mixedWorld] at hreads
  obtain ⟨-, hbatches⟩ := hreads rfl readable_mixedRows
  have hbegun : (perform hasty 1 rough mixedWorld).2.begun = [10, 9] := by
    rw [perform_rough, Tour.close, dueTour_rough]
    decide +kernel
  refine ⟨⟨vs, hvs, ?_⟩, (hbatches 0).1.symm ▸ hbegun⟩
  have hreverse := hvs.begun
  rw [hbegun] at hreverse
  exact (List.reverse_eq_iff.1 (hreverse.trans (List.append_nil _)).symm)

/-! ### A row that cannot be read -/

/-- Two rows, and somebody else has written the statistics of the second. -/
def garbledWorld : World where
  clock := { wall := .epoch }
  database := { store := {
    aggregations := [{ id := 1, target := 7 },
      { id := 2, target := 8, stats := ⟨.foreign "x", .foreign "\x7b\x7d"⟩ }]
    nextAggregation := 3 } }

/-- The first step uses up the budget. -/
def exhausting : Circumstances := fun _ a =>
  { cost := if a.target = 7 then .ofSeconds 10 else .zero }

/-- **A row that is due and cannot be read ends the run** when its batch is loaded: there is no
report, and no row is visited, though the budget is hardly begun and the first row can be read. -/
theorem perform_garbledWorld :
    garbledWorld.store.dueInOrder .incremental garbledWorld.now.millis =
        garbledWorld.store.aggregations ∧
      (perform { maxRuntime := .ofSeconds 10 } defaultPageSize exhausting garbledWorld).1 =
        .error (.statsUnreadable .incremental) ∧
      (perform { maxRuntime := .ofSeconds 10 } defaultPageSize exhausting garbledWorld).2.begun =
        [] ∧
      (perform { maxRuntime := .ofSeconds 10 } defaultPageSize exhausting
        garbledWorld).2.clock.elapsed = Span.zero := by
  let o : WorkerOptions := { maxRuntime := .ofSeconds 10 }
  have hdue : garbledWorld.store.dueInOrder .incremental garbledWorld.now.millis =
      garbledWorld.store.aggregations :=
    Store.dueInOrder_eq (.refl _) (by decide +kernel) (by decide +kernel)
  have hbatch : (Shift.opening o garbledWorld).batch .incremental garbledWorld.now (max 100 1) =
      (Store.limited (max 100 1) (garbledWorld.store.dueInOrder .incremental
        garbledWorld.now.millis)).mapM AggregationRow.read := rfl
  rw [hdue] at hbatch
  have hperform := perform_eq o defaultPageSize exhausting garbledWorld
  rw [Shift.runBatches_of_error (p := garbledWorld.terms o defaultPageSize exhausting)
    (hbatch.trans rfl)] at hperform
  rw [hperform]
  exact ⟨hdue, rfl, rfl, rfl⟩

end Leasehold
