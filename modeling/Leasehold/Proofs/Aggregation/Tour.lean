import Leasehold.Proofs.Aggregation.Soundness
import Leasehold.Proofs.Aggregation.Steps
import Leasehold.Proofs.Aggregation.Turns

/-!
# A run of the worker is one tour through what is due

The worker takes its aggregations batch by batch, from a table that it changes as it goes. Seen
from outside it makes a single **tour** (`Leasehold.Shift.tour`): one aggregation after another, in
the order of their turns, until the budget has run out. The batches only say when the table is
looked at again, and a look in between shows what is left of the tour
(`Leasehold.Shift.dueInOrder_last_tour`): an aggregation that was visited is not due any more,
whatever became of its step, and nothing else has changed
(`Leasehold.Shift.exists_store_tour`).

* `Leasehold.Visit`, `Leasehold.Tour` – a visit of one row, and a tour;
* `Leasehold.Shift.visitAll_eq_tour` – a batch is a tour;
* `Leasehold.Shift.runBatches_cases` – so are all batches together, unless one cannot be loaded.

A batch with a row that cannot be read ends the run with the fault of that row, before any of that
batch is visited. How much of the tour was made then depends on where the batches end.
-/

namespace Leasehold

open Store (AggregationRow)

/-- **A step that ended is counted.** -/
def Tally.count (t : Tally) : Except StepError Shift.Outcome → Tally
  | .ok o => { t with processed := t.processed + 1, records := t.records + o.processed }
  | .error _ => { t with failed := t.failed + 1 }

/-- **What a tour goes by**: what its steps meet with, how many events they take at a time, and the
mode and the cutoff of the run. -/
structure Terms where
  /-- What the steps meet with. -/
  circumstances : Circumstances
  /-- How many events a step takes at a time. -/
  pageSize : Nat
  /-- The mode. -/
  mode : Mode
  /-- The cutoff. -/
  cutoff : Instant

/-- **A visit**: the row whose turn it was, the shifts before and after, and how the step ended. -/
structure Visit where
  /-- The row. -/
  row : AggregationRow
  /-- The shift when its turn came. -/
  before : Shift
  /-- How its step ended. -/
  answer : Except StepError Shift.Outcome
  /-- The shift when the worker had done with it. -/
  after : Shift

/-- **A tour**: visits, whether the budget had run out after the last one, and the shift then. -/
structure Tour where
  /-- The visits, the first one first. -/
  visits : List Visit
  /-- Whether the budget had run out. -/
  isOver : Bool
  /-- The shift at the end. -/
  last : Shift

/-- A tour after one more visit. -/
def Tour.cons (v : Visit) (t : Tour) : Tour := { t with visits := v :: t.visits }

/-- A tour and then another one. -/
def Tour.append (t t' : Tour) : Tour := { t' with visits := t.visits ++ t'.visits }

/-- What a tour counts. -/
def Tour.count (t : Tour) (tally : Tally) : Tally :=
  t.visits.foldl (fun tally v => tally.count v.answer) tally

theorem Tour.count_append (t t' : Tour) (tally : Tally) :
    (t.append t').count tally = t'.count (t.count tally) :=
  List.foldl_append

/-- Why a run stops that has made a tour. -/
def Tour.stopReason (t : Tour) : StopReason :=
  if t.isOver then .overTime else .caughtUp

theorem Tour.stopReason_eq_caughtUp {t : Tour} : t.stopReason = .caughtUp ↔ t.isOver = false := by
  cases h : t.isOver <;> simp [stopReason, h]

theorem Tour.stopReason_eq_overTime {t : Tour} : t.stopReason = .overTime ↔ t.isOver = true := by
  cases h : t.isOver <;> simp [stopReason, h]

namespace Shift

variable {cs : Circumstances} {size : Nat} {m : Mode} {cutoff : Instant} {a : Aggregation}
  {p : Terms} {s s' s'' : Shift} {r : AggregationRow} {rs rows : List AggregationRow}

/-! ### One visit -/

/-- **Time has passed and rows have changed**, but events, leases, budget and connection are the
same. -/
structure Follows (s s' : Shift) : Prop where
  /-- The events. -/
  events : s'.store.events = s.store.events
  /-- The leases in the store. -/
  leases : s'.store.leases = s.store.leases
  /-- The lease service. -/
  service : s'.world.leases = s.world.leases
  /-- Whether the database is poisoned. -/
  isPoisoned : s'.world.database.isPoisoned = s.world.database.isPoisoned
  /-- The budget began when it began. -/
  start : s'.budget.start = s.budget.start
  /-- The budget allows what it allowed. -/
  allowed : s'.budget.allowed = s.budget.allowed

theorem Follows.refl (s : Shift) : s.Follows s := ⟨rfl, rfl, rfl, rfl, rfl, rfl⟩

theorem Follows.trans (h : s.Follows s') (h' : s'.Follows s'') : s.Follows s'' :=
  ⟨h'.events.trans h.events, h'.leases.trans h.leases, h'.service.trans h.service,
    h'.isPoisoned.trans h.isPoisoned, h'.start.trans h.start, h'.allowed.trans h.allowed⟩

theorem Within.follows {id : Int} (h : Within id s s') : s.Follows s' :=
  ⟨h.store.events, h.store.leases, h.service, h.isPoisoned, h.start, h.allowed⟩

theorem follows_begin (c : Circumstance) (target : Int) (s : Shift) :
    s.Follows (s.begin c target) := ⟨rfl, rfl, rfl, rfl, rfl, rfl⟩

/-- The shift in which the step of an aggregation is made. -/
def begun (cs : Circumstances) (a : Aggregation) (s : Shift) : Shift :=
  s.begin (cs s.world.begun a) a.target

/-- **An attempt is refused or it is a step.** -/
theorem attempt_cases (cs : Circumstances) (size : Nat) (a : Aggregation) (m : Mode)
    (cutoff : Instant) (s : Shift) :
    s.attempt cs size a m cutoff = (.error .refused, s.begun cs a) ∨
      ∃ answer s', (s.begun cs a).step size a m cutoff = (answer, s') ∧
        s.attempt cs size a m cutoff = (answer.mapError .store, s') := by
  rw [attempt]
  split
  · exact .inl rfl
  · split
    · rename_i o s' hs
      exact .inr ⟨.ok o, s', hs, rfl⟩
    · rename_i e s' hs
      exact .inr ⟨.error e, s', hs, rfl⟩

/-- What is bound to fail is refused. -/
theorem attempt_of_fails (h : (cs s.world.begun a).fails = true) :
    s.attempt cs size a m cutoff = (.error .refused, s.begun cs a) := by
  rw [attempt]
  exact if_pos h

theorem within_attempt (cs : Circumstances) (size : Nat) (a : Aggregation) (m : Mode)
    (cutoff : Instant) (s : Shift) :
    Within a.id (s.begun cs a) (s.attempt cs size a m cutoff).2 := by
  rcases attempt_cases cs size a m cutoff s with h | ⟨answer, s', hstep, h⟩
  · rw [h]
    exact .refl a.id _
  · have hwithin := within_step size a m cutoff (s.begun cs a)
    rw [hstep] at hwithin
    rwa [h]

theorem within_mark (id : Int) (m : Mode) (t : Instant) (s : Shift) :
    Within id s (s.mark id m t).2 :=
  within_edit (fun st => st.onlyRow_markRun id m t) s

/-- **Marking succeeds** where the database is not poisoned and has the row. -/
theorem mark_of_has {id : Int} (hs : s.world.database.isPoisoned = false)
    (ha : s.store.hasAggregation id = true) (m : Mode) (t : Instant) :
    ∃ s', s.mark id m t = (.ok (), s') ∧ s'.store = s.store.changeAggregation id fun r =>
      { r with lastRun := r.lastRun.set m (some t.millis) } := by
  refine ⟨(s.mark id m t).2, ?_, ?_⟩ <;>
    simp_all [mark, run, edit, Store.markRun, store, World.store, World.withStore]

theorem within_visit (cs : Circumstances) (size : Nat) (m : Mode) (cutoff : Instant)
    (a : Aggregation) (t : Tally) (s : Shift) :
    Within a.id (s.begun cs a) (s.visit cs size m cutoff a t).2 := by
  have hattempt := within_attempt cs size a m cutoff s
  rw [visit]
  split
  · rename_i hs
    rwa [hs] at hattempt
  · rename_i s₁ hs
    rw [hs] at hattempt
    have hmark := within_mark a.id m (max s₁.world.now cutoff) s₁
    split <;> rename_i hm <;> rw [hm] at hmark <;> exact hattempt.trans hmark

theorem follows_visit (cs : Circumstances) (size : Nat) (m : Mode) (cutoff : Instant)
    (a : Aggregation) (t : Tally) (s : Shift) : s.Follows (s.visit cs size m cutoff a t).2 :=
  (follows_begin _ _ s).trans (within_visit cs size m cutoff a t s).follows

/-- **A visit succeeds** where the database is not poisoned and has the row, whatever becomes of
the step. What it leaves behind has nothing to do with what was counted before. -/
theorem visit_of_has (cs : Circumstances) (size : Nat) (m : Mode) (cutoff : Instant)
    (hs : s.world.database.isPoisoned = false) (ha : s.store.hasAggregation a.id = true)
    (t : Tally) :
    s.visit cs size m cutoff a t =
      (.ok (t.count (s.attempt cs size a m cutoff).1), (s.visit cs size m cutoff a {}).2) := by
  have hattempt := within_attempt cs size a m cutoff s
  rw [visit, visit]
  cases h : s.attempt cs size a m cutoff with
  | mk answer s₁ =>
    rw [h] at hattempt
    cases answer with
    | ok o => rfl
    | error e =>
      -- The row of a failed step is still there to be marked.
      obtain ⟨s₂, hm, -⟩ := mark_of_has (hattempt.isPoisoned.trans hs)
        ((hattempt.store.hasAggregation a.id).trans ha) m (max s₁.world.now cutoff)
      simp only [hm]
      rfl

/-- **A refused step only moves the marker of its row**, to no earlier than the cutoff. -/
theorem visit_of_refused (hs : s.world.database.isPoisoned = false)
    (ha : s.store.hasAggregation a.id = true)
    (h : (s.attempt cs size a m cutoff).1 = .error .refused) (t : Tally) :
    ∃ u, cutoff ≤ u ∧
      (s.visit cs size m cutoff a t).2.store = s.store.changeAggregation a.id fun r =>
        { r with lastRun := r.lastRun.set m (some u.millis) } := by
  rcases attempt_cases cs size a m cutoff s with hrefused | ⟨answer, s', -, hstep⟩
  · obtain ⟨s₁, hm, hstore⟩ := mark_of_has (s := s.begun cs a) hs ha m
      (max (s.begun cs a).world.now cutoff)
    refine ⟨_, cutoff_le_max (s.begun cs a).world.now cutoff, ?_⟩
    rw [visit, hrefused]
    simp only [hm]
    exact hstore
  · rw [hstep] at h
    cases answer <;> cases h

/-- **A step that ends well has written its row**, and is what the visit leaves. -/
theorem visit_of_ok {o : Outcome} (h : (s.attempt cs size a m cutoff).1 = .ok o) (t : Tally) :
    ∃ a' : Aggregation, a'.id = a.id ∧ a'.target = a.target ∧
      (s.visit cs size m cutoff a t).2.store =
        s.store.changeAggregation a.id (AggregationRow.write a') ∧
      (o.caughtUp = true ∧ s.store.rowsAfter a.target a'.cursor = [] ∨
        o.caughtUp = false ∧ (s.visit cs size m cutoff a t).2.IsOver) := by
  rcases attempt_cases cs size a m cutoff s with hrefused | ⟨answer, s', hstep, hattempt⟩
  · rw [hrefused] at h
    cases h
  · rw [hattempt] at h
    cases answer with
    | error e => cases h
    | ok o' =>
      cases h
      obtain ⟨a', hid, htarget, hstore, hcases⟩ := step_cases hstep
      refine ⟨a', hid, htarget, ?_⟩
      rw [visit, hattempt]
      exact ⟨hstore, hcases⟩

/-- **Where every event can be read, only refused steps fail.** -/
theorem attempt_of_readable (hs : s.world.database.isPoisoned = false)
    (ha : s.store.hasAggregation a.id = true)
    (hevents : ∀ r ∈ s.store.events, ∃ e, r.read = .ok e) {e : StepError}
    (h : (s.attempt cs size a m cutoff).1 = .error e) : e = .refused := by
  rcases attempt_cases cs size a m cutoff s with hrefused | ⟨answer, s', hstep, hattempt⟩
  · rw [hrefused] at h
    exact (Except.error.inj h).symm
  · obtain ⟨o, ho⟩ := step_of_has (s := s.begun cs a) hs ha hevents size m cutoff
    rw [hstep] at ho
    rw [hattempt, show answer = .ok o from ho] at h
    cases h

/-! ### Visits on a tour -/

/-- **A shift can go through rows**: they are rows of the store, each of its own number, and the
database is not poisoned. -/
structure CanVisit (rows : List AggregationRow) (s : Shift) : Prop where
  /-- The database is not poisoned. -/
  isPoisoned : s.world.database.isPoisoned = false
  /-- No two rows of the store have the same number. -/
  id_ne : s.store.aggregations.Pairwise fun a b => a.id ≠ b.id
  /-- Neither have those to go through. -/
  rows_ne : rows.Pairwise fun a b => a.id ≠ b.id
  /-- They are rows of the store. -/
  mem : ∀ r ∈ rows, r ∈ s.store.aggregations

theorem CanVisit.hasAggregation (h : s.CanVisit rows) (hr : r ∈ rows) :
    s.store.hasAggregation r.id = true :=
  List.any_eq_true.2 ⟨r, h.mem r hr, decide_eq_true rfl⟩

theorem CanVisit.sublist (h : s.CanVisit rows) (hrs : rs.Sublist rows) : s.CanVisit rs :=
  ⟨h.isPoisoned, h.id_ne, h.rows_ne.sublist hrs, fun r hr => h.mem r (hrs.subset hr)⟩

/-- The shift after a visit. -/
def afterVisit (p : Terms) (a : Aggregation) (s : Shift) : Shift :=
  (s.visit p.circumstances p.pageSize p.mode p.cutoff a {}).2

theorem within_afterVisit (p : Terms) (a : Aggregation) (s : Shift) :
    Within a.id (s.begun p.circumstances a) (s.afterVisit p a) :=
  within_visit p.circumstances p.pageSize p.mode p.cutoff a {} s

theorem follows_afterVisit (p : Terms) (a : Aggregation) (s : Shift) :
    s.Follows (s.afterVisit p a) :=
  follows_visit p.circumstances p.pageSize p.mode p.cutoff a {} s

/-- The shift after a visit, and after the question whether the budget has run out. -/
def visited (p : Terms) (a : Aggregation) (s : Shift) : Shift := (s.afterVisit p a).check.2

theorem within_visited (p : Terms) (a : Aggregation) (s : Shift) :
    Within a.id (s.begun p.circumstances a) (s.visited p a) :=
  (within_afterVisit p a s).trans (within_check a.id _)

theorem follows_visited (p : Terms) (a : Aggregation) (s : Shift) : s.Follows (s.visited p a) :=
  (follows_begin _ _ s).trans (within_visited p a s).follows

/-- **The worker can visit the first row**, and counts how its step ended. -/
theorem CanVisit.visit (h : s.CanVisit (r :: rs)) (ha : r.read = .ok a) (t : Tally) :
    s.visit p.circumstances p.pageSize p.mode p.cutoff a t =
      (.ok (t.count (s.attempt p.circumstances p.pageSize a p.mode p.cutoff).1),
        s.afterVisit p a) :=
  visit_of_has p.circumstances p.pageSize p.mode p.cutoff h.isPoisoned
    (id_of_read ha ▸ h.hasAggregation List.mem_cons_self) t

/-- **After a visit the worker can go on** with the rows that are left. -/
theorem CanVisit.visited (h : s.CanVisit (r :: rs)) (ha : r.read = .ok a) :
    (s.visited p a).CanVisit rs := by
  have hwithin := within_visited p a s
  have hid := id_of_read ha
  obtain ⟨hne, hrs⟩ := List.pairwise_cons.1 h.rows_ne
  refine ⟨hwithin.isPoisoned.trans h.isPoisoned, hwithin.store.id_ne h.id_ne, hrs, ?_⟩
  intro r' hr'
  refine hwithin.store.mem (h.mem r' (List.mem_cons_of_mem r hr')) ?_
  rw [← hid]
  exact (hne r' hr').symm

theorem target_of_read (h : r.read = .ok a) : a.target = r.target :=
  (AggregationRow.read_eq_ok h).2.1

/-- The visit of a row that was read. -/
def visitOf (p : Terms) (r : AggregationRow) (a : Aggregation) (s : Shift) : Visit :=
  ⟨r, s, (s.attempt p.circumstances p.pageSize a p.mode p.cutoff).1, s.afterVisit p a⟩

/-- **A tour through rows**, which ends when the budget has run out, or before a row that cannot be
read. -/
def tour (p : Terms) : List AggregationRow → Shift → Tour
  | [], s => ⟨[], false, s⟩
  | r :: rs, s =>
    match r.read with
    | .error _ => ⟨[], false, s⟩
    | .ok a =>
      if (s.afterVisit p a).IsOver then ⟨[s.visitOf p r a], true, s.visited p a⟩
      else (tour p rs (s.visited p a)).cons (s.visitOf p r a)

end Shift

/-- **What a visit on a tour is**, of a tour that began with some shift. -/
structure Visit.Made (p : Terms) (s : Shift) (v : Visit) : Prop where
  /-- Its row was there. -/
  canVisit : v.before.CanVisit [v.row]
  /-- Events, budget and connection were the same when its turn came. -/
  before : s.Follows v.before
  /-- And when the worker had done with it. -/
  after : s.Follows v.after
  /-- The row was read, and a step of it attempted. -/
  eq : ∃ a, v.row.read = .ok a ∧ v = v.before.visitOf p v.row a

namespace Shift

variable {p : Terms} {a : Aggregation} {s : Shift} {r : AggregationRow}
  {rs rows rest : List AggregationRow}

/-! ### What a tour is made of -/

theorem made_visitOf (h : s.CanVisit (r :: rs)) (ha : r.read = .ok a) :
    (s.visitOf p r a).Made p s where
  canVisit := h.sublist (List.singleton_sublist.2 List.mem_cons_self)
  before := .refl s
  after := follows_afterVisit p a s
  eq := ⟨a, ha, rfl⟩

/-- A tour visits rows that were read, and attempts a step of each. -/
theorem eq_visitOf_of_mem_tour {v : Visit} (hv : v ∈ (s.tour p rows).visits) :
    ∃ a, v.row.read = .ok a ∧ v = v.before.visitOf p v.row a := by
  fun_induction tour p rows s with
  | case1 s => cases hv
  | case2 r rs s e hr => cases hv
  | case3 r rs s a ha hover =>
    rw [List.mem_singleton.1 hv]
    exact ⟨a, ha, rfl⟩
  | case4 r rs s a ha hover ih =>
    rcases List.mem_cons.1 hv with rfl | hv
    · exact ⟨a, ha, rfl⟩
    · exact ih hv

/-- **A tour is made of visits**, one after another. -/
theorem made_tour (h : s.CanVisit rows) : ∀ v ∈ (s.tour p rows).visits, v.Made p s := by
  fun_induction tour p rows s with
  | case1 s =>
    intro v hv
    cases hv
  | case2 r rs s e hr =>
    intro v hv
    cases hv
  | case3 r rs s a ha hover =>
    intro v hv
    rw [List.mem_singleton.1 hv]
    exact made_visitOf h ha
  | case4 r rs s a ha hover ih =>
    intro v hv
    rcases List.mem_cons.1 hv with rfl | hv
    · exact made_visitOf h ha
    · have hmade := ih (h.visited ha) v hv
      have hfollows := follows_visited p a s
      exact ⟨hmade.canVisit, hfollows.trans hmade.before, hfollows.trans hmade.after, hmade.eq⟩

/-- **A tour keeps to the order of the rows** and leaves none out. -/
theorem rows_tour (p : Terms) (rows : List AggregationRow) (s : Shift) :
    (s.tour p rows).visits.map Visit.row <+: rows := by
  fun_induction tour p rows s with
  | case1 s => exact List.prefix_rfl
  | case2 r rs s e hr => exact List.nil_prefix
  | case3 r rs s a ha hover => exact List.cons_prefix_cons.2 ⟨rfl, List.nil_prefix⟩
  | case4 r rs s a ha hover ih => exact List.cons_prefix_cons.2 ⟨rfl, ih⟩

/-- A tour visits its first row, if that can be read. -/
theorem prefix_visits_tour (ha : r.read = .ok a) :
    [s.visitOf p r a] <+: (s.tour p (r :: rs)).visits := by
  rw [tour, ha]
  simp only
  split
  · exact List.prefix_rfl
  · exact List.cons_prefix_cons.2 ⟨rfl, List.nil_prefix⟩

/-- **A tour that is not over went through all rows**, if all can be read. -/
theorem rows_tour_of_not_isOver (hrows : ∀ r ∈ rows, ∃ a, r.read = .ok a)
    (h : (s.tour p rows).isOver = false) : (s.tour p rows).visits.map Visit.row = rows := by
  fun_induction tour p rows s with
  | case1 s => rfl
  | case2 r rs s e hr =>
    obtain ⟨a, ha⟩ := hrows r List.mem_cons_self
    rw [hr] at ha
    cases ha
  | case3 r rs s a ha hover => cases h
  | case4 r rs s a ha hover ih =>
    exact congrArg (r :: ·) (ih (fun r' hr' => hrows r' (List.mem_cons_of_mem r hr')) h)

/-- **A tour is over at the first visit after which the budget has run out**, and otherwise it has
no such visit. -/
theorem isOver_tour (p : Terms) (rows : List AggregationRow) (s : Shift) :
    ((s.tour p rows).isOver = true ∧ ∃ front last,
      (s.tour p rows).visits = front ++ [last] ∧ last.after.IsOver ∧
        ∀ v ∈ front, ¬v.after.IsOver) ∨
      ((s.tour p rows).isOver = false ∧ ∀ v ∈ (s.tour p rows).visits, ¬v.after.IsOver) := by
  fun_induction tour p rows s with
  | case1 s => exact .inr ⟨rfl, List.forall_mem_nil _⟩
  | case2 r rs s e hr => exact .inr ⟨rfl, List.forall_mem_nil _⟩
  | case3 r rs s a ha hover => exact .inl ⟨rfl, [], _, rfl, hover, List.forall_mem_nil _⟩
  | case4 r rs s a ha hover ih =>
    rcases ih with ⟨hend, front, last, hvisits, hlast, hfront⟩ | ⟨hend, hvisits⟩
    · refine .inl ⟨hend, s.visitOf p r a :: front, last, ?_, hlast, ?_⟩
      · rw [Tour.cons, hvisits, List.cons_append]
      · exact List.forall_mem_cons.2 ⟨hover, hfront⟩
    · exact .inr ⟨hend, List.forall_mem_cons.2 ⟨hover, hvisits⟩⟩

/-- The steps that were begun on a tour. -/
theorem begun_tour (p : Terms) (rows : List AggregationRow) (s : Shift) :
    (s.tour p rows).last.world.begun =
      ((s.tour p rows).visits.map fun v => v.row.target).reverse ++ s.world.begun := by
  fun_induction tour p rows s with
  | case1 s => rfl
  | case2 r rs s e hr => rfl
  | case3 r rs s a ha hover =>
    rw [(within_visited p a s).begun]
    exact congrArg (· :: s.world.begun) (target_of_read ha)
  | case4 r rs s a ha hover ih =>
    have hbegun := (within_visited p a s).begun
    change _ = a.target :: s.world.begun at hbegun
    rw [hbegun, target_of_read ha] at ih
    rw [Tour.cons, ih, List.map_cons, List.reverse_cons, List.append_assoc]
    rfl

theorem follows_tour (p : Terms) (rows : List AggregationRow) (s : Shift) :
    s.Follows (s.tour p rows).last := by
  fun_induction tour p rows s with
  | case1 s => exact .refl s
  | case2 r rs s e hr => exact .refl s
  | case3 r rs s a ha hover => exact follows_visited p a s
  | case4 r rs s a ha hover ih => exact (follows_visited p a s).trans ih

/-! ### What a visit leaves of its row -/

section Made

variable {v : Visit} {o : Outcome}

/-- **What a visit leaves of its row**, where it has changed that row alone. -/
theorem eq_of_mem_made (h : v.Made p s) {f : AggregationRow → AggregationRow}
    (hstore : v.after.store = v.before.store.changeAggregation v.row.id f)
    (hr : r ∈ v.after.store.aggregations) (hid : r.id = v.row.id) : r = f v.row := by
  rw [hstore] at hr
  obtain ⟨r₀, hr₀, rfl⟩ := Store.mem_changeAggregation.1 hr
  by_cases h₀ : r₀.id = v.row.id
  · rw [if_pos h₀, AggregationRow.eq_of_id_eq h.canVisit.id_ne hr₀
      (h.canVisit.mem v.row List.mem_cons_self) h₀]
  · rw [if_neg h₀] at hid
    exact absurd hid h₀

/-- **A refused step moves nothing but the marker of its row.** -/
theorem row_of_refused (h : v.Made p s) (hv : v.answer = .error .refused)
    (hr : r ∈ v.after.store.aggregations) (hid : r.id = v.row.id) :
    ∃ u : Instant, p.cutoff ≤ u ∧
      r = { v.row with lastRun := v.row.lastRun.set p.mode (some u.millis) } := by
  obtain ⟨a, ha, heq⟩ := h.eq
  have hida := id_of_read ha
  have hhas := h.canVisit.hasAggregation List.mem_cons_self
  rw [hida] at hhas
  rw [heq] at hv
  obtain ⟨u, hu, hstore⟩ := visit_of_refused h.canVisit.isPoisoned hhas hv {}
  refine ⟨u, hu, eq_of_mem_made
    (f := fun r => { r with lastRun := r.lastRun.set p.mode (some u.millis) }) h ?_ hr hid⟩
  rw [hida, ← hstore, heq]
  rfl

/-- **A step that ends well has written its row**, and if it caught up, no event of the target is
left after the cursor it wrote. -/
theorem row_of_ok (h : v.Made p s) (hv : v.answer = .ok o) (hr : r ∈ v.after.store.aggregations)
    (hid : r.id = v.row.id) :
    ∃ a' : Aggregation, r = AggregationRow.write a' v.row ∧
      (o.caughtUp = true → s.store.rowsAfter v.row.target a'.cursor = []) := by
  obtain ⟨a, ha, heq⟩ := h.eq
  rw [heq] at hv
  obtain ⟨a', -, -, hstore, hcases⟩ := visit_of_ok hv {}
  rw [target_of_read ha, Store.rowsAfter_congr h.before.events] at hcases
  refine ⟨a', eq_of_mem_made h ?_ hr hid, fun hcaught => ?_⟩
  · rw [id_of_read ha, ← hstore, heq]
    rfl
  · rcases hcases with ⟨-, hnone⟩ | ⟨hearly, -⟩
    · exact hnone
    · rw [hearly] at hcaught
      cases hcaught

/-- **A step that stopped early leaves its budget run out**, so the worker finds it so. -/
theorem isOver_of_early (h : v.Made p s) (hv : v.answer = .ok o) (hearly : o.caughtUp = false) :
    v.after.IsOver := by
  obtain ⟨a, -, heq⟩ := h.eq
  rw [heq] at hv ⊢
  obtain ⟨_, -, -, -, hcases⟩ := visit_of_ok hv {}
  rcases hcases with ⟨hcaught, -⟩ | ⟨-, hover⟩
  · rw [hearly] at hcaught
    cases hcaught
  · exact hover

/-- **Where every event can be read, only refused steps fail.** -/
theorem refused_of_readable (h : v.Made p s)
    (hevents : ∀ r ∈ s.store.events, ∃ e, r.read = .ok e) {e : StepError}
    (hv : v.answer = .error e) : e = .refused := by
  obtain ⟨a, ha, heq⟩ := h.eq
  have hhas := h.canVisit.hasAggregation List.mem_cons_self
  rw [id_of_read ha] at hhas
  rw [← h.before.events] at hevents
  rw [heq] at hv
  exact attempt_of_readable h.canVisit.isPoisoned hhas hevents hv

end Made

/-! ### What a tour leaves of the table -/

/-- A visit changes its row in place. -/
theorem exists_store_visited (p : Terms) (s : Shift) (ha : r.read = .ok a) :
    ∃ f : AggregationRow → AggregationRow, (∀ r', (f r').id = r'.id) ∧
      (∀ r', r'.id ≠ r.id → f r' = r') ∧
      (s.visited p a).store = { s.store with aggregations := s.store.aggregations.map f } := by
  obtain ⟨f, hf, hstore⟩ := (within_visited p a s).store
  refine ⟨fun r' => if r'.id = a.id then f r' else r', ?_, ?_, hstore⟩
  · intro r'
    dsimp only
    split
    · exact (hf r').1
    · rfl
  · intro r' hr'
    rw [id_of_read ha] at hr'
    exact if_neg hr'

/-- **A tour changes the rows it visits**, and no other one; and what a visit leaves of its row is
there at the end of the tour. -/
theorem exists_store_tour (h : s.CanVisit rows) :
    ∃ g : AggregationRow → AggregationRow, (∀ r, (g r).id = r.id) ∧
      (s.tour p rows).last.store =
        { s.store with aggregations := s.store.aggregations.map g } ∧
      (∀ r, (∀ v ∈ (s.tour p rows).visits, v.row.id ≠ r.id) → g r = r) ∧
      ∀ v ∈ (s.tour p rows).visits, g v.row ∈ v.after.store.aggregations := by
  fun_induction tour p rows s with
  | case1 s => exact ⟨id, fun r => rfl, by simp, fun r _ => rfl, List.forall_mem_nil _⟩
  | case2 r rs s e hr => exact ⟨id, fun r => rfl, by simp, fun r _ => rfl, List.forall_mem_nil _⟩
  | case3 r rs s a ha hover =>
    obtain ⟨f, hid, hother, hstore⟩ := exists_store_visited p s ha
    refine ⟨f, hid, hstore, ?_, ?_⟩
    · intro r' hr'
      exact hother r' (hr' _ List.mem_cons_self).symm
    · intro v hv
      obtain rfl := List.mem_singleton.1 hv
      change f r ∈ (s.visited p a).store.aggregations
      rw [hstore]
      exact List.mem_map_of_mem (h.mem r List.mem_cons_self)
  | case4 r rs s a ha hover ih =>
    obtain ⟨f, hid, hother, hstore⟩ := exists_store_visited p s ha
    obtain ⟨g, hgid, hgstore, hgother, hgvisits⟩ := ih (h.visited ha)
    -- The rows of later visits have other numbers than the first one.
    have hlater : ∀ v ∈ ((s.visited p a).tour p rs).visits, r.id ≠ v.row.id := by
      intro v hv
      refine (List.pairwise_cons.1 h.rows_ne).1 v.row ?_
      exact (rows_tour p rs _).subset (List.mem_map_of_mem hv)
    refine ⟨fun r' => g (f r'), ?_, ?_, ?_, ?_⟩
    · intro r'
      rw [hgid, hid]
    · rw [Tour.cons, hgstore, hstore, List.map_map]
      rfl
    · intro r' hr'
      obtain ⟨hfirst, hrest⟩ := List.forall_mem_cons.1 hr'
      change g (f r') = r'
      rw [hother r' (Ne.symm hfirst), hgother r' hrest]
    · refine List.forall_mem_cons.2 ⟨?_, ?_⟩
      · change g (f r) ∈ (s.visited p a).store.aggregations
        rw [hgother (f r) fun v hv => (hid r).symm ▸ (hlater v hv).symm, hstore]
        exact List.mem_map_of_mem (h.mem r List.mem_cons_self)
      · intro v hv
        change g (f v.row) ∈ v.after.store.aggregations
        rw [hother v.row (hlater v hv).symm]
        exact hgvisits v hv

/-- However the step of a row ended, the row is not due any more, and all else that was due still
is, in the same order. -/
theorem CanVisit.dueInOrder_visited (h : s.CanVisit (r :: rs)) (ha : r.read = .ok a)
    (hdue : s.store.dueInOrder p.mode p.cutoff.millis = r :: rest) :
    (s.visited p a).store.dueInOrder p.mode p.cutoff.millis = rest := by
  refine Store.dueInOrder_of_dueElsewhere h.id_ne hdue ?_
  have hstore : (s.visited p a).store = (s.afterVisit p a).store := rfl
  rw [id_of_read ha, hstore]
  exact due_visit (h.visit ha {})

/-- **A tour takes its rows from the front of what is due**, and leaves the rest in order. -/
theorem dueInOrder_tour (h : s.CanVisit rows)
    (hdue : s.store.dueInOrder p.mode p.cutoff.millis = rows ++ rest) :
    s.store.dueInOrder p.mode p.cutoff.millis =
      (s.tour p rows).visits.map Visit.row ++
        (s.tour p rows).last.store.dueInOrder p.mode p.cutoff.millis := by
  fun_induction tour p rows s with
  | case1 s => rfl
  | case2 r rs s e hr => rfl
  | case3 r rs s a ha hover =>
    have hrest := h.dueInOrder_visited ha hdue
    change _ = r :: (s.visited p a).store.dueInOrder p.mode p.cutoff.millis
    rw [hrest]
    exact hdue
  | case4 r rs s a ha hover ih =>
    have hrest := h.dueInOrder_visited ha hdue
    change _ = r :: (((s.visited p a).tour p rs).visits.map Visit.row ++ _)
    rw [hdue, Tour.cons, ← ih (h.visited ha) hrest, hrest]
    rfl

/-- **What is due after a tour is what the tour has not come to.** -/
theorem dueInOrder_last_tour (h : s.CanVisit rows) (hrows : ∀ r ∈ rows, ∃ a, r.read = .ok a)
    (hdue : s.store.dueInOrder p.mode p.cutoff.millis = rows ++ rest)
    (hover : (s.tour p rows).isOver = false) :
    (s.tour p rows).last.store.dueInOrder p.mode p.cutoff.millis = rest := by
  have hsplit := dueInOrder_tour h hdue
  rw [hdue, rows_tour_of_not_isOver hrows hover] at hsplit
  exact (List.append_cancel_left hsplit).symm

/-! ### Batches are tours -/

/-- **A batch is a tour.** -/
theorem visitAll_eq_tour {as : List Aggregation} (h : s.CanVisit rows)
    (hrows : List.Forall₂ (fun r a => r.read = .ok a) rows as) (t : Tally) :
    visitAll p.circumstances p.pageSize p.mode p.cutoff as t s =
      (.ok ((s.tour p rows).count t, (s.tour p rows).isOver), (s.tour p rows).last) := by
  induction hrows generalizing s t with
  | nil => rfl
  | @cons r a rs as ha hrest ih =>
    rw [visitAll, h.visit ha t]
    simp only
    rw [check_eq, tour, ha]
    simp only
    by_cases hover : (s.afterVisit p a).IsOver
    · rw [decide_eq_true hover, if_pos hover]
      rfl
    · rw [decide_eq_false hover, if_neg hover]
      exact ih (h.visited ha) _

/-- A tour through some rows and then others. -/
theorem tour_append (hrows : ∀ r ∈ rows, ∃ a, r.read = .ok a)
    (h : (s.tour p rows).isOver = false) (rest : List AggregationRow) :
    s.tour p (rows ++ rest) = (s.tour p rows).append ((s.tour p rows).last.tour p rest) := by
  fun_induction tour p rows s with
  | case1 s => rfl
  | case2 r rs s e hr =>
    obtain ⟨a, ha⟩ := hrows r List.mem_cons_self
    rw [hr] at ha
    cases ha
  | case3 r rs s a ha hover => cases h
  | case4 r rs s a ha hover ih =>
    rw [List.cons_append, tour, ha]
    simp only
    rw [if_neg hover, ih (fun r' hr' => hrows r' (List.mem_cons_of_mem r hr')) h]
    rfl

/-- A tour that is over has not come to what else there is. -/
theorem tour_append_of_isOver (h : (s.tour p rows).isOver = true) (rest : List AggregationRow) :
    s.tour p (rows ++ rest) = s.tour p rows := by
  fun_induction tour p rows s with
  | case1 s => cases h
  | case2 r rs s e hr => cases h
  | case3 r rs s a ha hover =>
    rw [List.cons_append, tour, ha]
    exact if_pos hover
  | case4 r rs s a ha hover ih =>
    rw [List.cons_append, tour, ha]
    simp only
    rw [if_neg hover, ih h]

/-- The rows of a batch are the next ones that are due, and there are some unless none is due. -/
theorem exists_batch (hs : s.world.database.isPoisoned = false) (m : Mode) (cutoff : Instant)
    {limit : Nat} (hlimit : 0 < limit) :
    ∃ rows rest, s.store.dueInOrder m cutoff.millis = rows ++ rest ∧ (rows = [] → rest = []) ∧
      s.batch m cutoff limit = rows.mapM AggregationRow.read := by
  obtain ⟨rest, hrest⟩ :=
    Store.limited_prefix_rows limit (s.store.dueInOrder m cutoff.millis)
  refine ⟨_, rest, hrest.symm, ?_, ?_⟩
  · intro hnil
    rw [Store.limited] at hnil
    split at hnil
    · rcases List.take_eq_nil_iff.1 hnil with hzero | hnone
      · omega
      · exact (List.append_eq_nil_iff.1 (hrest.trans hnone)).2
    · exact (List.append_eq_nil_iff.1 (hrest.trans hnil)).2
  · rw [batch, look, hs]
    rfl

/-- **A shift can go through what is due.** -/
theorem canVisit_due (hs : s.world.database.isPoisoned = false)
    (hid : s.store.aggregations.Pairwise fun a b => a.id ≠ b.id) (m : Mode) (cutoff : Int) :
    s.CanVisit (s.store.dueInOrder m cutoff) :=
  ⟨hs, hid, s.store.id_ne_dueInOrder hid m cutoff, fun _ hr => (Store.mem_dueInOrder.1 hr).1⟩

/-- Numbers are unique after a tour. -/
theorem CanVisit.id_ne_last_tour (h : s.CanVisit rows) (p : Terms) :
    (s.tour p rows).last.store.aggregations.Pairwise fun a b => a.id ≠ b.id := by
  obtain ⟨g, hg, hstore, -⟩ := exists_store_tour (p := p) h
  rw [hstore]
  refine List.pairwise_map.2 (h.id_ne.imp fun {a b} hab => ?_)
  rwa [hg, hg]

/-- **A batch that was loaded** is a tour through the next rows that are due. -/
theorem exists_tour_of_batch (hs : s.world.database.isPoisoned = false)
    (hid : s.store.aggregations.Pairwise fun a b => a.id ≠ b.id) (p : Terms) (t : Tally)
    {batchSize : Nat} {as : List Aggregation}
    (hb : s.batch p.mode p.cutoff (max batchSize 1) = .ok as) :
    ∃ rows rest, s.store.dueInOrder p.mode p.cutoff.millis = rows ++ rest ∧
      (as = [] → rows ++ rest = []) ∧ (∀ r ∈ rows, ∃ a, r.read = .ok a) ∧ s.CanVisit rows ∧
      visitAll p.circumstances p.pageSize p.mode p.cutoff as t s =
        (.ok ((s.tour p rows).count t, (s.tour p rows).isOver), (s.tour p rows).last) := by
  obtain ⟨rows, rest, hdue, hnil, hbatch⟩ := exists_batch hs p.mode p.cutoff
    (Nat.lt_of_lt_of_le Nat.one_pos (Nat.le_max_right batchSize 1))
  rw [hbatch] at hb
  have hread := Store.forall₂_of_mapM_ok hb
  have hcan := (s.canVisit_due hs hid p.mode p.cutoff.millis).sublist
    (hdue ▸ List.sublist_append_left rows rest)
  refine ⟨rows, rest, hdue, ?_, ?_, hcan, visitAll_eq_tour hcan hread t⟩
  · rintro rfl
    obtain rfl : rows = [] := List.forall₂_nil_right_iff.1 hread
    exact hnil rfl
  · exact Store.exists_of_forall₂ hread

/-- The tour through all that is due. -/
def dueTour (p : Terms) (s : Shift) : Tour :=
  s.tour p (s.store.dueInOrder p.mode p.cutoff.millis)

/-- **All batches together are one tour** through what is due, unless some batch cannot be loaded:
then a tour through the batches before it was made, which was not over. -/
theorem runBatches_cases (batchSize : Nat) (t : Tally)
    (hs : s.world.database.isPoisoned = false)
    (hid : s.store.aggregations.Pairwise fun a b => a.id ≠ b.id) :
    (((s.dueTour p).isOver = false →
        (s.dueTour p).visits.map Visit.row = s.store.dueInOrder p.mode p.cutoff.millis) ∧
      runBatches p.circumstances p.pageSize batchSize p.mode p.cutoff t s =
        (.ok ((s.dueTour p).count t, (s.dueTour p).stopReason), (s.dueTour p).last)) ∨
    ∃ rows rest e, s.store.dueInOrder p.mode p.cutoff.millis = rows ++ rest ∧
      (∀ r ∈ rows, ∃ a, r.read = .ok a) ∧ (∃ r ∈ rest, ∀ a, r.read ≠ .ok a) ∧
      (s.tour p rows).isOver = false ∧
      runBatches p.circumstances p.pageSize batchSize p.mode p.cutoff t s =
        (.error e, (s.tour p rows).last) := by
  fun_induction runBatches p.circumstances p.pageSize batchSize p.mode p.cutoff t s with
  | case1 t s e hb =>
    obtain ⟨rows, rest, hdue, -, hbatch⟩ := exists_batch hs p.mode p.cutoff
      (Nat.lt_of_lt_of_le Nat.one_pos (Nat.le_max_right batchSize 1))
    right
    refine ⟨[], rows ++ rest, e, hdue, List.forall_mem_nil _, ?_, rfl, rfl⟩
    -- Were there no row that cannot be read, the batch would have been loaded.
    by_contra hread
    obtain ⟨as, has⟩ : ∃ as, rows.mapM AggregationRow.read = .ok as := by
      refine Store.exists_mapM_eq_ok fun r hr => ?_
      by_contra hr'
      exact hread ⟨r, List.mem_append_left rest hr, fun a ha => hr' ⟨a, ha⟩⟩
    rw [hbatch, has] at hb
    cases hb
  | case2 t s hb =>
    obtain ⟨rows, rest, hdue, hnil, -⟩ := exists_tour_of_batch hs hid p t hb
    rw [hnil rfl] at hdue
    left
    rw [dueTour, hdue]
    exact ⟨fun _ => rfl, rfl⟩
  | case3 t s a as hb e s' hv =>
    obtain ⟨rows, rest, -, -, -, -, htour⟩ := exists_tour_of_batch hs hid p t hb
    rw [htour] at hv
    cases hv
  | case4 t s a as hb t' s' hv =>
    obtain ⟨rows, rest, hdue, -, -, -, htour⟩ := exists_tour_of_batch hs hid p t hb
    rw [htour, Prod.mk.injEq, Except.ok.injEq, Prod.mk.injEq] at hv
    obtain ⟨⟨rfl, hover⟩, rfl⟩ := hv
    left
    rw [dueTour, hdue, tour_append_of_isOver hover, Tour.stopReason, hover]
    exact ⟨nofun, rfl⟩
  | case5 t s a as hb t' s' hv ih =>
    obtain ⟨rows, rest, hdue, -, hrows, hcan, htour⟩ := exists_tour_of_batch hs hid p t hb
    rw [htour, Prod.mk.injEq, Except.ok.injEq, Prod.mk.injEq] at hv
    obtain ⟨⟨rfl, hover⟩, rfl⟩ := hv
    -- The next batch comes from what is left of the order, so both tours are one.
    have hrest := dueInOrder_last_tour hcan hrows hdue hover
    have happend := tour_append hrows hover
    rcases ih ((follows_tour p rows s).isPoisoned.trans hs) (hcan.id_ne_last_tour p) with
      ⟨hall, hrun⟩ | ⟨rows', rest', e, hdue', hrows', hread, hover', hrun⟩
    · left
      rw [dueTour, hrest] at hall hrun
      rw [dueTour, hdue, happend, hrun, Tour.count_append]
      refine ⟨fun hover' => ?_, rfl⟩
      rw [Tour.append, List.map_append, hall hover', rows_tour_of_not_isOver hrows hover]
    · right
      rw [hrest] at hdue'
      refine ⟨rows ++ rows', rest', e, ?_, ?_, hread, ?_, ?_⟩
      · rw [hdue, hdue', List.append_assoc]
      · intro r hr
        exact (List.mem_append.1 hr).elim (hrows r) (hrows' r)
      · rw [happend]
        exact hover'
      · rw [happend, hrun]
        rfl

/-- A run ends with the fault of a batch that cannot be loaded. -/
theorem runBatches_of_error {batchSize : Nat} {e : Store.Fault}
    (hb : s.batch p.mode p.cutoff (max batchSize 1) = .error e) (t : Tally) :
    runBatches p.circumstances p.pageSize batchSize p.mode p.cutoff t s = (.error e, s) := by
  rw [runBatches]
  split <;> rename_i h <;> rw [hb] at h <;> cases h
  rfl

end Shift

end Leasehold
