import Leasehold.Proofs.Aggregation.Crew
import Leasehold.Proofs.Aggregation.Tour
import Leasehold.Proofs.World.Actions

/-!
# A run of the worker that nobody disturbs

A run of the worker is many calls on the store: it loads a batch, steps or marks one aggregation
after another, and loads the next batch. A crew may do the same calls with anybody else's in
between; when there are none, the crew ends with the store that `Leasehold.perform` leaves
(`Leasehold.Crew.run_perform`). So what holds after every run of a crew holds after every sequence
of runs of the worker, too, whatever their budgets, batches and circumstances, and whether they end
with a report or with a fault.

Events are added and never changed, and the time of each was an instant when it was added. So all
events of a crew can be read (`Leasehold.Crew.readable_run`).
-/

namespace Leasehold

namespace Store

/-- **Every event of a store can be read.** -/
def EventsReadable (s : Store) : Prop := ∀ r ∈ s.events, ∃ e, r.read = .ok e

variable {s s' : Store}

theorem eventsReadable_congr (h : s'.events = s.events) : s'.EventsReadable ↔ s.EventsReadable := by
  rw [EventsReadable, h, EventsReadable]

theorem EventsReadable.addEvent (hs : s.EventsReadable) (target value : Int) (t : Instant) :
    (s.addEvent target value t).2.EventsReadable := by
  intro r hr
  rcases List.mem_append.1 hr with hr | hr
  · exact hs r hr
  · obtain rfl := List.mem_singleton.1 hr
    refine ⟨⟨s.nextEvent, target, t.floor, value⟩, ?_⟩
    rw [EventRow.read, instant_millis]
    rfl

end Store

namespace Crew

variable {ι : Type} [DecidableEq ι] {c c' : Crew ι} {i : ι}

/-! ### Events -/

/-- One call keeps all events readable. -/
theorem readable_step (hc : c.store.EventsReadable) (h : Step c c') : c'.store.EventsReadable := by
  cases h with
  | register target => exact (Store.eventsReadable_congr (Store.events_register _ target)).2 hc
  | enable id enabled => exact hc
  | mark id m t => exact (Store.eventsReadable_congr (Store.onlyRow_markRun _ id m t).events).2 hc
  | addEvent target value t ht => exact hc.addEvent target value t
  | load i as has => exact hc
  | begin i m pageSize a ha => exact hc
  | read i j hj hstage => exact hc
  | save i j isOver hj hstage =>
    exact (Store.eventsReadable_congr (Store.events_saveAggregation _ _)).2 hc
  | close i j runtime t hj hstage =>
    exact (Store.eventsReadable_congr (Store.events_saveAggregation _ _)).2 hc
  | breakOff i => exact hc

/-- **Every run keeps all events readable.** -/
theorem readable_run (hc : c.store.EventsReadable) (h : Run c c') : c'.store.EventsReadable := by
  induction h with
  | refl => exact hc
  | tail _ hstep ih => exact readable_step ih hstep

/-! ### One aggregation -/

section Undisturbed

variable {cs : Circumstances} {size batchSize : Nat} {m : Mode} {cutoff : Instant}
  {a : Aggregation} {as : List Aggregation} {s : Shift}

/-- A worker whose step has ended is where it was before. -/
theorem setBoth_none (hjob : c.job i = none) (st : Store) :
    c.setBoth i (none, st) = { c with store := st } := by
  rw [setBoth]
  refine congrArg (Crew.mk st c.loaded) ?_
  exact (congrArg (Function.update c.job i) hjob.symm).trans (Function.update_eq_self i c.job)

/-- An attempt, whether or not it is refused. -/
theorem run_attempt (cs : Circumstances) (size : Nat) (m : Mode) (cutoff : Instant)
    (hstore : c.store = s.store) (hjob : c.job i = none) (ha : a ∈ c.loaded i) :
    Run c { c with store := (s.attempt cs size a m cutoff).2.store } := by
  rcases Shift.attempt_cases cs size a m cutoff s with h | ⟨answer, s', hstep, h⟩
  · rw [h]
    change Run c { c with store := s.store }
    rw [← hstore]
  · rw [h]
    have hrun : Run c (c.setBoth i (none, ((s.begun cs a).step size a m cutoff).2.store)) :=
      run_step cutoff hstore ha
    rwa [hstep, setBoth_none hjob] at hrun

/-- A mark that gets the worker past an aggregation. -/
theorem run_mark (id : Int) (m : Mode) (t : Instant) (hstore : c.store = s.store) :
    Run c { c with store := (s.mark id m t).2.store } := by
  cases hp : s.world.database.isPoisoned with
  | true =>
    have hmark : (s.mark id m t).2.store = s.store := by
      rw [Shift.mark, Shift.run, Action.edit_of_poisoned hp]
    rw [hmark, ← hstore]
  | false =>
    have hmark : (s.mark id m t).2.store = (s.store.markRun id m t).2 := by
      rw [Shift.mark, Shift.run, Action.edit_of_sound hp]
      rfl
    rw [hmark, ← hstore]
    exact .single (.mark c id m t)

/-- **One aggregation**: its step, or the mark that gets the worker past it. -/
theorem run_visit (cs : Circumstances) (size : Nat) (m : Mode) (cutoff : Instant) (t : Tally)
    (hstore : c.store = s.store) (hjob : c.job i = none) (ha : a ∈ c.loaded i) :
    Run c { c with store := (s.visit cs size m cutoff a t).2.store } := by
  have hattempt := run_attempt cs size m cutoff hstore hjob ha
  rw [Shift.visit]
  cases h : s.attempt cs size a m cutoff with
  | mk answer s₁ =>
    rw [h] at hattempt
    cases answer with
    | ok o => exact hattempt
    | error e =>
      have hmark := run_mark (c := { c with store := s₁.store }) (s := s₁) a.id m
        (max s₁.world.now cutoff) rfl
      simp only
      split <;> rename_i hm <;> rw [hm] at hmark <;> exact hattempt.trans hmark

/-! ### Batches -/

/-- **One batch** of aggregations that the worker has loaded. -/
theorem run_visitAll (cs : Circumstances) (size : Nat) (m : Mode) (cutoff : Instant) (t : Tally)
    (hstore : c.store = s.store) (hjob : c.job i = none) (has : ∀ a ∈ as, a ∈ c.loaded i) :
    Run c { c with store := (s.visitAll cs size m cutoff as t).2.store } := by
  induction as generalizing c s t with
  | nil =>
    change Run c { c with store := s.store }
    rw [← hstore]
  | cons a as ih =>
    obtain ⟨ha, has⟩ := List.forall_mem_cons.1 has
    have hvisit := run_visit cs size m cutoff t hstore hjob ha
    rw [Shift.visitAll]
    cases hv : s.visit cs size m cutoff a t with
    | mk answer s₁ =>
      rw [hv] at hvisit
      cases answer with
      | error e => exact hvisit
      | ok t₁ =>
        simp only
        rw [Shift.check_eq]
        cases decide s₁.IsOver with
        | true => exact hvisit
        | false => exact hvisit.trans (ih (c := { c with store := s₁.store }) t₁ rfl hjob has)

/-- The aggregations of a batch are read from rows of the store. -/
theorem exists_row_of_batch (h : s.batch m cutoff batchSize = .ok as) :
    ∀ a ∈ as, ∃ r ∈ s.store.aggregations, r.read = .ok a := by
  intro a ha
  rw [Shift.batch, look] at h
  split at h
  · cases h
  · obtain ⟨r, hr, hread⟩ := Store.mem_of_mapM_ok h ha
    have hdue := (Store.limited_sublist _ _).subset hr
    exact ⟨r, (Store.mem_dueInOrder.1 hdue).1, hread⟩

/-- A batch that is loaded and gone through. -/
theorem run_batch (cs : Circumstances) (size : Nat) (t : Tally) (hstore : c.store = s.store)
    (hjob : c.job i = none) (hb : s.batch m cutoff batchSize = .ok as) :
    Run c { c with
      store := (s.visitAll cs size m cutoff as t).2.store
      loaded := Function.update c.loaded i as } := by
  have hrows := exists_row_of_batch hb
  rw [← hstore] at hrows
  have hload := Step.load c i as hrows
  refine (Relation.ReflTransGen.single hload).trans ?_
  refine run_visitAll cs size m cutoff t hstore hjob fun a ha => ?_
  change a ∈ Function.update c.loaded i as i
  rwa [Function.update_self]

/-- **Batch after batch**; the worker still holds the last one in the end. -/
theorem run_runBatches (cs : Circumstances) (size batchSize : Nat) (m : Mode) (cutoff : Instant)
    (t : Tally) (hstore : c.store = s.store) (hjob : c.job i = none) :
    ∃ as, Run c { c with
      store := (s.runBatches cs size batchSize m cutoff t).2.store
      loaded := Function.update c.loaded i as } := by
  fun_induction Shift.runBatches cs size batchSize m cutoff t s generalizing c with
  | case1 t s e hb =>
    refine ⟨c.loaded i, ?_⟩
    rw [Function.update_eq_self, ← hstore]
  | case2 t s hb => exact ⟨[], run_batch cs size t hstore hjob hb⟩
  | case3 t s a as hb e s' hv =>
    have hbatch := run_batch cs size t hstore hjob hb
    rw [hv] at hbatch
    exact ⟨a :: as, hbatch⟩
  | case4 t s a as hb t' s' hv =>
    have hbatch := run_batch cs size t hstore hjob hb
    rw [hv] at hbatch
    exact ⟨a :: as, hbatch⟩
  | case5 t s a as hb t' s' hv ih =>
    have hbatch := run_batch cs size t hstore hjob hb
    rw [hv] at hbatch
    obtain ⟨as', hrest⟩ := ih (c := { c with
      store := s'.store, loaded := Function.update c.loaded i (a :: as) }) rfl hjob
    rw [Function.update_idem] at hrest
    exact ⟨as', hbatch.trans hrest⟩

/-- **A run of the worker that nobody disturbs** is a run of the crew: it leaves the store as
`Leasehold.perform` does, however it ends, and nobody else's hands are touched. -/
theorem run_perform (o : WorkerOptions) (size : Nat) (cs : Circumstances) {w : World}
    (hstore : c.store = w.store) (hjob : c.job i = none) :
    ∃ as, Run c { c with
      store := (perform o size cs w).2.store
      loaded := Function.update c.loaded i as } := by
  obtain ⟨as, hrun⟩ := run_runBatches (s := ⟨{ w with
    clock := (Budget.begin o.maxRuntime w.clock).2 }, (Budget.begin o.maxRuntime w.clock).1⟩)
    cs size o.batchSize o.mode w.now {} hstore hjob
  refine ⟨as, ?_⟩
  rw [perform]
  simp only
  split <;> rename_i h <;> rw [h] at hrun <;> exact hrun

end Undisturbed

end Crew

end Leasehold
