import Leasehold.Aggregation.Worker
import Leasehold.Proofs.Aggregation.Crew

/-!
# What a step writes that is not its own

A step owns the cursor and the totals of its row, and the marker and the statistics of its mode.
It does not own whether the row is enabled, nor what the other mode has noted there. But each of its
saves writes the whole row (`Leasehold.Store.AggregationRow.write`), from a copy that was loaded
with its batch and may be old by then. So whatever others have written in the meantime is taken
back to what it was when the copy was loaded (`Leasehold.Crew.restores_of_underway`): a target that
was switched off is on again, and a run of the other mode is forgotten
(`Leasehold.Crew.not_kept_contested`).

The two modes take different leases, so steps of both on one row do happen side by side.
-/

namespace Leasehold

open Store (AggregationRow)

/-- The other mode. -/
def Mode.other : Mode → Mode
  | incremental => full
  | full => incremental

theorem PerMode.get_other_set {α : Type} (p : PerMode α) (m : Mode) (a : α) :
    (p.set m a).get m.other = p.get m.other := by
  cases m <;> rfl

/-! ### What a step has from its row -/

/-- **What a step of a mode does not own is in a row as it was in another one**: whether it is
enabled, and marker and statistics of the other mode. -/
structure Mode.Restores (m : Mode) (r₀ r : AggregationRow) : Prop where
  /-- Whether it is enabled. -/
  enabled : r.enabled = r₀.enabled
  /-- The marker of the other mode. -/
  lastRun : r.lastRun.get m.other = r₀.lastRun.get m.other
  /-- The statistics of the other mode, which were read and are written anew. -/
  stats : ∃ s, (r₀.stats.get m.other).read? = some s ∧ r.stats.get m.other = .written s

/-- **An aggregation carries what a step does not own**, as it was loaded. -/
structure Aggregation.Carries (m : Mode) (a b : Aggregation) : Prop where
  /-- Its number. -/
  id : b.id = a.id
  /-- Whether it is enabled. -/
  enabled : b.enabled = a.enabled
  /-- The marker of the other mode. -/
  lastRun : b.lastRun.get m.other = a.lastRun.get m.other
  /-- The statistics of the other mode. -/
  stats : b.stats.get m.other = a.stats.get m.other

namespace Store

theorem read?_of_readStats {m : Mode} {stats : PerMode StatsText} {x : RunStats}
    (h : readStats m stats = .ok x) : (stats.get m).read? = some x := by
  rw [readStats] at h
  split at h
  · rename_i hread
    cases h
    exact hread
  · cases h

/-- What else an aggregation has from its row: all but what a cursor marks. -/
theorem AggregationRow.columns_of_read {r : AggregationRow} {a : Aggregation}
    (h : r.read = .ok a) :
    a.enabled = r.enabled ∧ (∀ m, (a.lastRun.get m).map Instant.millis = r.lastRun.get m) ∧
      ∀ m, (r.stats.get m).read? = some (a.stats.get m) := by
  rw [read] at h
  obtain ⟨cursor, -, h⟩ := exists_of_bind_eq_ok h
  obtain ⟨incrementalRun, hincremental, h⟩ := exists_of_bind_eq_ok h
  obtain ⟨fullRun, hfull, h⟩ := exists_of_bind_eq_ok h
  obtain ⟨incrementalStats, hstats, h⟩ := exists_of_bind_eq_ok h
  obtain ⟨fullStats, hstats', h⟩ := exists_of_bind_eq_ok h
  cases h
  refine ⟨rfl, ?_, ?_⟩
  · rintro (_ | _)
    · exact millis_of_instant? hincremental
    · exact millis_of_instant? hfull
  · rintro (_ | _)
    · exact read?_of_readStats hstats
    · exact read?_of_readStats hstats'

end Store

namespace Aggregation

variable {m : Mode} {a b : Aggregation}

theorem carries_startOf (m : Mode) (a : Aggregation) : a.Carries m (Shift.startOf m a) := by
  cases m <;> exact ⟨rfl, rfl, rfl, rfl⟩

/-- Folding events leaves it alone. -/
theorem Carries.foldAll (h : a.Carries m b) (es : List Event) : a.Carries m (b.foldAll es) := by
  rw [Aggregation.foldAll]
  induction es generalizing b with
  | nil => exact h
  | cons e es ih => exact ih ⟨h.id, h.enabled, h.lastRun, h.stats⟩

/-- So does what a run notes about itself in the end. -/
theorem Carries.result {j : Job} (h : a.Carries j.mode j.aggregation) (runtime : Span)
    (t : Instant) : a.Carries j.mode (j.result runtime t) := by
  refine ⟨h.id, h.enabled, ?_, ?_⟩
  · exact (PerMode.get_other_set _ j.mode _).trans h.lastRun
  · exact (PerMode.get_other_set _ j.mode _).trans h.stats

/-- **Writing it restores what it was loaded with.** -/
theorem Carries.restores {r₀ : AggregationRow} (h : a.Carries m b) (hread : r₀.read = .ok a)
    (r : AggregationRow) : m.Restores r₀ (AggregationRow.write b r) := by
  obtain ⟨henabled, hlastRun, hstats⟩ := AggregationRow.columns_of_read hread
  refine ⟨h.enabled.trans henabled, ?_, a.stats.get m.other, hstats m.other, ?_⟩
  · rw [Store.lastRun_write, h.lastRun, hlastRun]
  · rw [← h.stats]
    cases m <;> rfl

end Aggregation

theorem Job.mode_afterSave {j j' : Job} {isOver : Bool} {answer : Except Store.Fault Unit}
    (h : j.afterSave isOver answer = some j') : j'.mode = j.mode := by
  cases answer with
  | error e => cases h
  | ok u =>
    cases h
    rfl

namespace Crew

variable {ι : Type} [DecidableEq ι] {c c' : Crew ι} {i : ι} {m : Mode} {size : Nat}
  {a : Aggregation} {r₀ : AggregationRow}

/-! ### A step under way, and anybody else -/

/-- **A step is under way since a worker began it** with an aggregation it has loaded. It reads
pages and saves them; in between anybody else may call on the store, in any way. -/
inductive Underway (i : ι) (m : Mode) (size : Nat) (a : Aggregation) : Crew ι → Prop
  /-- It begins. -/
  | begin (c : Crew ι) (ha : a ∈ c.loaded i) :
      Underway i m size a (c.setJob i (some (Job.start m size a)))
  /-- It reads a page. -/
  | read {c : Crew ι} (h : Underway i m size a c) {j j' : Job} (hj : c.job i = some j)
      (hstage : j.stage = .reading) (hread : j.read c.store = some j') :
      Underway i m size a (c.setJob i (some j'))
  /-- It saves a full page. -/
  | save {c : Crew ι} (h : Underway i m size a c) {j j' : Job} {s : Store} (isOver : Bool)
      (hj : c.job i = some j) (hstage : j.stage = .saving)
      (hsave : j.save isOver c.store = (some j', s)) :
      Underway i m size a (c.setBoth i (some j', s))
  /-- Somebody else calls on the store. -/
  | meanwhile {c c' : Crew ι} (h : Underway i m size a c) (hstep : Step c c')
      (hjob : c'.job i = c.job i) : Underway i m size a c'

/-- A step that is under way is part of a run of the crew. -/
theorem Underway.run (h : Underway i m size a c) : ∃ c₀ : Crew ι, a ∈ c₀.loaded i ∧ Run c₀ c := by
  induction h with
  | begin c ha => exact ⟨c, ha, .single (.begin c i m size a ha)⟩
  | read _ hj hstage hread ih =>
    obtain ⟨c₀, ha, hrun⟩ := ih
    exact ⟨c₀, ha, hrun.tail (hread ▸ .read _ i _ hj hstage)⟩
  | save _ isOver hj hstage hsave ih =>
    obtain ⟨c₀, ha, hrun⟩ := ih
    exact ⟨c₀, ha, hrun.tail (hsave ▸ .save _ i _ isOver hj hstage)⟩
  | meanwhile _ hstep _ ih =>
    obtain ⟨c₀, ha, hrun⟩ := ih
    exact ⟨c₀, ha, hrun.tail hstep⟩

/-- **The step keeps the copy it began with**, whatever happens in the store. -/
theorem Underway.carries (h : Underway i m size a c) :
    ∃ j, c.job i = some j ∧ j.mode = m ∧ a.Carries m j.aggregation := by
  induction h with
  | begin c ha =>
    refine ⟨Job.start m size a, ?_, rfl, Aggregation.carries_startOf m a⟩
    rw [setJob_eq_setBoth, job_setBoth]
  | @read c _ j j' hj hstage hread ih =>
    obtain ⟨j₀, hj₀, hmode, hcarries⟩ := ih
    obtain rfl : j = j₀ := Option.some.inj (hj.symm.trans hj₀)
    refine ⟨j', ?_, ?_⟩
    · rw [setJob_eq_setBoth, job_setBoth]
    · rw [Job.read] at hread
      split at hread
      · cases hread
      · cases hread
        exact ⟨hmode, hcarries.foldAll _⟩
  | @save c _ j j' s isOver hj hstage hsave ih =>
    obtain ⟨j₀, hj₀, hmode, hcarries⟩ := ih
    obtain rfl : j = j₀ := Option.some.inj (hj.symm.trans hj₀)
    obtain ⟨hafter, -⟩ := Prod.mk.inj hsave
    refine ⟨j', by rw [job_setBoth], ?_, ?_⟩
    · rwa [Job.mode_afterSave hafter]
    · rwa [Job.aggregation_afterSave hafter]
  | meanwhile _ _ hjob ih =>
    -- Nobody else's call reaches the copy.
    rwa [hjob]

/-- **The last save of a step takes back what others have written**: after it the row is enabled or
not, and has the marker and the statistics of the other mode, as it was when its copy was loaded. -/
theorem restores_of_underway (h : Underway i m size a c) (hread : r₀.read = .ok a) {j : Job}
    (hj : c.job i = some j) (runtime : Span) (t : Instant) :
    ∀ r ∈ (j.close runtime t c.store).aggregations, r.id = r₀.id → m.Restores r₀ r := by
  obtain ⟨j₀, hj₀, rfl, hcarries⟩ := h.carries
  obtain rfl : j = j₀ := Option.some.inj (hj.symm.trans hj₀)
  have hresult := hcarries.result runtime t
  intro r hr hid
  have hid' : r.id = (j.result runtime t).id := by
    rw [hid, hresult.id, (AggregationRow.read_eq_ok hread).1]
  rw [Job.close, Store.saveAggregation] at hr
  split at hr
  · obtain ⟨r₁, -, rfl⟩ := Store.mem_changeAggregation.1 hr
    split at hid' <;> rename_i h₁
    · rw [if_pos h₁]
      exact hresult.restores hread r₁
    · exact absurd hid' h₁
  · rename_i hnone
    exact absurd (List.any_eq_true.2 ⟨r, hr, decide_eq_true hid'⟩) hnone

/-! One worker of each mode has loaded the same row of one event, and somebody switches it off. -/

/-- The store of one aggregation with one event. -/
def contestedStore : Store :=
  ((({} : Store).register 7).2.addEvent 7 10 .epoch).2

/-- A copy of its row. -/
def contestedCopy : Aggregation :=
  { id := 1, target := 7, enabled := true, lastRun := .both none, cursor := none, total := 0,
    processed := 0, stats := .both {} }

/-- Both workers hold the copy. -/
def contestedCrew : Crew Bool where
  store := contestedStore
  loaded := fun _ => [contestedCopy]

/-- The first worker has read the event. -/
def contestedJob : Job :=
  ⟨.incremental, 5, .closing, contestedCopy.foldAll [⟨1, 7, .epoch, 10⟩], 1⟩

/-- The first worker has begun, the row was switched off and marked as run in full mode, and then
the worker has read the event. -/
def disabledCrew : Crew Bool :=
  { contestedCrew.setJob false (some (Job.start .incremental 5 contestedCopy)) with
    store := ((contestedStore.setEnabled 1 false).markRun 1 .full .epoch).2 }.setJob false
      (some contestedJob)

theorem underway_disabledCrew : Underway false .incremental 5 contestedCopy disabledCrew := by
  have hbegin : Underway false .incremental 5 contestedCopy _ :=
    .begin contestedCrew List.mem_cons_self
  have hdisabled := hbegin.meanwhile (.enable _ 1 false) rfl
  have hmarked := hdisabled.meanwhile (.mark _ 1 .full .epoch) rfl
  have hpage : contestedStore.eventsAfter 7 none (max 5 1) = .ok [⟨1, 7, .epoch, 10⟩] := by
    have hrows : contestedStore.rowsAfter 7 none = [⟨1, 7, 0, 10⟩] := rfl
    rw [Store.eventsAfter, hrows, List.mergeSort_singleton]
    rfl
  exact hmarked.read rfl rfl
    ((Job.start .incremental 5 contestedCopy).read_of_eventsAfter hpage)

/-- **The switch is turned back and the mark is lost** when the first worker saves. -/
theorem restores_disabledCrew :
    disabledCrew.store.aggregations.map (fun r => (r.enabled, r.lastRun.full)) =
        [(false, some 0)] ∧
      (contestedJob.close .zero .epoch disabledCrew.store).aggregations.map
        (fun r => (r.enabled, r.lastRun.full)) = [(true, none)] ∧
      ∀ r ∈ (contestedJob.close .zero .epoch disabledCrew.store).aggregations, r.id = 1 →
        Mode.incremental.Restores { id := 1, target := 7 } r :=
  have hread : AggregationRow.read { id := 1, target := 7 } = .ok contestedCopy := rfl
  ⟨rfl, rfl, restores_of_underway underway_disabledCrew hread rfl .zero .epoch⟩

/-! ### The same with steps that run at a stretch -/

/-- A shift on the contested store. -/
def contestedShift : Shift where
  world := { clock := { wall := .epoch }, database := { store := contestedStore } }
  budget := { start := .zero, allowed := .ofSeconds 250 }

/-- A full step at a stretch, and then the row is switched off. -/
def afterFull : Shift :=
  let s := (contestedShift.step defaultPageSize contestedCopy .full .epoch).2
  { s with world := s.world.withStore (s.store.setEnabled 1 false) }

/-- An incremental step at a stretch, on a copy from before the full step. -/
def afterStale : Shift := (afterFull.step defaultPageSize contestedCopy .incremental .epoch).2

/-- **A stale copy switches the row on again and forgets the full run.** -/
theorem not_kept_contested :
    contestedStore.aggregations.map AggregationRow.read = [.ok contestedCopy] ∧
      afterFull.store.aggregations.map (fun r => (r.enabled, r.lastRun.full)) =
        [(false, some 0)] ∧
      afterStale.store.aggregations.map (fun r => (r.enabled, r.lastRun.full)) =
        [(true, none)] := by
  refine ⟨rfl, by decide +kernel, by decide +kernel⟩

end Crew

end Leasehold
