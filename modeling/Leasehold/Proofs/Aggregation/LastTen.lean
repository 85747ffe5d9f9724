import Leasehold.Proofs.Aggregation.Interference
import Leasehold.Proofs.Aggregation.Recording
import Leasehold.Proofs.Store.Statistics
import Mathlib.Data.List.DropRight

/-!
# The statistics of a row are its last ten runs

Every save writes the statistics of both modes, as they were read, and only the last save of a step
that ends well adds a run to those of its mode. So they are written far more often than they change:
page by page, by steps that fail later, and by the steps of the other mode. Runtimes and counts are
two lists, each of them cut to the window on its own, and each goes through its text on the way.

None of this is seen in the statistics. Over any runs of the worker and any single steps, in both
modes and one after another (`Leasehold.RunHistory`), they are the runtimes and the counts of the
last ten steps of their mode and row that ended well, in order
(`Leasehold.RunHistory.statistics_eq`). What carries the proof is that the recent ones of a list and
some more are the recent ones of all of them (`Leasehold.RunStats.recent_recent_append`): it makes
no difference that a step only knows the window.

A runtime is kept as the text of a floating-point number, and is only what it was if that text is
read back as the same number.
-/

namespace Leasehold

open Store (AggregationRow StatsText)

/-! ### The recent ones -/

namespace RunStats

variable {α β : Type}

/-- **Forgetting twice is forgetting once.** -/
theorem recent_recent_append (xs ys : List α) : recent (recent xs ++ ys) = recent (xs ++ ys) := by
  have hle : xs.length - window ≤ xs.length := Nat.sub_le _ _
  rw [recent, recent, recent, ← List.drop_append_of_le_length hle, List.drop_drop]
  congr 1
  simp only [List.length_drop, List.length_append]
  omega

theorem map_recent (f : α → β) (xs : List α) : (recent xs).map f = recent (xs.map f) := by
  rw [recent, recent, List.map_drop, List.length_map]

theorem length_recent (xs : List α) : (recent xs).length = min 10 xs.length := by
  rw [recent, List.length_drop, window]
  omega

end RunStats

/-! ### What there is to remember -/

/-- **A step that ended well**, with what there is to remember of it. -/
structure StepRecord where
  /-- The number of its aggregation. -/
  row : Int
  /-- Its mode. -/
  mode : Mode
  /-- The time that it took. -/
  runtime : Span
  /-- How many events it has folded. -/
  processed : Nat
deriving DecidableEq

namespace StepRecord

/-- What there is to remember of a step: nothing, if it failed. -/
def of? {ε : Type} (a : Aggregation) (m : Mode) (runtime : Span) :
    Except ε Shift.Outcome → Option StepRecord
  | .ok o => some ⟨a.id, m, runtime, o.processed⟩
  | .error _ => none

/-- **The steps of one row and one mode.** -/
def select (log : List StepRecord) (id : Int) (m : Mode) : List StepRecord :=
  log.filter fun e => e.row = id && e.mode = m

/-- The runtime of a step is read back from its text. -/
def Rereads (e : StepRecord) : Prop :=
  Store.reread? e.runtime.toSeconds = some e.runtime.toSeconds

instance (e : StepRecord) : Decidable e.Rereads :=
  inferInstanceAs (Decidable (Store.reread? e.runtime.toSeconds = some e.runtime.toSeconds))

theorem select_append (log log' : List StepRecord) (id : Int) (m : Mode) :
    select (log ++ log') id m = select log id m ++ select log' id m :=
  List.filter_append _ _

/-- Where no step is of a row, that row has none. -/
theorem select_of_row_ne {log : List StepRecord} {id : Int}
    (h : ∀ e ∈ log, e.row ≠ id) (m : Mode) : select log id m = [] := by
  refine List.filter_eq_nil_iff.2 fun e he => ?_
  simp only [Bool.and_eq_true, decide_eq_true_eq, not_and]
  exact fun heq => absurd heq (h e he)

end StepRecord

/-- What there is to remember of a visit. -/
def Visit.record? (p : Terms) (v : Visit) : Option StepRecord :=
  match v.row.read with
  | .ok a => StepRecord.of? a p.mode (v.runtime p a) v.answer
  | .error _ => none

/-- **What there is to remember of an invocation**, visit by visit. -/
def Invocation.records (i : Invocation) : List StepRecord :=
  i.visits.filterMap (Visit.record? (i.world.terms i.options i.pageSize i.circumstances))

namespace RunStats

/-- **The statistics of some steps**: those of the last ten. -/
def ofSteps (steps : List StepRecord) : RunStats where
  runtimes := (recent steps).map fun e => e.runtime.toSeconds
  records := (recent steps).map fun e => e.processed

/-- **Remembering a step is having it among the steps.** -/
theorem record_ofSteps (steps : List StepRecord) (e : StepRecord) :
    (ofSteps steps).record e.runtime e.processed = ofSteps (steps ++ [e]) := by
  -- Runtimes and counts are cut each on their own, but in the same way.
  have happend : ∀ {α : Type} (f : StepRecord → α),
      recent ((recent steps).map f ++ [f e]) = (recent (steps ++ [e])).map f := by
    intro α f
    rw [map_recent, map_recent, recent_recent_append, List.map_append, List.map_singleton]
  rw [record, ofSteps, ofSteps, happend (fun e => e.runtime.toSeconds),
    happend (fun e => (e.processed : Int))]

/-- **The statistics of steps are read back**, if their runtimes are. -/
theorem read?_written_ofSteps {steps : List StepRecord} (h : ∀ e ∈ steps, e.Rereads) :
    (StatsText.written (ofSteps steps)).read? = some (ofSteps steps) := by
  refine Store.StatsText.read?_written fun x hx => ?_
  obtain ⟨e, he, rfl⟩ := List.mem_map.1 hx
  exact h e (List.mem_of_mem_drop he)

end RunStats

/-! ### What a store remembers -/

namespace Store

variable {s s' : Store} {log log' : List StepRecord} {r : AggregationRow} {a b : Aggregation}
  {m : Mode}

/-- **A store remembers steps**: the statistics of each row and mode are those of its own. -/
structure Remembers (log : List StepRecord) (s : Store) : Prop where
  /-- The numbers of rows were given out before. -/
  id_lt : ∀ r ∈ s.aggregations, r.id < s.nextAggregation
  /-- No two rows have the same number. -/
  id_ne : s.aggregations.Pairwise fun a b => a.id ≠ b.id
  /-- There was no step of a row that is to come. -/
  row_lt : ∀ e ∈ log, e.row < s.nextAggregation
  /-- The statistics. -/
  stats : ∀ r ∈ s.aggregations, ∀ m,
    (r.stats.get m).read? = some (RunStats.ofSteps (StepRecord.select log r.id m))

namespace Remembers

/-- What leaves statistics alone leaves them as they are to be. -/
theorem of_rowsGo (h : s.Remembers log) (hnext : s'.nextAggregation = s.nextAggregation)
    (hrows : s.RowsGo (fun r r' => r'.stats = r.stats) s') : s'.Remembers log := by
  refine ⟨fun r' hr' => ?_, hrows.id_ne h.id_ne, hnext.symm ▸ h.row_lt, fun r' hr' m => ?_⟩
  · obtain ⟨r, hr, hid, -⟩ := exists_of_mem_forall₂ hrows r' hr'
    rw [hid, hnext]
    exact h.id_lt r hr
  · obtain ⟨r, hr, hid, hstats⟩ := exists_of_mem_forall₂ hrows r' hr'
    rw [hid, hstats]
    exact h.stats r hr m

/-- A mark is no statistics. -/
theorem marked (h : s.Remembers log) (id : Int) (m : Mode) (t : Instant) :
    (s.changeAggregation id (AggregationRow.marked m t)).Remembers log :=
  h.of_rowsGo rfl (rowsGo_changeAggregation (fun _ => rfl) fun _ _ _ => ⟨rfl, rfl⟩)

/-- A row that is new has no steps. -/
theorem register (h : s.Remembers log) (target : Int) : (s.register target).2.Remembers log := by
  have hnext := nextAggregation_register s target
  refine ⟨id_lt_register h.id_lt target, id_ne_register h.id_lt h.id_ne target, fun e he => ?_,
    fun r hr m => ?_⟩
  · rw [hnext]
    have hlt := h.row_lt e he
    omega
  · rcases mem_register hr with hr | rfl
    · exact h.stats r hr m
    · rw [StepRecord.select_of_row_ne fun e he => Int.ne_of_lt (h.row_lt e he)]
      cases m <;> rfl

/-- An aggregation that is loaded has the statistics of its row's steps. -/
theorem stats_of_read (h : s.Remembers log) (hr : r ∈ s.aggregations) (ha : r.read = .ok a)
    (m : Mode) : a.stats.get m = RunStats.ofSteps (StepRecord.select log a.id m) := by
  have hread := (AggregationRow.columns_of_read ha).2.2 m
  rw [h.stats r hr m] at hread
  rw [← Option.some.inj hread, Shift.id_of_read ha]

/-- **Writing one row** with the statistics of its steps. The steps may have become more, if all new
ones are of that row. -/
theorem write (h : s.Remembers log) (log' : List StepRecord) (hr : r ∈ s.aggregations)
    (hlog : ∀ e ∈ log ++ log', e.Rereads) (hnew : ∀ e ∈ log', e.row = r.id)
    (hstats : ∀ m, b.stats.get m = RunStats.ofSteps (StepRecord.select (log ++ log') r.id m)) :
    (s.changeAggregation r.id (AggregationRow.write b)).Remembers (log ++ log') := by
  have hgo : s.RowsGo (fun _ _ => True) (s.changeAggregation r.id (AggregationRow.write b)) :=
    rowsGo_changeAggregation (fun _ => trivial) fun _ _ _ => ⟨rfl, trivial⟩
  refine ⟨fun r' hr' => ?_, hgo.id_ne h.id_ne, fun e he => ?_, fun r' hr' m => ?_⟩
  · obtain ⟨r₀, hr₀, hid₀, -⟩ := exists_of_mem_forall₂ hgo r' hr'
    rw [hid₀]
    exact h.id_lt r₀ hr₀
  · rcases List.mem_append.1 he with he | he
    · exact h.row_lt e he
    · rw [hnew e he]
      exact h.id_lt r hr
  · obtain ⟨r₀, hr₀, rfl⟩ := mem_changeAggregation.1 hr'
    by_cases hid₀ : r₀.id = r.id
    · rw [if_pos hid₀]
      have hwritten : (AggregationRow.write b r₀).stats.get m = .written (b.stats.get m) := by
        cases m <;> rfl
      rw [hwritten, hstats]
      refine (RunStats.read?_written_ofSteps fun e he => ?_).trans ?_
      · exact hlog e (List.mem_filter.1 he).1
      · rw [← hid₀]
        rfl
    · -- No step of another row has come to the log.
      have hothers : ∀ e ∈ log', e.row ≠ r₀.id := fun e he => (hnew e he).trans_ne (Ne.symm hid₀)
      rw [if_neg hid₀, StepRecord.select_append, StepRecord.select_of_row_ne hothers,
        List.append_nil]
      exact h.stats r₀ hr₀ m

/-- **Saving an aggregation that was loaded** adds nothing. -/
theorem save (h : s.Remembers log) (hr : r ∈ s.aggregations) (ha : r.read = .ok a)
    (hlog : ∀ e ∈ log, e.Rereads) (hstats : b.stats = a.stats) :
    (s.changeAggregation a.id (AggregationRow.write b)).Remembers log := by
  have hida := Shift.id_of_read ha
  have hwrite := h.write (b := b) [] hr (by rwa [List.append_nil]) nofun fun m => by
    rw [List.append_nil, hstats, hida, h.stats_of_read hr ha]
  rwa [List.append_nil, hida] at hwrite

/-- So do the pages of a step. -/
theorem savesPages (h : s.Remembers log) (hr : r ∈ s.aggregations) (ha : r.read = .ok a)
    (hlog : ∀ e ∈ log, e.Rereads) (hsaves : (Shift.startOf m a).SavesPages s s') :
    s'.Remembers log := by
  rcases hsaves with rfl | ⟨es, rfl⟩
  · exact h
  · have hstats : (Shift.startOf m a).stats = a.stats := by
      cases m <;> rfl
    rw [Shift.id_startOf]
    exact h.save hr ha hlog ((Aggregation.stats_foldAll _ es).trans hstats)

/-- **A step that has ended well adds itself**, to the steps of its row and mode. -/
theorem stepped (h : s.Remembers log) (hr : r ∈ s.aggregations) (ha : r.read = .ok a)
    {es : List Event} {runtime : Span} (t : Instant)
    (hlog : ∀ e ∈ log ++ [⟨a.id, m, runtime, es.length⟩], e.Rereads) :
    (s.changeAggregation a.id (AggregationRow.write (a.stepped m es runtime t))).Remembers
      (log ++ [⟨a.id, m, runtime, es.length⟩]) := by
  have hida := Shift.id_of_read ha
  have hstats : (a.stepped m es runtime t).stats =
      a.stats.set m ((a.stats.get m).record runtime es.length) := rfl
  rw [← hida] at hlog ⊢
  -- Only the steps of its own mode have become more.
  refine h.write _ hr hlog (List.forall_mem_singleton.2 rfl) fun k => ?_
  rw [hstats, StepRecord.select_append]
  by_cases hk : k = m
  · subst hk
    have hself : StepRecord.select [⟨r.id, k, runtime, es.length⟩] r.id k =
        [⟨r.id, k, runtime, es.length⟩] := List.filter_eq_self.2 (by simp)
    rw [hself, PerMode.get_set_self, h.stats_of_read hr ha, ← hida]
    exact RunStats.record_ofSteps _ ⟨r.id, k, runtime, es.length⟩
  · have hnone : StepRecord.select [⟨r.id, m, runtime, es.length⟩] r.id k = [] :=
      List.filter_eq_nil_iff.2 (by simp [Ne.symm hk])
    rw [hnone, List.append_nil, PerMode.get_set_of_ne _ hk, h.stats_of_read hr ha, hida]

/-! ### Steps, visits and runs -/

/-- **A step adds itself if it ends well**, and nothing if it fails. -/
theorem step {t t' : Shift} {size : Nat} {cutoff : Instant}
    {answer : Except Fault Shift.Outcome} (h : t.store.Remembers log)
    (hr : r ∈ t.store.aggregations) (ha : r.read = .ok a)
    (hstep : t.step size a m cutoff = (answer, t'))
    (hlog : ∀ e ∈ log ++ (StepRecord.of? a m (t.stepRuntime size a m) answer).toList, e.Rereads) :
    t'.store.Remembers (log ++ (StepRecord.of? a m (t.stepRuntime size a m) answer).toList) := by
  cases answer with
  | error e =>
    rw [StepRecord.of?, Option.toList_none, List.append_nil] at hlog ⊢
    exact h.savesPages hr ha hlog (Shift.savesPages_of_step_error hstep)
  | ok o =>
    obtain ⟨es, u, ho, hstore⟩ := Shift.exists_stepped_of_step hstep
    rw [StepRecord.of?, ho, Option.toList_some] at hlog ⊢
    rw [hstore]
    exact h.stepped hr ha u hlog

/-- **So does a visit.** -/
theorem visit {p : Terms} {v : Visit} (h : v.before.store.Remembers log)
    (hv : v.Made p v.before) (hlog : ∀ e ∈ log ++ (v.record? p).toList, e.Rereads) :
    v.after.store.Remembers (log ++ (v.record? p).toList) := by
  have hr := hv.canVisit.mem v.row List.mem_cons_self
  rcases hanswer : v.answer with e | o
  · obtain ⟨a, st, t, ha, hsaves, -, hstore⟩ := hv.exists_marked hanswer
    rw [Visit.record?, ha, hanswer] at hlog ⊢
    simp only [StepRecord.of?, Option.toList_none, List.append_nil] at hlog ⊢
    rw [hstore]
    exact (h.savesPages hr ha hlog hsaves).marked v.row.id p.mode t
  · obtain ⟨a, es, t, ha, ho, hstore⟩ := hv.exists_stepped hanswer
    rw [Visit.record?, ha, hanswer] at hlog ⊢
    simp only [StepRecord.of?, Option.toList_some, ho] at hlog ⊢
    rw [hstore, Shift.id_of_read ha]
    exact h.stepped hr ha t hlog

/-- **And a tour does visit by visit.** -/
theorem tour {p : Terms} {t : Shift} {rows : List AggregationRow} (h : t.store.Remembers log)
    (hcan : t.CanVisit rows)
    (hlog : ∀ e ∈ log ++ (t.tour p rows).visits.filterMap (Visit.record? p), e.Rereads) :
    (t.tour p rows).last.store.Remembers
      (log ++ (t.tour p rows).visits.filterMap (Visit.record? p)) := by
  refine Shift.holds_tour (p := p) (P := fun vs st =>
    (∀ e ∈ log ++ vs.filterMap (Visit.record? p), e.Rereads) →
      st.Remembers (log ++ vs.filterMap (Visit.record? p))) ?_ hcan [] ?_ hlog
  · intro v hv vs hvs hlog
    have hsplit : log ++ (vs ++ [v]).filterMap (Visit.record? p) =
        log ++ vs.filterMap (Visit.record? p) ++ (v.record? p).toList := by
      rw [List.filterMap_append, List.append_assoc, List.filterMap_cons]
      cases v.record? p <;> rfl
    rw [hsplit] at hlog ⊢
    exact (hvs fun e he => hlog e (List.mem_append_left _ he)).visit hv hlog
  · intro _
    rw [List.filterMap_nil, List.append_nil]
    exact h

/-- **A run adds the steps that it has visited** and that have ended well. -/
theorem run {i : Invocation} (h : i.world.store.Remembers log)
    (hlog : ∀ e ∈ log ++ i.records, e.Rereads) :
    i.run.2.store.Remembers (log ++ i.records) := by
  cases hs : i.world.database.isPoisoned with
  | true =>
    have hrun : i.run = _ := perform_of_poisoned i.options i.pageSize i.circumstances hs
    rw [Invocation.records, Invocation.visits_of_poisoned hs, List.filterMap_nil, List.append_nil, hrun]
    exact h
  | false =>
    obtain ⟨rows, hrows, hvisits, hstore⟩ := Invocation.exists_tour hs h.id_ne
    have hcan := (Shift.canVisit_due (s := Shift.opening i.options i.world) hs h.id_ne
      i.options.mode i.world.now.millis).sublist hrows.sublist
    rw [Invocation.records, hvisits] at hlog ⊢
    rw [hstore]
    exact tour (t := Shift.opening i.options i.world) h hcan hlog

end Remembers

end Store

/-! ### One after another -/

/-- **Runs and single steps, one after another**, from some world on, with the steps that have ended
well and the world that they led to. Each step is given an aggregation that was loaded just before.
In between aggregations are loaded, changed and saved, targets are registered, and all else happens
that leaves the statistics of rows alone. -/
inductive RunHistory (w₀ : World) : List StepRecord → World → Prop
  /-- Nothing has happened yet. -/
  | start : RunHistory w₀ [] w₀
  /-- The worker runs. -/
  | perform {log : List StepRecord} {w : World} (h : RunHistory w₀ log w) (o : WorkerOptions)
      (size : Nat) (cs : Circumstances) :
      RunHistory w₀ (log ++ (Invocation.mk o size cs w).records) (perform o size cs w).2
  /-- A single step is made, within some budget. -/
  | execute {log : List StepRecord} {w : World} (h : RunHistory w₀ log w) {r : AggregationRow}
      {a : Aggregation} (hr : r ∈ w.store.aggregations) (ha : r.read = .ok a) (b : Budget)
      (size : Nat) (m : Mode) (cutoff : Instant) :
      RunHistory w₀
        (log ++ (StepRecord.of? a m (Shift.stepRuntime size a m ⟨w, b⟩)
          (Shift.step size a m cutoff ⟨w, b⟩).1).toList)
        (Shift.step size a m cutoff ⟨w, b⟩).2.world
  /-- An aggregation that was loaded is saved with the statistics that it has. -/
  | save {log : List StepRecord} {w : World} (h : RunHistory w₀ log w) {r : AggregationRow}
      {a b : Aggregation} (hr : r ∈ w.store.aggregations) (ha : r.read = .ok a) (hid : b.id = a.id)
      (hstats : b.stats = a.stats) : RunHistory w₀ log (w.withStore (w.store.saveAggregation b).2)
  /-- A target is registered. -/
  | register {log : List StepRecord} {w : World} (h : RunHistory w₀ log w) (target : Int) :
      RunHistory w₀ log (w.withStore (w.store.register target).2)
  /-- Anything else happens that leaves statistics alone. -/
  | elsewhere {log : List StepRecord} {w w' : World} (h : RunHistory w₀ log w)
      (hnext : w'.store.nextAggregation = w.store.nextAggregation)
      (hrows : w.store.RowsGo (fun r r' => r'.stats = r.stats) w'.store) : RunHistory w₀ log w'

namespace RunHistory

variable {w₀ w : World} {log : List StepRecord} {r : AggregationRow}

/-- **A history is remembered.** -/
theorem remembers (h : RunHistory w₀ log w) (hstart : w₀.store.Remembers [])
    (hlog : ∀ e ∈ log, e.Rereads) : w.store.Remembers log := by
  -- What a part of the history has logged is among what all of it has, and so is read back as well.
  induction h with
  | start => exact hstart
  | perform _ o size cs ih =>
    exact (ih fun e he => hlog e (List.mem_append_left _ he)).run hlog
  | execute _ hr ha b size m cutoff ih =>
    exact (ih fun e he => hlog e (List.mem_append_left _ he)).step (t := ⟨_, b⟩) hr ha rfl hlog
  | @save log w _ r a b hr ha hid hstats ih =>
    have hremembers := ih hlog
    rw [World.store_withStore, Store.saveAggregation]
    split
    · rw [hid]
      exact hremembers.save hr ha hlog hstats
    · exact hremembers
  | register _ target ih => exact (ih hlog).register target
  | elsewhere _ hnext hrows ih => exact (ih hlog).of_rowsGo hnext hrows

/-- **The statistics of a row are its last ten runs**, after any runs and steps in both modes, one
after another. They have the runtimes and the counts of the last ten steps of their mode and row
that ended well, in order, and fewer if there were no ten. -/
theorem statistics_eq (h : RunHistory w₀ log w)
    (hlt : ∀ r ∈ w₀.store.aggregations, r.id < w₀.store.nextAggregation)
    (hid : w₀.store.aggregations.Pairwise fun a b => a.id ≠ b.id)
    (hempty : ∀ r ∈ w₀.store.aggregations, ∀ m, (r.stats.get m).read? = some {})
    (hlog : ∀ e ∈ log, e.Rereads) (hr : r ∈ w.store.aggregations) (m : Mode) :
    ∃ stats, (r.stats.get m).read? = some stats ∧
      stats.runtimes =
        ((StepRecord.select log r.id m).rtake 10).map (fun e => e.runtime.toSeconds) ∧
      stats.records =
        ((StepRecord.select log r.id m).rtake 10).map (fun e => (e.processed : Int)) ∧
      stats.runtimes.length = min 10 (StepRecord.select log r.id m).length ∧
      stats.records.length = min 10 (StepRecord.select log r.id m).length := by
  have hremembers := h.remembers ⟨hlt, hid, List.forall_mem_nil _, hempty⟩ hlog
  refine ⟨_, hremembers.stats r hr m, rfl, rfl, ?_, ?_⟩
  · rw [RunStats.ofSteps, List.length_map, RunStats.length_recent]
  · rw [RunStats.ofSteps, List.length_map, RunStats.length_recent]

end RunHistory

/-- One aggregation, and a clock that moves at every reading. -/
def tickingWorld : World where
  clock := { wall := .epoch, tick := .ofMillis 1500 }
  database := { store := (({} : Store).register 7).2 }

/-- The seventh step of all is refused. -/
def flaky : Circumstances := fun begun _ => { fails := begun.length = 6 }

/-- The same world with a new event. -/
def World.withEvent (w : World) : World := w.withStore (w.store.addEvent 7 1 w.now).2

/-- **A full run and then incremental ones**, with a new event for every other of them. -/
def rounds : Nat → List StepRecord × World
  | 0 =>
    let i : Invocation := ⟨{ mode := .full }, 1, flaky, tickingWorld.withEvent⟩
    (i.records, i.run.2)
  | n + 1 =>
    let (log, w) := rounds n
    let i : Invocation := ⟨{}, 1, flaky, if n % 2 = 1 then w.withEvent else w⟩
    (log ++ i.records, i.run.2)

theorem runHistory_rounds (n : Nat) : RunHistory tickingWorld (rounds n).1 (rounds n).2 := by
  have hevent : ∀ {log : List StepRecord} {w : World}, RunHistory tickingWorld log w →
      RunHistory tickingWorld log w.withEvent := fun h =>
    h.elsewhere rfl (.of_eq (fun _ => rfl) rfl)
  induction n with
  | zero => exact (hevent .start).perform { mode := .full } 1 flaky
  | succ n ih =>
    have hnext : RunHistory tickingWorld (rounds n).1
        (if n % 2 = 1 then (rounds n).2.withEvent else (rounds n).2) := by
      split
      · exact hevent ih
      · exact ih
    exact hnext.perform {} 1 flaky

/-- What is remembered of them, all of one row. A step takes one reading, and one more after a page
that is full. -/
theorem log_rounds :
    ((rounds 12).1 = ⟨1, .full, .ofMillis 3000, 1⟩ :: [0, 1, 0, 1, 0, 1, 1, 0, 1, 0, 1].map fun n =>
      ⟨1, .incremental, if n = 1 then .ofMillis 3000 else .ofMillis 1500, n⟩) ∧
      (rounds 12).2.store.aggregations.map AggregationRow.id = [1] := by
  decide +kernel

/-- **After twelve incremental runs**, one of them with a step that failed, the first of the eleven
others is forgotten. The full run has statistics of its own. -/
theorem statistics_eq_rounds :
    (rounds 12).2.store.aggregations.map AggregationRow.id = [1] ∧
      ∀ r ∈ (rounds 12).2.store.aggregations,
        (∃ stats, (r.stats.get .incremental).read? = some stats ∧
          stats.records = [1, 0, 1, 0, 1, 1, 0, 1, 0, 1] ∧ stats.runtimes.length = 10) ∧
        ∃ stats, (r.stats.get .full).read? = some stats ∧ stats.records = [1] ∧
          stats.runtimes.length = 1 := by
  obtain ⟨hrounds, hids⟩ := log_rounds
  have hempty : ∀ r ∈ tickingWorld.store.aggregations, ∀ m, (r.stats.get m).read? = some {} :=
    List.forall_mem_singleton.2 fun m => by cases m <;> rfl
  have hlog : ∀ e ∈ (rounds 12).1, e.Rereads := by
    rw [hrounds]
    decide +kernel
  refine ⟨hids, fun r hr => ?_⟩
  have hid : r.id = 1 := by
    have hmem := List.mem_map_of_mem (f := AggregationRow.id) hr
    rw [hids] at hmem
    exact List.mem_singleton.1 hmem
  have hstats := fun m => (runHistory_rounds 12).statistics_eq (by decide +kernel)
    (by decide +kernel) hempty hlog hr m
  rw [hid, hrounds] at hstats
  obtain ⟨stats, hread, -, hrecords, hlength, -⟩ := hstats .incremental
  obtain ⟨stats', hread', -, hrecords', hlength', -⟩ := hstats .full
  exact ⟨⟨stats, hread, hrecords.trans (by decide +kernel), hlength.trans (by decide +kernel)⟩,
    stats', hread', hrecords'.trans (by decide +kernel), hlength'.trans (by decide +kernel)⟩

end Leasehold
