import Leasehold.Aggregation.Step
import Leasehold.Lease.Lock

/-!
# The aggregation worker

One run of the worker takes the aggregations that are due batch by batch, and steps each of them,
until nothing is due or its budget has run out. An aggregation whose step fails is marked as run
all the same, so that the worker gets past it; the next run tries it again.

* `Leasehold.Circumstance` – what a step meets with before it begins;
* `Leasehold.Shift.visit`, `Leasehold.Shift.visitAll` – one aggregation, and one batch;
* `Leasehold.Shift.runBatches` – batches until none is left;
* `Leasehold.perform` – the whole run, with a report;
* `Leasehold.performExclusive` – the same under the lease of the mode.

The run comes to an end because each batch that is gone through leaves fewer aggregations due
(`Leasehold.Shift.length_due_visitAll_lt`): every step ends by noting a time that is no earlier
than the cutoff the batch was taken at.
-/

namespace Leasehold

/-! ### Options and report -/

/-- **What a worker is told.** -/
structure WorkerOptions where
  /-- The mode to run in. -/
  mode : Mode := .incremental
  /-- The time it may take. -/
  maxRuntime : Span := .ofSeconds 250
  /-- How many aggregations it takes at a time. -/
  batchSize : Nat := 100
deriving DecidableEq

/-- How many events a step takes at a time, unless told otherwise. -/
def defaultPageSize : Nat := 1000

/-- **Why a run stopped.** -/
inductive StopReason where
  /-- Nothing was due any more. -/
  | caughtUp
  /-- The budget had run out. -/
  | overTime
deriving DecidableEq

/-- The name of a reason. -/
def StopReason.name : StopReason → String
  | caughtUp => "caught_up"
  | overTime => "over_time"

/-- **What a run did so far.** -/
structure Tally where
  /-- How many steps succeeded. -/
  processed : Nat := 0
  /-- How many steps failed. -/
  failed : Nat := 0
  /-- How many events the steps that succeeded folded. -/
  records : Nat := 0
deriving DecidableEq

/-- **The report of a run.** -/
structure Report where
  /-- The mode. -/
  mode : Mode
  /-- What the run did. -/
  tally : Tally
  /-- Why it stopped. -/
  stopReason : StopReason
  /-- What it took. -/
  usage : Budget.Usage

/-- The stored form of a budget's usage. -/
def Budget.Usage.toJson (u : Budget.Usage) : Json.Value :=
  .object [("elapsed_seconds", .decimal u.elapsedSeconds),
    ("max_runtime_seconds", .decimal u.allowedSeconds), ("over_time", .bool u.overTime)]

/-- The stored form of a report. -/
def Report.toJson (r : Report) : Json.Value :=
  .object [("mode", .text r.mode.name), ("processed", .integer r.tally.processed),
    ("failed", .integer r.tally.failed), ("records", .integer r.tally.records),
    ("stop_reason", .text r.stopReason.name), ("usage", r.usage.toJson)]

/-! ### Circumstances -/

/-- **What a step meets with before it begins.** -/
structure Circumstance where
  /-- How much time passes. -/
  cost : Span := Span.zero
  /-- By how many milliseconds the wall time is set forward, or back when negative. -/
  skew : Int := 0
  /-- Whether the step fails without touching the store. -/
  fails : Bool := false
deriving DecidableEq

/-- What each step meets with, given the targets whose steps were begun before, the latest
first. -/
abbrev Circumstances := List Int → Aggregation → Circumstance

/-- Nothing comes in between. -/
def undisturbed : Circumstances := fun _ _ => {}

/-- Why a step fails. -/
inductive StepError where
  /-- It was bound to. -/
  | refused
  /-- A call on the store failed. -/
  | store (f : Store.Fault)
deriving DecidableEq

namespace Shift

/-! ### One aggregation -/

/-- A step begins: what it meets with happens. -/
def begin (c : Circumstance) (target : Int) (s : Shift) : Shift :=
  { s with
    world := { s.world with
      clock := (s.world.clock.advance c.cost).skew c.skew
      begun := target :: s.world.begun } }

/-- A step under circumstances. -/
def attempt (cs : Circumstances) (size : Nat) (a : Aggregation) (m : Mode) (cutoff : Instant)
    (s : Shift) : Except StepError Outcome × Shift :=
  let c := cs s.world.begun a
  let s := s.begin c a.target
  if c.fails then (.error .refused, s)
  else
    match s.step size a m cutoff with
    | (.ok o, s) => (.ok o, s)
    | (.error e, s) => (.error (.store e), s)

/-- Marks an aggregation as run. -/
def mark (s : Shift) (id : Int) (m : Mode) (t : Instant) : Except Store.Fault Unit × Shift :=
  s.run (edit fun st => st.markRun id m t)

/-- **One aggregation**: its step, or the mark that gets the worker past it. -/
def visit (cs : Circumstances) (size : Nat) (m : Mode) (cutoff : Instant) (a : Aggregation)
    (t : Tally) (s : Shift) : Except Store.Fault Tally × Shift :=
  match s.attempt cs size a m cutoff with
  | (.ok o, s) =>
    (.ok { t with processed := t.processed + 1, records := t.records + o.processed }, s)
  | (.error _, s) =>
    match s.mark a.id m (max s.world.now cutoff) with
    | (.ok (), s) => (.ok { t with failed := t.failed + 1 }, s)
    | (.error e, s) => (.error e, s)

@[simp]
theorem store_begin (c : Circumstance) (target : Int) (s : Shift) :
    (s.begin c target).store = s.store := rfl

theorem dueElsewhere_attempt (cs : Circumstances) (size : Nat) (a : Aggregation) (m : Mode)
    (cutoff : Instant) (s : Shift) :
    (s.attempt cs size a m cutoff).2.store.dueElsewhere m cutoff.millis a.id =
      s.store.dueElsewhere m cutoff.millis a.id := by
  unfold attempt
  simp only
  split
  · rfl
  · have h := dueElsewhere_step size a m cutoff (s.begin (cs s.world.begun a) a.target)
    rw [store_begin] at h
    split
    · rename_i hs
      rw [hs] at h
      exact h
    · rename_i hs
      rw [hs] at h
      exact h

theorem due_attempt {cs : Circumstances} {size : Nat} {a : Aggregation} {m : Mode}
    {cutoff : Instant} {s s' : Shift} {o : Outcome}
    (h : s.attempt cs size a m cutoff = (.ok o, s')) :
    s'.store.due m cutoff.millis = s.store.dueElsewhere m cutoff.millis a.id := by
  unfold attempt at h
  simp only at h
  split at h
  · cases h
  · split at h
    · rename_i hs
      cases h
      have h := due_step hs
      rwa [store_begin] at h
    · cases h

/-- After an aggregation was gone through, what is due is what else was due before. -/
theorem due_visit {cs : Circumstances} {size : Nat} {m : Mode} {cutoff : Instant}
    {a : Aggregation} {t t' : Tally} {s s' : Shift}
    (h : s.visit cs size m cutoff a t = (.ok t', s')) :
    s'.store.due m cutoff.millis = s.store.dueElsewhere m cutoff.millis a.id := by
  unfold visit at h
  split at h
  · rename_i ha
    cases h
    exact due_attempt ha
  · rename_i e s₁ ha
    have helse := dueElsewhere_attempt cs size a m cutoff s
    rw [ha] at helse
    simp only at helse
    split at h
    · rename_i s₂ hm
      cases h
      unfold mark run edit at hm
      by_cases hp : s₁.world.database.isPoisoned = true
      · simp [hp] at hm
      · simp only [hp, Bool.false_eq_true, if_false, Prod.mk.injEq] at hm
        obtain ⟨h1, h2⟩ := hm
        have := Store.due_markRun (cutoff_le_max s₁.world.now cutoff) h1
        rw [← helse, ← h2]
        exact this
    · cases h

/-! ### Batches -/

/-- **One batch**: each aggregation, and after each the question whether the budget has run out.
The answer says whether it has. -/
def visitAll (cs : Circumstances) (size : Nat) (m : Mode) (cutoff : Instant) :
    List Aggregation → Tally → Shift → Except Store.Fault (Tally × Bool) × Shift
  | [], t, s => (.ok (t, false), s)
  | a :: as, t, s =>
    match s.visit cs size m cutoff a t with
    | (.error e, s) => (.error e, s)
    | (.ok t, s) =>
      match s.check with
      | (true, s) => (.ok (t, true), s)
      | (false, s) => visitAll cs size m cutoff as t s

/-- The next batch. -/
def batch (s : Shift) (m : Mode) (cutoff : Instant) (size : Nat) :
    Except Store.Fault (List Aggregation) :=
  (look (fun st => st.dueBatch m cutoff size) s.world).1

theorem length_due_visitAll_le {cs : Circumstances} {size : Nat} {m : Mode} {cutoff : Instant}
    {as : List Aggregation} {t t' : Tally} {s s' : Shift}
    (h : visitAll cs size m cutoff as t s = (.ok (t', false), s')) :
    (s'.store.due m cutoff.millis).length ≤ (s.store.due m cutoff.millis).length := by
  induction as generalizing t s with
  | nil =>
    cases h
    exact Nat.le_refl _
  | cons a as ih =>
    unfold visitAll at h
    split at h
    · cases h
    · rename_i t₁ s₁ hv
      split at h
      · cases h
      · rename_i s₂ hc
        refine Nat.le_trans (ih h) ?_
        have h2 := store_check s₁
        rw [hc] at h2
        simp only at h2
        rw [h2, due_visit hv]
        exact List.length_filter_le _ _

/-- **A batch that was gone through leaves fewer aggregations due.** -/
theorem length_due_visitAll_lt {cs : Circumstances} {size : Nat} {m : Mode} {cutoff : Instant}
    {a : Aggregation} {as : List Aggregation} {t t' : Tally} {s s' : Shift}
    (ha : ∃ r ∈ s.store.due m cutoff.millis, r.id = a.id)
    (h : visitAll cs size m cutoff (a :: as) t s = (.ok (t', false), s')) :
    (s'.store.due m cutoff.millis).length < (s.store.due m cutoff.millis).length := by
  unfold visitAll at h
  split at h
  · cases h
  · rename_i t₁ s₁ hv
    split at h
    · cases h
    · rename_i s₂ hc
      refine Nat.lt_of_le_of_lt (length_due_visitAll_le h) ?_
      have h2 := store_check s₁
      rw [hc] at h2
      simp only at h2
      rw [h2, due_visit hv]
      obtain ⟨r, hr, hid⟩ := ha
      exact List.length_filter_lt_length_iff_exists.2 ⟨r, hr, by simp [hid]⟩

theorem id_of_read {r : Store.AggregationRow} {a : Aggregation} (h : r.read = .ok a) :
    r.id = a.id := by
  unfold Store.AggregationRow.read at h
  simp only [bind, Except.bind] at h
  repeat' split at h
  all_goals cases h
  rfl

theorem due_of_batch {s : Shift} {m : Mode} {cutoff : Instant} {size : Nat} {a : Aggregation}
    {as : List Aggregation} (h : s.batch m cutoff size = .ok (a :: as)) :
    ∃ r ∈ s.store.due m cutoff.millis, r.id = a.id := by
  unfold batch look at h
  split at h
  · cases h
  · obtain ⟨r, hr, hread⟩ := Store.mem_of_mapM_ok h List.mem_cons_self
    exact ⟨r, List.mem_mergeSort.1 ((Store.limited_sublist _ _).subset hr), id_of_read hread⟩

/-- **Batches until nothing is due** or the budget has run out. A batch has at least one
aggregation. -/
def runBatches (cs : Circumstances) (size batchSize : Nat) (m : Mode) (cutoff : Instant)
    (t : Tally) (s : Shift) : Except Store.Fault (Tally × StopReason) × Shift :=
  match _hb : s.batch m cutoff (max batchSize 1) with
  | .error e => (.error e, s)
  | .ok [] => (.ok (t, .caughtUp), s)
  | .ok (a :: as) =>
    match _hv : visitAll cs size m cutoff (a :: as) t s with
    | (.error e, s') => (.error e, s')
    | (.ok (t', true), s') => (.ok (t', .overTime), s')
    | (.ok (t', false), s') => runBatches cs size batchSize m cutoff t' s'
termination_by (s.store.due m cutoff.millis).length
decreasing_by exact length_due_visitAll_lt (due_of_batch _hb) _hv

end Shift

/-! ### The whole run -/

/-- **One run of the worker.** Its cutoff is the wall time at its start. -/
def perform (o : WorkerOptions) (size : Nat) (cs : Circumstances) : Action Store.Fault Report :=
  fun w =>
    let cutoff := w.now
    let (budget, clock) := Budget.begin o.maxRuntime w.clock
    match Shift.runBatches cs size o.batchSize o.mode cutoff {} ⟨{ w with clock }, budget⟩ with
    | (.error e, s) => (.error e, s.world)
    | (.ok (tally, stopReason), s) =>
      let (usage, clock) := s.budget.usage s.world.clock
      (.ok { mode := o.mode, tally, stopReason, usage }, { s.world with clock })

/-! ### Under the lease of the mode -/

/-- **The key of the lease** that only one worker of a mode holds at a time. -/
def Mode.leaseKey (m : Mode) : String := "cronlease:aggregation_worker:" ++ m.name

/-- For how long the lease outlasts the budget, so that it covers a slow last step. -/
def leaseMargin : Span := .ofSeconds 60

/-- **Why an exclusive run fails.** -/
inductive AggregationError where
  /-- A call on the store failed. -/
  | store (f : Store.Fault)
  /-- The lease could not be had, for another reason than that it was taken. -/
  | lease (e : LeaseError)
  /-- The budget is so long that no lease can outlast it. -/
  | endlessBudget
deriving DecidableEq

/-- **The words for an error.** -/
def AggregationError.message : AggregationError → String
  | store f => "Aggregation store error: " ++ f.message
  | lease e => e.message
  | endlessBudget => "overflow when adding durations"

/-- **One run under the lease of its mode**, or none when another worker holds it. The lease
outlasts the budget. -/
def performExclusive (o : WorkerOptions) (lock : LockOptions) (size : Nat) (cs : Circumstances) :
    Action AggregationError (Option Report) :=
  match o.maxRuntime.add? leaseMargin with
  | none => throw .endlessBudget
  | some least => fun w =>
    match Lease.inLock o.mode.leaseKey { lock with ttl := max lock.ttl least }
        (fun _ => perform o size cs) w with
    | (.ok report, w) => (.ok (some report), w)
    | (.error (.lease (.notObtained _ _)), w) => (.ok none, w)
    | (.error (.lease (.backend f)), w) => (.error (.lease (.backend f)), w)
    | (.error (.work f), w) => (.error (.store f), w)

end Leasehold
