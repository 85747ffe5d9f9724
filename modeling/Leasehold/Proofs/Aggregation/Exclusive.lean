import Leasehold.Proofs.Aggregation.Visiting
import Leasehold.Proofs.Lease.Tenure

/-!
# One worker of a mode at a time

A run under the lease of its mode is the plain run, begun when the lease was taken
(`Leasehold.performExclusive_eq`). It ends with no report exactly when every attempt finds the
lease taken, and if it gets no lease it does nothing but try. It never touches a lease itself
(`Leasehold.lease?_perform`), so what it gives back in the end is what it has taken, unless somebody
else has taken that over.

The lease outlasts the budget of the run by a margin, and meanwhile no other run of the mode gets
in, whatever its options (`Leasehold.WorksUnderLease.keepsOut`). The time that this is certain for
is what was asked for, but leases that are kept in the store lose a part of a millisecond
(`Leasehold.RegainedAfter`).
-/

namespace Leasehold

namespace Shift

/-! ### A run leaves leases alone -/

theorem follows_visitAll (cs : Circumstances) (size : Nat) (m : Mode) (cutoff : Instant)
    (as : List Aggregation) (t : Tally) (s : Shift) :
    s.Follows (visitAll cs size m cutoff as t s).2 := by
  induction as generalizing t s with
  | nil => exact .refl s
  | cons a as ih =>
    have hvisit := follows_visit cs size m cutoff a t s
    rw [visitAll]
    cases hv : s.visit cs size m cutoff a t with
    | mk answer s₁ =>
      rw [hv] at hvisit
      cases answer with
      | error e => exact hvisit
      | ok t₁ =>
        -- The question whether the budget has run out is asked whatever the answer.
        have hchecked := hvisit.trans (within_check a.id s₁).follows
        dsimp only
        rw [check_eq]
        cases decide s₁.IsOver with
        | true => exact hchecked
        | false => exact hchecked.trans (ih t₁ s₁.check.2)

theorem follows_runBatches (cs : Circumstances) (size batchSize : Nat) (m : Mode)
    (cutoff : Instant) (t : Tally) (s : Shift) :
    s.Follows (runBatches cs size batchSize m cutoff t s).2 := by
  fun_induction runBatches cs size batchSize m cutoff t s with
  | case1 | case2 => exact .refl _
  | case3 t s a as hb e s₁ hv | case4 t s a as hb t₁ s₁ hv =>
    have hbatch := follows_visitAll cs size m cutoff (a :: as) t s
    rwa [hv] at hbatch
  | case5 t s a as hb t₁ s₁ hv ih =>
    have hbatch := follows_visitAll cs size m cutoff (a :: as) t s
    rw [hv] at hbatch
    exact hbatch.trans ih

end Shift

/-- **A run leaves every lease as it is.** -/
theorem lease?_perform (o : WorkerOptions) (size : Nat) (cs : Circumstances) (w : World)
    (key : String) : (perform o size cs w).2.lease? key = w.lease? key := by
  have hrun := Shift.follows_runBatches (w.terms o size cs).circumstances
    (w.terms o size cs).pageSize o.batchSize (w.terms o size cs).mode (w.terms o size cs).cutoff {}
    (Shift.opening o w)
  have hsame : ∀ s : Shift, (Shift.opening o w).Follows s → ∀ clock,
      ({ s.world with clock } : World).lease? key = w.lease? key := by
    intro s hs clock
    have hservice : s.world.leases = w.leases := hs.service
    have hleases : s.world.store.leases = w.store.leases := hs.leases
    rw [World.lease?, World.lease?, hservice]
    rw [← hleases]
    rfl
  rw [perform_eq]
  split
  · rename_i e s hb
    rw [hb] at hrun
    exact hsame s hrun _
  · rename_i tally stopReason s hb
    rw [hb] at hrun
    exact hsame s hrun _

/-! ### Under the lease of the mode -/

/-- **How a run takes the lease of its mode**: as it is told, but for no less time than its budget
with the margin. There is no answer for a budget that no lease can outlast. -/
def WorkerOptions.lock? (o : WorkerOptions) (lock : LockOptions) : Option LockOptions :=
  (o.maxRuntime.add? leaseMargin).map fun least => { lock with ttl := max lock.ttl least }

/-- **How a run under a lease ends**, for how the work under the lease does. -/
def underLease : Except (Lease.Guarded Store.Fault) Report × World →
    Except AggregationError (Option Report) × World
  | (.ok report, w) => (.ok (some report), w)
  | (.error (.lease (.notObtained _ _)), w) => (.ok none, w)
  | (.error (.lease (.backend f)), w) => (.error (.lease (.backend f)), w)
  | (.error (.work f), w) => (.error (.store f), w)

section Runs

variable {o : WorkerOptions} {lock raised : LockOptions} {size : Nat} {cs : Circumstances}
  {v w : World} {guard : LeaseGuard}

theorem performExclusive_eq (hlock : o.lock? lock = some raised) :
    performExclusive o lock size cs w =
      underLease (Lease.inLock o.mode.leaseKey raised (fun _ => perform o size cs) w) := by
  rw [WorkerOptions.lock?, Option.map_eq_some_iff] at hlock
  obtain ⟨least, hleast, rfl⟩ := hlock
  -- To unfold a run where it is applied, the kernel would compute with the limit of spans.
  generalize hrun : performExclusive = run
  delta performExclusive at hrun
  subst hrun
  dsimp only
  rw [hleast]
  rfl

/-- **A run whose budget no lease can outlast** fails before it has done anything. -/
theorem performExclusive_of_endless (hlock : o.lock? lock = none) :
    performExclusive o lock size cs w = (.error .endlessBudget, w) := by
  rw [WorkerOptions.lock?, Option.map_eq_none_iff] at hlock
  generalize hrun : performExclusive = run
  delta performExclusive at hrun
  subst hrun
  dsimp only
  rw [hlock]
  rfl

theorem performExclusive_of_notObtained {key : String} {attempts : Nat}
    (hlock : o.lock? lock = some raised)
    (h : Lease.obtain o.mode.leaseKey raised w = (.error (.notObtained key attempts), v)) :
    performExclusive o lock size cs w = (.ok none, v) := by
  rw [performExclusive_eq hlock, Lease.inLock, h]
  rfl

theorem performExclusive_of_fault {f : LeaseFault} (hlock : o.lock? lock = some raised)
    (h : Lease.obtain o.mode.leaseKey raised w = (.error (.backend f), v)) :
    performExclusive o lock size cs w = (.error (.lease (.backend f)), v) := by
  rw [performExclusive_eq hlock, Lease.inLock, h]
  rfl

/-- A run that gets in ends as the plain run does, and gives the lease back. -/
theorem performExclusive_of_obtained (size : Nat) (cs : Circumstances) {isRetry : Bool}
    (hlock : o.lock? lock = some raised)
    (h : Lease.obtain o.mode.leaseKey raised w = (.ok (guard, isRetry), v)) :
    ((∃ report, (perform o size cs v).1 = .ok report ∧
        (performExclusive o lock size cs w).1 = .ok (some report)) ∨
      ∃ f, (perform o size cs v).1 = .error f ∧
        (performExclusive o lock size cs w).1 = .error (.store f)) ∧
      (performExclusive o lock size cs w).2 =
        Lease.release guard (perform o size cs v).2 := by
  rw [performExclusive_eq hlock, Lease.inLock, h]
  dsimp only
  cases perform o size cs v with
  | mk answer v' =>
    cases answer with
    | ok report => exact ⟨.inl ⟨report, rfl, rfl⟩, rfl⟩
    | error f => exact ⟨.inr ⟨f, rfl, rfl⟩, rfl⟩

theorem ne_none_of_obtained {isRetry : Bool} (hlock : o.lock? lock = some raised)
    (h : Lease.obtain o.mode.leaseKey raised w = (.ok (guard, isRetry), v)) :
    (performExclusive o lock size cs w).1 ≠ .ok none := by
  intro hnone
  rcases performExclusive_of_obtained size cs hlock h with ⟨⟨_, -, hsome⟩ | ⟨_, -, herror⟩, -⟩
  · cases hnone.symm.trans hsome
  · cases hnone.symm.trans herror

/-- **A run that has got in**: it has taken the lease of its mode in a call that was begun in one
world and left another. -/
structure WorksUnderLease (o : WorkerOptions) (lock raised : LockOptions) (size : Nat)
    (cs : Circumstances) (w : World) (guard : LeaseGuard) (v : World) : Prop where
  /-- So far nothing was done but to try. -/
  untouched : w.Untouched v
  /-- The run answers as the plain run does that begins now. -/
  answer : (∃ report, (perform o size cs v).1 = .ok report ∧
      (performExclusive o lock size cs w).1 = .ok (some report)) ∨
    ∃ f, (perform o size cs v).1 = .error f ∧
      (performExclusive o lock size cs w).1 = .error (.store f)
  /-- It leaves what the plain run leaves, but for leases. -/
  leaves : (perform o size cs v).2.Untouched (performExclusive o lock size cs w).2
  /-- In the end the mode has no lease, unless the service has failed to take it back. -/
  released : (performExclusive o lock size cs w).2.lease? o.mode.leaseKey = none ∨
    ∃ f, (Lease.cancel guard (perform o size cs v).2).1 = .error (.backend f)
  /-- Whatever has happened to the lease when it is given back, one that somebody else has taken
  over is left alone, and one that nobody has ends, unless the service fails. -/
  givesBack : ∀ z h, z.lease? o.mode.leaseKey = some h →
    (h.token ≠ guard.token ∧ (Lease.release guard z).lease? o.mode.leaseKey = some h) ∨
      (h.token = guard.token ∧ (Lease.release guard z).lease? o.mode.leaseKey = none) ∨
        ∃ f, (Lease.cancel guard z).1 = .error (.backend f)
  /-- All that the run does is among the things that may happen meanwhile. -/
  goesOn : v.clock.InStep (perform o size cs v).2.clock →
    Lease.Meanwhile guard v (perform o size cs v).2
  /-- The key was taken by an attempt, and any other run of the mode that gets in meanwhile does so
  by one that comes later than that by all the time that a lease is certain to last. -/
  keepsOut : ∃ u, Lease.Obtains o.mode.leaseKey raised w u guard v ∧
    ∀ w', Lease.Meanwhile guard v w' →
      ∀ (o' : WorkerOptions) (lock' raised' : LockOptions) (x : World) (guard' : LeaseGuard)
        (v' : World), o'.mode = o.mode → o'.lock? lock' = some raised' →
        Lease.Obtains o'.mode.leaseKey raised' w' x guard' v' →
          w'.clock.InStep x.clock → u.leases.backend.IsBeforeEnd x.clock →
            u.leases.backend.coverage raised.ttl ≤ x.clock.elapsed.nanos - u.reckoning.nanos

/-- A run that has taken the lease of its mode has got in. -/
theorem worksUnderLease {isRetry : Bool} (hlock : o.lock? lock = some raised)
    (h : Lease.obtain o.mode.leaseKey raised w = (.ok (guard, isRetry), v)) :
    WorksUnderLease o lock raised size cs w guard v := by
  obtain ⟨hanswer, hworld⟩ := performExclusive_of_obtained size cs hlock h
  obtain ⟨u, hu⟩ := Lease.exists_obtains h
  obtain ⟨hkey, hlease⟩ := hu.lease?_eq
  refine ⟨?_, hanswer, ?_, ?_, ?_, fun hstep => ?_, u, hu, ?_⟩
  · have huntouched := Lease.untouched_obtain o.mode.leaseKey raised w
    rwa [h] at huntouched
  · rw [hworld]
    exact Lease.untouched_release guard _
  · -- The plain run has left the lease alone, so it is still the one that was taken.
    rw [hworld]
    rw [← lease?_perform o size cs v, ← hkey] at hlease
    have hends := Lease.lease?_release_of_token hlease rfl
    rwa [hkey] at hends
  · intro z h hz
    rw [← hkey] at hz ⊢
    exact Lease.release_cases guard z hz
  · exact .single ⟨.elsewhere _ _ (lease?_perform o size cs v _), hstep⟩
  · intro w' hmeanwhile o' lock' raised' x guard' v' hmode hlock' hother hstep hend
    rw [hmode] at hother
    -- Between its attempts the other run only lets time pass.
    have hx : Lease.Meanwhile guard v x :=
      hmeanwhile.tail ⟨.elsewhere _ _ (hother.onlyTimes.lease _), hstep⟩
    refine Nat.le_of_not_lt fun hwithin => ?_
    refine Lease.not_taken_meanwhile hu.attempt hx hend hwithin raised'.ttl guard' ?_
    rw [hother.attempt]

/-- **A run has no report** exactly when every attempt to take the lease finds it taken. -/
theorem performExclusive_eq_none_iff (size : Nat) (cs : Circumstances) (w : World)
    (hlock : o.lock? lock = some raised) :
    (performExclusive o lock size cs w).1 = .ok none ↔
      Lease.AllTaken o.mode.leaseKey raised raised.attempts false w := by
  have hspec := Lease.obtain_spec o.mode.leaseKey raised w
  cases h : Lease.obtain o.mode.leaseKey raised w with
  | mk answer v =>
    rw [h] at hspec
    cases hspec with
    | taken hall =>
      rw [performExclusive_of_notObtained hlock h]
      exact ⟨fun _ => hall, fun _ => rfl⟩
    | fails hnot =>
      rw [performExclusive_of_fault hlock h]
      exact ⟨nofun, fun hall => absurd hall hnot⟩
    | takes hnot =>
      exact ⟨fun hnone => absurd hnone (ne_none_of_obtained hlock h), fun hall => absurd hall hnot⟩

/-- A run that has no report has done nothing but try. -/
theorem untouched_of_none (hlock : o.lock? lock = some raised)
    (hnone : (performExclusive o lock size cs w).1 = .ok none) :
    w.Untouched (performExclusive o lock size cs w).2 := by
  have huntouched := Lease.untouched_obtain o.mode.leaseKey raised w
  cases h : Lease.obtain o.mode.leaseKey raised w with
  | mk answer v =>
    rw [h] at huntouched
    cases answer with
    | ok taken => exact absurd hnone (ne_none_of_obtained hlock h)
    | error e =>
      cases e with
      | notObtained _ _ =>
        rw [performExclusive_of_notObtained hlock h]
        exact huntouched
      | backend _ =>
        rw [performExclusive_of_fault hlock h] at hnone
        cases hnone

/-- **A run under the lease of its mode is the plain run**, begun when the lease was taken, over any
store and leases, by any clock and in any circumstances. It ends with no report exactly when every
attempt finds the lease taken, and then it has done nothing but try, as when the service fails. -/
theorem performExclusive_spec (size : Nat) (cs : Circumstances) (w : World)
    (hlock : o.lock? lock = some raised) :
    ((performExclusive o lock size cs w).1 = .ok none ↔
        Lease.AllTaken o.mode.leaseKey raised raised.attempts false w) ∧
      ((performExclusive o lock size cs w).1 = .ok none →
        w.Untouched (performExclusive o lock size cs w).2) ∧
      (∀ f v, Lease.obtain o.mode.leaseKey raised w = (.error (.backend f), v) →
        performExclusive o lock size cs w = (.error (.lease (.backend f)), v) ∧ w.Untouched v) ∧
      ∀ guard isRetry v, Lease.obtain o.mode.leaseKey raised w = (.ok (guard, isRetry), v) →
        WorksUnderLease o lock raised size cs w guard v := by
  refine ⟨performExclusive_eq_none_iff size cs w hlock, untouched_of_none hlock, fun f v h => ?_,
    fun guard isRetry v h => worksUnderLease hlock h⟩
  have huntouched := Lease.untouched_obtain o.mode.leaseKey raised w
  rw [h] at huntouched
  exact ⟨performExclusive_of_fault hlock h, huntouched⟩

end Runs

/-! ### Two runs, one after the other -/

/-- A world in which there is nothing to do, with leases in the store. -/
def idleWorld : World := { clock := { wall := .epoch } }

/-- The same world some seconds later. -/
def World.later (w : World) (s : UInt64) : World :=
  { w with clock := w.clock.advance (.ofSeconds s) }

/-- **A run that is told nothing holds its lease for five minutes and ten seconds**, and a second
earlier another run of the mode is kept out. -/
theorem performExclusive_spec_idleWorld :
    ({} : WorkerOptions).lock? {} = some { ttl := .ofSeconds 310 } ∧
      ∃ guard v, Lease.obtain Mode.incremental.leaseKey { ttl := .ofSeconds 310 } idleWorld =
          (.ok (guard, false), v) ∧
        WorksUnderLease {} {} { ttl := .ofSeconds 310 } 1 undisturbed idleWorld guard v ∧
        Lease.Meanwhile guard v (v.later 309) ∧
        (performExclusive { batchSize := 1 } { retries := 0 } 1 undisturbed (v.later 309)).1 =
          .ok none := by
  have hlock : ({} : WorkerOptions).lock? {} = some { ttl := .ofSeconds 310 } := rfl
  refine ⟨hlock, _, _, rfl, (performExclusive_spec 1 undisturbed idleWorld hlock).2.2.2 _ _ _ rfl,
    .single ⟨.elsewhere _ _ rfl, 309000, rfl, rfl⟩, ?_⟩
  have hlock' : ({ batchSize := 1 } : WorkerOptions).lock? { retries := 0 } =
      some { ttl := .ofSeconds 310, retries := 0 } := rfl
  rw [performExclusive_of_notObtained hlock' rfl]

/-- A run that finds no row has a report, and only time has passed. -/
theorem perform_of_empty (o : WorkerOptions) (size : Nat) (cs : Circumstances) {w : World}
    (hs : w.database.isPoisoned = false) (hempty : w.store.aggregations = []) :
    ∃ report clock, perform o size cs w = (.ok report, { w with clock }) := by
  have hdue : w.store.dueInOrder o.mode w.now.millis = [] :=
    Store.dueInOrder_eq (by rw [Store.due, hempty]; exact .refl _) .nil .nil
  have hperform := perform_of_readable o size cs hs (by rw [hempty]; exact .nil)
    (by rw [hdue]; exact List.forall_mem_nil _)
  have htour : w.dueTour o size cs = (Shift.opening o w).tour (w.terms o size cs) [] :=
    congrArg (fun rows => (Shift.opening o w).tour (w.terms o size cs) rows) hdue
  rw [htour] at hperform
  exact ⟨_, _, hperform⟩

/-- A run that gets in and finds no row has a report, and gives the lease back. -/
theorem performExclusive_of_empty {o : WorkerOptions} {lock raised : LockOptions} (size : Nat)
    (cs : Circumstances) {w v : World} {guard : LeaseGuard} {isRetry : Bool}
    (hlock : o.lock? lock = some raised)
    (h : Lease.obtain o.mode.leaseKey raised w = (.ok (guard, isRetry), v))
    (hs : v.database.isPoisoned = false) (hempty : v.store.aggregations = []) :
    ∃ report clock,
      performExclusive o lock size cs w =
        (.ok (some report), Lease.release guard { v with clock }) := by
  obtain ⟨report, clock, hperform⟩ := perform_of_empty o size cs hs hempty
  rw [performExclusive_eq hlock, Lease.inLock, h]
  dsimp only
  rw [hperform]
  exact ⟨report, clock, rfl⟩

/-- **A lease that does not last**: some seconds after a run has taken it another run of the mode
gets in, though less time has passed than the first one asked for, by a clock that nobody has set
and that has not come to its end. -/
def RegainedAfter (s : UInt64) (lock raised : LockOptions) (w : World) : Prop :=
  ({} : WorkerOptions).lock? lock = some raised ∧
    ∃ guard v, Lease.obtain Mode.incremental.leaseKey raised w = (.ok (guard, false), v) ∧
      Lease.Meanwhile guard v (v.later s) ∧
      (v.later s).now < Instant.last ∧ (v.later s).clock.elapsed < Span.longest ∧
      (v.later s).clock.elapsed.nanos - w.reckoning.nanos < raised.ttl.nanos ∧
      ∃ report, (performExclusive {} {} 1 undisturbed (v.later s)).1 = .ok (some report)

/-- A run is told to hold its lease for half a millisecond more than it would anyway. -/
def splitLock : LockOptions := { ttl := .ofNanos 310000500000 }

/-- The wall time will be at its last nanosecond but one in five seconds. -/
def lateWorld : World :=
  { idleWorld with clock := { wall := ⟨8210266876794999999998, by decide, by decide⟩ } }

/-- The service of the world will not take back the next lease. -/
def reluctantWorld : World :=
  { idleWorld with leases := { faults := fun call => if call = .cancel then [true] else [] } }

/-- **A part of a millisecond is lost** in the store, in the time that a run asks for as at the end
of the wall time. **And a lease stays behind** when the run is over, where the service fails to take
it back, though nobody has taken it over. -/
theorem regained_split :
    RegainedAfter 310 splitLock splitLock idleWorld ∧
      RegainedAfter 5 {} { ttl := .ofSeconds 310 } lateWorld ∧
      ∃ guard v, Lease.obtain Mode.incremental.leaseKey { ttl := .ofSeconds 310 } reluctantWorld =
          (.ok (guard, false), v) ∧
        (∃ report, (performExclusive {} {} 1 undisturbed reluctantWorld).1 = .ok (some report)) ∧
        ((performExclusive {} {} 1 undisturbed reluctantWorld).2.lease?
          Mode.incremental.leaseKey).map Hold.token = some guard.token := by
  have hlock : ({} : WorkerOptions).lock? {} = some { ttl := .ofSeconds 310 } := rfl
  refine ⟨⟨rfl, _, _, rfl, .single ⟨.elsewhere _ _ rfl, 310000, rfl, rfl⟩,
      by decide +kernel, by decide +kernel, by decide +kernel, ?_⟩,
    ⟨rfl, _, _, rfl, .single ⟨.elsewhere _ _ rfl, 5000, rfl, rfl⟩,
      by decide +kernel, by decide +kernel, by decide +kernel, ?_⟩, _, _, rfl, ?_⟩
  · let w := (Lease.obtain Mode.incremental.leaseKey splitLock idleWorld).2.later 310
    obtain ⟨report, _, hrun⟩ := performExclusive_of_empty 1 undisturbed (w := w) hlock rfl rfl rfl
    exact ⟨report, congrArg Prod.fst hrun⟩
  · let taking := Lease.obtain Mode.incremental.leaseKey { ttl := .ofSeconds 310 } lateWorld
    let w := taking.2.later 5
    obtain ⟨report, _, hrun⟩ := performExclusive_of_empty 1 undisturbed (w := w) hlock rfl rfl rfl
    exact ⟨report, congrArg Prod.fst hrun⟩
  · obtain ⟨report, _, hrun⟩ :=
      performExclusive_of_empty 1 undisturbed (w := reluctantWorld) hlock rfl rfl rfl
    rw [hrun]
    exact ⟨⟨report, rfl⟩, rfl⟩

end Leasehold
