import Leasehold.Proofs.Aggregation.Soundness
import Mathlib.Logic.Function.Basic
import Mathlib.Logic.Relation

/-!
# Many workers on one store

Workers step aggregations side by side. Each has loaded some aggregations a while ago, and each
step under way is somewhere between two of its calls on the store: it reads a page, saves a full
page, or saves the end of its run. In between the store may have changed in any way – other
workers have saved the same row, in the other mode perhaps, targets were registered, events were
added – and the worker may never come to its next call.

The crew (`Leasehold.Crew`) is that situation, and `Leasehold.Crew.Step` is one call on the store,
by anybody. The invariant (`Leasehold.Crew.Sound`) says of the rows, of what was loaded and of the
steps under way alike that cursor and totals belong together, so after every run each row accounts
for each event up to its cursor exactly once (`Leasehold.Crew.folded_exactly_once`).

A step that nobody disturbs is a run of the crew (`Leasehold.Crew.run_step`), whatever its budget
says and however it ends, so what holds after every run holds after it, too.
-/

namespace Leasehold

/-! ### A step between two calls -/

/-- The call on the store that a step makes next. -/
inductive Stage where
  /-- It reads a page. -/
  | reading
  /-- It saves a full page. -/
  | saving
  /-- It saves the end of its run. -/
  | closing
deriving DecidableEq

/-- **A step under way**, between two of its calls on the store. -/
structure Job where
  /-- The mode it runs in. -/
  mode : Mode
  /-- How many events it takes at a time. -/
  pageSize : Nat
  /-- The call it makes next. -/
  stage : Stage
  /-- The aggregation in hand. -/
  aggregation : Aggregation
  /-- How many events were folded. -/
  folded : Nat

namespace Job

/-- A step begins with an aggregation in hand. -/
def start (m : Mode) (pageSize : Nat) (a : Aggregation) : Job :=
  ⟨m, pageSize, .reading, Shift.startOf m a, 0⟩

/-- **It reads a page** and folds it; a page that is not full is the last one. The step ends where
the page cannot be read. -/
def read (j : Job) (s : Store) : Option Job :=
  match s.eventsAfter j.aggregation.target j.aggregation.cursor (max j.pageSize 1) with
  | .error _ => none
  | .ok es => some { j with
      stage := if es.length < max j.pageSize 1 then .closing else .saving
      aggregation := j.aggregation.foldAll es
      folded := j.folded + es.length }

/-- Where saving a full page leads: the step goes on unless its budget has run out, and it ends
where the page cannot be saved. -/
def afterSave (j : Job) (isOver : Bool) : Except Store.Fault Unit → Option Job
  | .error _ => none
  | .ok () => some { j with stage := if isOver then .closing else .reading }

/-- **It saves a full page.** -/
def save (j : Job) (isOver : Bool) (s : Store) : Option Job × Store :=
  (j.afterSave isOver (s.saveAggregation j.aggregation).1, (s.saveAggregation j.aggregation).2)

/-- The aggregation as it is saved in the end. -/
def result (j : Job) (runtime : Span) (t : Instant) : Aggregation :=
  (j.aggregation.recordRun j.mode runtime j.folded).markRun j.mode t

/-- **It saves the end of its run.** -/
def close (j : Job) (runtime : Span) (t : Instant) (s : Store) : Store :=
  (s.saveAggregation (j.result runtime t)).2

variable {s : Store} {j j' : Job}

theorem vouches_start {a : Aggregation} (ha : s.Vouches a) (m : Mode) (pageSize : Nat) :
    s.Vouches (start m pageSize a).aggregation := by
  cases m with
  | incremental => exact ha
  | full => exact ⟨a.isExact_reset s, ha.id_lt, ha.target_eq⟩

theorem read_of_eventsAfter (j : Job) {es : List Event}
    (h : s.eventsAfter j.aggregation.target j.aggregation.cursor (max j.pageSize 1) = .ok es) :
    j.read s = some ⟨j.mode, j.pageSize, if es.length < max j.pageSize 1 then .closing else .saving,
      j.aggregation.foldAll es, j.folded + es.length⟩ := by
  rw [read]
  rw [h]

/-- Reading a page depends on the events alone. -/
theorem read_congr {s' : Store} (h : s'.events = s.events) (j : Job) : j.read s' = j.read s := by
  unfold read Store.eventsAfter Store.rowsAfter
  rw [h]

theorem vouches_read (hs : s.Sound) (hj : s.Vouches j.aggregation) (h : j.read s = some j') :
    s.Vouches j'.aggregation := by
  rw [read] at h
  split at h
  · cases h
  · rename_i es hes
    cases h
    refine ⟨hj.isExact.foldAll hs.numbered hes, ?_, ?_⟩
    · rw [Shift.id_foldAll]
      exact hj.id_lt
    · rw [Shift.id_foldAll, Shift.target_foldAll]
      exact hj.target_eq

theorem aggregation_afterSave {isOver : Bool} {answer : Except Store.Fault Unit}
    (h : j.afterSave isOver answer = some j') : j'.aggregation = j.aggregation := by
  cases answer with
  | error e => cases h
  | ok u =>
    cases h
    rfl

/-- What a run notes about itself in the end leaves cursor and totals alone. -/
theorem vouches_result (hj : s.Vouches j.aggregation) (runtime : Span) (t : Instant) :
    s.Vouches (j.result runtime t) := ⟨hj.isExact, hj.id_lt, hj.target_eq⟩

end Job

/-! ### The crew -/

/-- **A crew**: a store, and what each worker has in hand. -/
structure Crew (ι : Type) where
  /-- The store they share. -/
  store : Store := {}
  /-- The aggregations that each worker has loaded, whenever that was. -/
  loaded : ι → List Aggregation := fun _ => []
  /-- The step of each worker, when one is under way. -/
  job : ι → Option Job := fun _ => none

namespace Crew

variable {ι : Type} [DecidableEq ι]

/-- Some worker's step is replaced. -/
def setJob (c : Crew ι) (i : ι) (j : Option Job) : Crew ι :=
  { c with job := Function.update c.job i j }

/-- Some worker's step is replaced, and the store with it. -/
def setBoth (c : Crew ι) (i : ι) (j : Option Job × Store) : Crew ι :=
  { c with store := j.2, job := Function.update c.job i j.1 }

theorem setBoth_setBoth (c : Crew ι) (i : ι) (x y : Option Job × Store) :
    (c.setBoth i x).setBoth i y = c.setBoth i y := by
  unfold setBoth
  rw [Function.update_idem]

theorem setJob_eq_setBoth (c : Crew ι) (i : ι) (j : Option Job) :
    c.setJob i j = c.setBoth i (j, c.store) := rfl

theorem job_setBoth (c : Crew ι) (i : ι) (x : Option Job × Store) : (c.setBoth i x).job i = x.1 :=
  Function.update_self _ _ _

/-- **One call on the store**, by a worker or by somebody else. What the clock shows and what a
budget answers is left open, and a step may break off between any two of its calls. -/
inductive Step : Crew ι → Crew ι → Prop
  /-- A target is registered. -/
  | register (c : Crew ι) (target : Int) :
      Step c { c with store := (c.store.register target).2 }
  /-- An aggregation is switched on or off. -/
  | enable (c : Crew ι) (id : Int) (enabled : Bool) :
      Step c { c with store := c.store.setEnabled id enabled }
  /-- An aggregation is marked as run. -/
  | mark (c : Crew ι) (id : Int) (m : Mode) (t : Instant) :
      Step c { c with store := (c.store.markRun id m t).2 }
  /-- A target gets an event, no earlier than those it has. -/
  | addEvent (c : Crew ι) (target value : Int) (t : Instant)
      (ht : ∀ r ∈ c.store.events, r.target = target → r.millis ≤ t.millis) :
      Step c { c with store := (c.store.addEvent target value t).2 }
  /-- A worker loads some aggregations. -/
  | load (c : Crew ι) (i : ι) (as : List Aggregation)
      (has : ∀ a ∈ as, ∃ r ∈ c.store.aggregations, r.read = .ok a) :
      Step c { c with loaded := Function.update c.loaded i as }
  /-- A worker begins a step on an aggregation it has loaded. -/
  | begin (c : Crew ι) (i : ι) (m : Mode) (pageSize : Nat) (a : Aggregation)
      (ha : a ∈ c.loaded i) : Step c (c.setJob i (some (Job.start m pageSize a)))
  /-- A step reads a page. -/
  | read (c : Crew ι) (i : ι) (j : Job) (hj : c.job i = some j) (hstage : j.stage = .reading) :
      Step c (c.setJob i (j.read c.store))
  /-- A step saves a full page and asks its budget. -/
  | save (c : Crew ι) (i : ι) (j : Job) (isOver : Bool) (hj : c.job i = some j)
      (hstage : j.stage = .saving) : Step c (c.setBoth i (j.save isOver c.store))
  /-- A step saves the end of its run. -/
  | close (c : Crew ι) (i : ι) (j : Job) (runtime : Span) (t : Instant) (hj : c.job i = some j)
      (hstage : j.stage = .closing) : Step c (c.setBoth i (none, j.close runtime t c.store))
  /-- A step breaks off. -/
  | breakOff (c : Crew ι) (i : ι) : Step c (c.setJob i none)

/-- **Some calls on the store**, one after another. -/
abbrev Run : Crew ι → Crew ι → Prop := Relation.ReflTransGen Step

/-! ### The invariant -/

/-- **Everything in the crew is good**: the rows, the aggregations that were loaded, and those that
steps have in hand. -/
structure Sound (c : Crew ι) : Prop where
  /-- The rows are exact. -/
  store : c.store.Sound
  /-- What was loaded is good. -/
  loaded : ∀ i, ∀ a ∈ c.loaded i, c.store.Vouches a
  /-- What the steps have in hand is good. -/
  job : ∀ i, ∀ j ∈ c.job i, c.store.Vouches j.aggregation

variable {c c' : Crew ι}

omit [DecidableEq ι] in
theorem sound_empty : Sound ({} : Crew ι) :=
  ⟨Store.sound_empty, fun _ _ h => (List.not_mem_nil h).elim, fun _ _ h => nomatch h⟩

omit [DecidableEq ι] in
/-- A call that touches nothing in hand. -/
theorem Sound.withStore (hc : c.Sound) {s : Store} (hs : s.Sound) (h : c.store.GoesOn s) :
    Sound { c with store := s } :=
  ⟨hs, fun i a ha => (hc.loaded i a ha).goesOn h, fun i j hj => (hc.job i j hj).goesOn h⟩

/-- A call that replaces one step. -/
theorem Sound.setBoth (hc : c.Sound) {s : Store} (hs : s.Sound) (h : c.store.GoesOn s) (i : ι)
    {j : Option Job} (hj : ∀ j' ∈ j, c.store.Vouches j'.aggregation) :
    (c.setBoth i (j, s)).Sound := by
  refine ⟨hs, fun k a ha => (hc.loaded k a ha).goesOn h, fun k j' hj' => ?_⟩
  change j' ∈ Function.update c.job i j k at hj'
  rcases eq_or_ne k i with rfl | hk
  · rw [Function.update_self] at hj'
    exact (hj j' hj').goesOn h
  · rw [Function.update_of_ne hk] at hj'
    exact (hc.job k j' hj').goesOn h

theorem Sound.setJob (hc : c.Sound) (i : ι) {j : Option Job}
    (hj : ∀ j' ∈ j, c.store.Vouches j'.aggregation) : (c.setJob i j).Sound :=
  hc.setBoth hc.store (.refl _) i hj

/-- **Every call keeps the crew good.** -/
theorem Sound.step (hc : c.Sound) (h : Step c c') : c'.Sound := by
  cases h with
  | register target =>
    exact hc.withStore (hc.store.register target) (c.store.goesOn_register target)
  | enable id enabled =>
    exact hc.withStore (hc.store.setEnabled id enabled) (c.store.goesOn_setEnabled id enabled)
  | mark id m t =>
    exact hc.withStore (hc.store.markRun id m t) (c.store.goesOn_markRun id m t)
  | addEvent target value t ht =>
    exact hc.withStore (hc.store.addEvent value ht)
      (Store.goesOn_addEvent hc.store.numbered value ht)
  | load i as has =>
    refine ⟨hc.store, fun k a ha => ?_, hc.job⟩
    change a ∈ Function.update c.loaded i as k at ha
    rcases eq_or_ne k i with rfl | hk
    · rw [Function.update_self] at ha
      obtain ⟨r, hr, hread⟩ := has a ha
      exact hc.store.vouches_of_read hr hread
    · rw [Function.update_of_ne hk] at ha
      exact hc.loaded k a ha
  | begin i m pageSize a ha =>
    refine hc.setJob i fun j hj => ?_
    cases hj
    exact Job.vouches_start (hc.loaded i a ha) m pageSize
  | read i j hj =>
    exact hc.setJob i fun j' hj' => Job.vouches_read hc.store (hc.job i j hj) hj'
  | save i j isOver hj =>
    have hv := hc.job i j hj
    refine hc.setBoth (hc.store.saveAggregation hv) (c.store.goesOn_saveAggregation _) i
      fun j' hj' => ?_
    rw [Job.aggregation_afterSave hj']
    exact hv
  | close i j runtime t hj =>
    have hv := Job.vouches_result (hc.job i j hj) runtime t
    exact hc.setBoth (hc.store.saveAggregation hv) (c.store.goesOn_saveAggregation _) i
      fun j' hj' => nomatch hj'
  | breakOff i => exact hc.setJob i fun j hj => nomatch hj

/-- **Every run keeps the crew good.** -/
theorem Sound.run (hc : c.Sound) (h : Run c c') : c'.Sound := by
  induction h with
  | refl => exact hc
  | tail _ hstep ih => exact ih.step hstep

/-! ### A step that nobody disturbs -/

/-- Where the pages of a step have led. -/
def afterPages (m : Mode) (pageSize : Nat) : Except Store.Fault Shift.Progress → Option Job
  | .error _ => none
  | .ok p => some ⟨m, pageSize, .closing, p.aggregation, p.folded⟩

section Undisturbed

variable {m : Mode} {size folded : Nat} {a : Aggregation} {s s' : Shift} {i : ι}

theorem run_page {es : List Event} (hstore : c.store = s.store)
    (hj : c.job i = some ⟨m, size, .reading, a, folded⟩) (hp : s.page (max size 1) a = .ok es) :
    Run c (c.setBoth i (some ⟨m, size, if es.length < max size 1 then .closing else .saving,
      a.foldAll es, folded + es.length⟩, s.store)) := by
  have h := Step.read c i _ hj rfl
  rw [hstore, Job.read_of_eventsAfter _ (Shift.eventsAfter_of_page hp)] at h
  rw [← hstore]
  exact .single h

/-- A step begins and reads its first page. -/
theorem run_firstPage {j : Job} (ha : a ∈ c.loaded i)
    (hj : (Job.start m size a).read c.store = some j) :
    Run c (c.setBoth i (some j, c.store)) := by
  have h := Step.read _ i _ (job_setBoth c i (some (Job.start m size a), c.store)) rfl
  rw [setJob_eq_setBoth, setBoth_setBoth] at h
  change Step _ (c.setBoth i ((Job.start m size a).read c.store, c.store)) at h
  rw [hj] at h
  exact (Relation.ReflTransGen.single (.begin c i m size a ha)).tail h

/-- A page that is full is saved; that ends the step where it fails, and otherwise leaves it to
the budget. -/
theorem run_fullPage {es : List Event} {answer : Except Store.Fault Unit} (isOver : Bool)
    (hstore : c.store = s.store) (hj : c.job i = some ⟨m, size, .reading, a, folded⟩)
    (hp : s.page (max size 1) a = .ok es) (hl : ¬es.length < max size 1)
    (hs : s.save (a.foldAll es) = (answer, s')) :
    Run c (c.setBoth i (Job.afterSave ⟨m, size, .saving, a.foldAll es, folded + es.length⟩ isOver
      answer, s'.store)) := by
  have hpage := run_page hstore hj hp
  rw [if_neg hl] at hpage
  refine hpage.trans (.single ?_)
  have hsave := s.store_save (a.foldAll es)
  rw [hs] at hsave
  rcases hsave with ⟨hsame, hne⟩ | ⟨hstore', hanswer⟩
  · cases answer with
    | ok u => exact absurd rfl hne
    | error e =>
      have h := Step.breakOff (c.setBoth i (some ⟨m, size, .saving, a.foldAll es,
        folded + es.length⟩, s.store)) i
      rw [setJob_eq_setBoth, setBoth_setBoth] at h
      have hsame : s'.store = s.store := hsame
      rw [hsame]
      exact h
  · have h := Step.save (c.setBoth i (some ⟨m, size, .saving, a.foldAll es,
      folded + es.length⟩, s.store)) i _ isOver (job_setBoth c i _) rfl
    rw [setBoth_setBoth] at h
    have hstore' : s'.store = (s.store.saveAggregation (a.foldAll es)).2 := hstore'
    have hanswer : answer = (s.store.saveAggregation (a.foldAll es)).1 := hanswer
    rw [hstore', hanswer]
    exact h

/-- **The pages of a step** that nobody disturbs are calls of the crew. -/
theorem run_foldPages (hstore : c.store = s.store)
    (hj : c.job i = some ⟨m, size, .reading, a, folded⟩) :
    Run c (c.setBoth i (afterPages m size (s.foldPages size a folded).1,
      (s.foldPages size a folded).2.store)) := by
  fun_induction Shift.foldPages size a folded s generalizing c with
  | case1 a folded s e hp =>
    have h := Step.breakOff c i
    rw [setJob_eq_setBoth, hstore] at h
    exact .single h
  | case2 a folded s es hp hl =>
    have h := run_page hstore hj hp
    rwa [if_pos hl] at h
  | case3 a folded s es hp hl e s' hs => exact run_fullPage true hstore hj hp hl hs
  | case4 a folded s es hp hl s' hs s'' hc =>
    have hsame : s''.store = s'.store := by rw [← s'.store_check, hc]
    rw [hsame]
    exact run_fullPage true hstore hj hp hl hs
  | case5 a folded s es hp hl s' hs s'' hc ih =>
    have hsame : s''.store = s'.store := by rw [← s'.store_check, hc]
    have h := run_fullPage false hstore hj hp hl hs
    refine h.trans ?_
    have h' := ih (c := c.setBoth i (Job.afterSave ⟨m, size, .saving, a.foldAll es,
      folded + es.length⟩ false (.ok ()), s'.store)) hsame.symm (by rw [job_setBoth]; rfl)
    rwa [setBoth_setBoth] at h'

/-- The end of a step is saved, or it breaks off. -/
theorem run_close {j : Job} (hstore : c.store = s.store) (hj : c.job i = some j)
    (hstage : j.stage = .closing) (runtime : Span) (t : Instant) :
    Run c (c.setBoth i (none, (s.save (j.result runtime t)).2.store)) := by
  refine .single ?_
  rcases s.store_save (j.result runtime t) with ⟨hsame, -⟩ | ⟨hsave, -⟩
  · rw [hsame, ← hstore]
    exact .breakOff c i
  · rw [hsave, ← hstore]
    exact .close c i j runtime t hj hstage

/-- **A step that nobody disturbs** is a run of the crew: it begins with an aggregation that the
worker has loaded, and leaves the store as `Leasehold.Shift.step` does, also when it fails. -/
theorem run_step (cutoff : Instant) (hstore : c.store = s.store) (ha : a ∈ c.loaded i) :
    Run c (c.setBoth i (none, (s.step size a m cutoff).2.store)) := by
  have hbegin := Step.begin c i m size a ha
  have hpages := run_foldPages (c := c.setBoth i (some (Job.start m size a), c.store))
    (s := s.readElapsed.2) (hstore.trans s.store_readElapsed.symm) (job_setBoth c i _)
  rw [setBoth_setBoth] at hpages
  refine (Relation.ReflTransGen.single hbegin).trans (hpages.trans ?_)
  rw [Shift.step]
  simp only
  cases hf : s.readElapsed.2.foldPages size (Shift.startOf m a) 0 with
  | mk answer s₁ =>
    cases answer with
    | error e => exact .refl
    | ok p =>
      have hclose := run_close (c := c.setBoth i (some ⟨m, size, .closing, p.aggregation, p.folded⟩,
        s₁.store)) (s := s₁.readElapsed.2) rfl (job_setBoth c i _) rfl
        (s₁.readElapsed.1 - s.readElapsed.1) (max s₁.readElapsed.2.world.now cutoff)
      rw [setBoth_setBoth] at hclose
      simp only
      split <;> rename_i hsave <;> simp only [Job.result, hsave] at hclose <;> exact hclose

end Undisturbed

/-! ### Each event is folded exactly once -/

/-- **Each event is folded exactly once.** However workers interleave and wherever they break off,
each row of the store has either no cursor and no totals, or the place of an event of its target
for a cursor, and the sum and the number of the target's events up to it for totals. -/
theorem folded_exactly_once (h : Run ({} : Crew ι) c) :
    ∀ r ∈ c.store.aggregations,
      c.store.FoldsTo r.target r.cursorTime r.cursorEvent r.total r.processed :=
  (sound_empty.run h).store.foldsTo

/-! Two workers hold the same copy of a row of two events in one millisecond. The first folds both
and saves the end of its run; the second, in the other mode and in pages of one, then saves its
first page, which takes the row back to the first event. -/

/-- The store of two events in one millisecond. -/
def twinStore : Store :=
  (((({} : Store).register 7).2.addEvent 7 10 .epoch).2.addEvent 7 20 .epoch).2

theorem sorted_twinStore : (twinStore.rowsAfter 7 none).mergeSort Store.EventRow.noLater =
    [⟨1, 7, 0, 10⟩, ⟨2, 7, 0, 20⟩] := by
  have hrows : twinStore.rowsAfter 7 none = [⟨1, 7, 0, 10⟩, ⟨2, 7, 0, 20⟩] := rfl
  rw [hrows]
  exact List.mergeSort_of_pairwise (by decide)

/-- A copy of its row. -/
def twinCopy : Aggregation :=
  { id := 1, target := 7, enabled := true, lastRun := .both none, cursor := none, total := 0,
    processed := 0, stats := .both {} }

/-- Both workers hold the copy. -/
def twinCrew : Crew Bool where
  store := twinStore
  loaded := fun _ => [twinCopy]

/-- The first worker has read both events. -/
def twinJob : Job :=
  ⟨.incremental, 5, .closing, twinCopy.foldAll [⟨1, 7, .epoch, 10⟩, ⟨2, 7, .epoch, 20⟩], 2⟩

/-- The second worker has read the first event. -/
def staleJob : Job := ⟨.full, 1, .saving, twinCopy.reset.foldAll [⟨1, 7, .epoch, 10⟩], 1⟩

/-- The second worker has saved its page after the first worker had finished. -/
def staleCrew : Crew Bool :=
  (twinCrew.setBoth false (none, twinJob.close .zero .epoch twinStore)).setBoth true
    (staleJob.save false (twinJob.close .zero .epoch twinStore))

theorem run_twinCrew : Run {} twinCrew := by
  have hevents : Run ({} : Crew Bool) { store := twinStore } :=
    ((Relation.ReflTransGen.single (.register {} 7)).tail
      (.addEvent _ 7 10 .epoch (by decide))).tail (.addEvent _ 7 20 .epoch (by decide))
  have hload : ∀ a ∈ [twinCopy], ∃ r ∈ twinStore.aggregations, r.read = .ok a := by
    intro a ha
    obtain rfl := List.mem_singleton.1 ha
    exact ⟨{ id := 1, target := 7 }, List.mem_cons_self, rfl⟩
  have hloaded : (fun _ => [twinCopy]) =
      Function.update (Function.update (fun _ => []) false [twinCopy]) true [twinCopy] := by
    funext b
    cases b <;> rfl
  rw [twinCrew]
  rw [hloaded]
  exact (hevents.tail (.load _ false _ hload)).tail (.load _ true _ hload)

theorem run_staleCrew : Run {} staleCrew := by
  let later := twinJob.close .zero .epoch twinStore
  have htwin : (Job.start .incremental 5 twinCopy).read twinStore = some twinJob := by
    have hpage : twinStore.eventsAfter 7 none (max 5 1) =
        .ok [⟨1, 7, .epoch, 10⟩, ⟨2, 7, .epoch, 20⟩] := by
      rw [Store.eventsAfter, sorted_twinStore]
      rfl
    exact (Job.start .incremental 5 twinCopy).read_of_eventsAfter hpage
  have hstale : (Job.start .full 1 twinCopy).read later = some staleJob := by
    have hpage : twinStore.eventsAfter 7 none (max 1 1) = .ok [⟨1, 7, .epoch, 10⟩] := by
      rw [Store.eventsAfter, sorted_twinStore]
      rfl
    exact (Job.read_congr (Store.events_saveAggregation twinStore _) _).trans
      ((Job.start .full 1 twinCopy).read_of_eventsAfter hpage)
  have h₁ := run_firstPage (c := twinCrew) (i := false) List.mem_cons_self htwin
  have h₂ := Step.close (twinCrew.setBoth false (some twinJob, twinStore)) false twinJob .zero
    .epoch (job_setBoth _ _ _) rfl
  have h₃ := run_firstPage (c := twinCrew.setBoth false (none, later)) (i := true)
    List.mem_cons_self hstale
  have h₄ := Step.save ((twinCrew.setBoth false (none, later)).setBoth true (some staleJob, later))
    true staleJob false (job_setBoth _ _ _) rfl
  rw [setBoth_setBoth] at h₂ h₄
  exact ((run_twinCrew.trans h₁).tail h₂).trans (h₃.tail h₄)

theorem folded_exactly_once_stale :
    Run {} staleCrew ∧
      (staleCrew.store.aggregations.map fun r => (r.cursorEvent, r.total, r.processed)) =
        [(some 1, 10, 1)] ∧
      ∀ r ∈ staleCrew.store.aggregations, staleCrew.store.FoldsTo r.target r.cursorTime
        r.cursorEvent r.total r.processed :=
  ⟨run_staleCrew, rfl, folded_exactly_once run_staleCrew⟩

end Crew

end Leasehold
