import Leasehold.World

/-!
# One step of an aggregation

A step folds the events that an aggregation has not seen yet, page by page. After each full page
it saves the aggregation and then asks its budget whether to go on; a page that is not full is
the last one. In the end it notes when it ran and what the run took, and saves again.

* `Leasehold.Shift` – the world a worker acts in, with the budget it keeps to;
* `Leasehold.Shift.foldPages` – the pages of a step;
* `Leasehold.Shift.step` – the whole step.

A step that runs out of budget leaves the aggregation as it was saved after its last page, with
the run noted all the same. The pages come to an end because each leaves fewer events to read,
and saving an aggregation adds none.

What a step does to the rows that are due is stated for the worker that goes through them:
whatever happens, the rows of other aggregations stay as they are
(`Leasehold.Shift.dueElsewhere_foldPages`), and a step that succeeds is not due any more
(`Leasehold.Shift.due_step`).
-/

namespace Leasehold

/-- **A shift of a worker**: the world it acts in, and the budget it keeps to. -/
structure Shift where
  /-- The world. -/
  world : World
  /-- The budget. -/
  budget : Budget

namespace Shift

/-! ### Parts of a step -/

/-- The store of the world. -/
def store (s : Shift) : Store := s.world.store

/-- An action in the world of the shift. -/
def run {ε α : Type} (a : Action ε α) (s : Shift) : Except ε α × Shift :=
  let (answer, w) := a s.world
  (answer, { s with world := w })

/-- The elapsed time; reading it may take time. -/
def readElapsed (s : Shift) : Span × Shift :=
  let (reading, c) := s.world.clock.read
  (reading, { s with world := { s.world with clock := c } })

/-- **Whether the budget has run out.** -/
def check (s : Shift) : Bool × Shift :=
  let (b, c) := s.budget.check s.world.clock
  (b.wasOver, ⟨{ s.world with clock := c }, b⟩)

/-- The next page of events of an aggregation. -/
def page (s : Shift) (size : Nat) (a : Aggregation) : Except Store.Fault (List Event) :=
  (look (fun st => st.eventsAfter a.target a.cursor size) s.world).1

/-- Saves an aggregation. -/
def save (s : Shift) (a : Aggregation) : Except Store.Fault Unit × Shift :=
  s.run (edit fun st => st.saveAggregation a)

@[simp]
theorem store_readElapsed (s : Shift) : s.readElapsed.2.store = s.store := rfl

@[simp]
theorem store_check (s : Shift) : s.check.2.store = s.store := rfl

theorem eventsAfter_of_page {s : Shift} {size : Nat} {a : Aggregation} {es : List Event}
    (h : s.page size a = .ok es) : s.store.eventsAfter a.target a.cursor size = .ok es := by
  unfold page look at h
  split at h
  · cases h
  · exact h

/-- Saving either fails and changes nothing, or is a call on the store. -/
theorem store_save (s : Shift) (a : Aggregation) :
    (s.save a).2.store = s.store ∧ (s.save a).1 ≠ .ok () ∨
      (s.save a).2.store = (s.store.saveAggregation a).2 ∧
        (s.save a).1 = (s.store.saveAggregation a).1 := by
  unfold save run edit store
  by_cases h : s.world.database.isPoisoned = true
  · simp [h]
  · right
    simp [h]

theorem events_save (s : Shift) (a : Aggregation) : (s.save a).2.store.events = s.store.events := by
  rcases store_save s a with ⟨h, _⟩ | ⟨h, _⟩
  · rw [h]
  · rw [h, Store.events_saveAggregation]

theorem dueElsewhere_save (s : Shift) (a : Aggregation) (m : Mode) (cutoff : Int) :
    (s.save a).2.store.dueElsewhere m cutoff a.id = s.store.dueElsewhere m cutoff a.id := by
  rcases store_save s a with ⟨h, _⟩ | ⟨h, _⟩
  · rw [h]
  · rw [h, Store.dueElsewhere_saveAggregation]

/-! ### Pages -/

/-- What the pages of a step did. -/
structure Progress where
  /-- The aggregation with the events folded. -/
  aggregation : Aggregation
  /-- How many events were folded. -/
  folded : Nat
  /-- Whether no event is left. -/
  caughtUp : Bool

theorem target_foldAll (a : Aggregation) (es : List Event) : (a.foldAll es).target = a.target := by
  unfold Aggregation.foldAll
  induction es generalizing a with
  | nil => rfl
  | cons e es ih => exact ih _

theorem id_foldAll (a : Aggregation) (es : List Event) : (a.foldAll es).id = a.id := by
  unfold Aggregation.foldAll
  induction es generalizing a with
  | nil => rfl
  | cons e es ih => exact ih _

theorem cursor_foldAll (a : Aggregation) {es : List Event} (h : es ≠ []) :
    ∃ e ∈ es, (a.foldAll es).cursor = some e.cursor := by
  unfold Aggregation.foldAll
  induction es generalizing a with
  | nil => exact absurd rfl h
  | cons e es ih =>
    cases es with
    | nil => exact ⟨e, List.mem_cons_self, rfl⟩
    | cons e' es =>
      obtain ⟨x, hx, hc⟩ := ih (a.fold e) (List.cons_ne_nil _ _)
      exact ⟨x, List.mem_cons_of_mem _ hx, hc⟩

/-- **The pages of a step**, each folded and saved as long as it is full and the budget lasts. A
page has at least one event. -/
def foldPages (size : Nat) (a : Aggregation) (folded : Nat) (s : Shift) :
    Except Store.Fault Progress × Shift :=
  match _hp : s.page (max size 1) a with
  | .error e => (.error e, s)
  | .ok es =>
    if _hl : es.length < max size 1 then (.ok ⟨a.foldAll es, folded + es.length, true⟩, s)
    else
      match _hs : s.save (a.foldAll es) with
      | (.error e, s') => (.error e, s')
      | (.ok (), s') =>
        match _hc : s'.check with
        | (true, s'') => (.ok ⟨a.foldAll es, folded + es.length, false⟩, s'')
        | (false, s'') => foldPages size (a.foldAll es) (folded + es.length) s''
termination_by s.store.remaining a.target a.cursor
decreasing_by
  have hne : es ≠ [] := by
    intro h
    rw [h] at _hl
    simp at _hl
  obtain ⟨e, he, hcur⟩ := cursor_foldAll a hne
  have hstore : s''.store.events = s.store.events := by
    have h1 : s'' = s'.check.2 := by rw [_hc]
    have h2 : s' = (s.save (a.foldAll es)).2 := by rw [_hs]
    rw [h1, store_check, h2, events_save]
  rw [target_foldAll, hcur]
  unfold Store.remaining Store.rowsAfter
  rw [hstore]
  exact Store.remaining_lt (eventsAfter_of_page _hp) he

theorem dueElsewhere_foldPages (size : Nat) (a : Aggregation) (folded : Nat) (s : Shift) (m : Mode)
    (cutoff : Int) :
    (s.foldPages size a folded).2.store.dueElsewhere m cutoff a.id =
      s.store.dueElsewhere m cutoff a.id := by
  fun_induction foldPages size a folded s with
  | case1 => rfl
  | case2 => rfl
  | case3 a folded s es hp hl e s' hs =>
    have h := dueElsewhere_save s (a.foldAll es) m cutoff
    rwa [hs, id_foldAll] at h
  | case4 a folded s es hp hl s' hs s'' hc =>
    have h := dueElsewhere_save s (a.foldAll es) m cutoff
    rw [hs, id_foldAll] at h
    have h2 := store_check s'
    rw [hc] at h2
    simp only at h h2 ⊢
    rw [h2, h]
  | case5 a folded s es hp hl s' hs s'' hc ih =>
    have h := dueElsewhere_save s (a.foldAll es) m cutoff
    rw [hs, id_foldAll] at h
    have h2 := store_check s'
    rw [hc] at h2
    rw [id_foldAll] at ih
    simp only at h h2 ⊢
    rw [ih, h2, h]

theorem id_foldPages {size : Nat} {a : Aggregation} {folded : Nat} {s s' : Shift} {p : Progress}
    (h : s.foldPages size a folded = (.ok p, s')) : p.aggregation.id = a.id := by
  fun_induction foldPages size a folded s with
  | case1 => cases h
  | case2 =>
    cases h
    exact id_foldAll _ _
  | case3 => cases h
  | case4 =>
    cases h
    exact id_foldAll _ _
  | case5 a folded s es hp hl s₁ hs s₂ hc ih =>
    rw [ih h, id_foldAll]

/-! ### The whole step -/

/-- What a step did. -/
structure Outcome where
  /-- How many events were folded. -/
  processed : Nat
  /-- Whether no event was left. -/
  caughtUp : Bool
deriving DecidableEq

/-- Where a step starts: in full mode from nothing, otherwise from the saved cursor. -/
def startOf (m : Mode) (a : Aggregation) : Aggregation :=
  match m with
  | .incremental => a
  | .full => a.reset

/-- **One step of an aggregation.** The run is noted no earlier than the cutoff of the batch that
the aggregation comes from. -/
def step (size : Nat) (a : Aggregation) (m : Mode) (cutoff : Instant) (s : Shift) :
    Except Store.Fault Outcome × Shift :=
  let (started, s) := s.readElapsed
  match s.foldPages size (startOf m a) 0 with
  | (.error e, s) => (.error e, s)
  | (.ok p, s) =>
    let (ended, s) := s.readElapsed
    let a := (p.aggregation.recordRun m (ended - started) p.folded).markRun m
      (max s.world.now cutoff)
    match s.save a with
    | (.error e, s) => (.error e, s)
    | (.ok (), s) => (.ok ⟨p.folded, p.caughtUp⟩, s)

theorem id_startOf (m : Mode) (a : Aggregation) : (startOf m a).id = a.id := by
  cases m <;> rfl

theorem cutoff_le_max (t cutoff : Instant) : cutoff ≤ max t cutoff := by
  rw [Instant.le_def, Instant.nanos_max]
  omega

theorem dueElsewhere_step (size : Nat) (a : Aggregation) (m : Mode) (cutoff : Instant) (s : Shift) :
    (s.step size a m cutoff).2.store.dueElsewhere m cutoff.millis a.id =
      s.store.dueElsewhere m cutoff.millis a.id := by
  have hpages := dueElsewhere_foldPages size (startOf m a) 0 s.readElapsed.2 m cutoff.millis
  rw [id_startOf, store_readElapsed] at hpages
  unfold step
  simp only
  split
  · rename_i e s' hf
    rw [hf] at hpages
    exact hpages
  · rename_i p s' hf
    have hid := id_foldPages hf
    rw [id_startOf] at hid
    rw [hf] at hpages
    simp only at hpages
    have hsave := dueElsewhere_save s'.readElapsed.2
      ((p.aggregation.recordRun m (s'.readElapsed.1 - s.readElapsed.1) p.folded).markRun m
        (max s'.readElapsed.2.world.now cutoff)) m cutoff.millis
    have hid' : ((p.aggregation.recordRun m (s'.readElapsed.1 - s.readElapsed.1) p.folded).markRun m
        (max s'.readElapsed.2.world.now cutoff)).id = a.id := hid
    rw [hid', store_readElapsed, hpages] at hsave
    split
    · rename_i e s'' hs
      rw [hs] at hsave
      exact hsave
    · rename_i s'' hs
      rw [hs] at hsave
      exact hsave

/-- After a step that succeeds, what is due is what else was due before. -/
theorem due_step {size : Nat} {a : Aggregation} {m : Mode} {cutoff : Instant} {s s' : Shift}
    {o : Outcome} (h : s.step size a m cutoff = (.ok o, s')) :
    s'.store.due m cutoff.millis = s.store.dueElsewhere m cutoff.millis a.id := by
  have hpages := dueElsewhere_foldPages size (startOf m a) 0 s.readElapsed.2 m cutoff.millis
  rw [id_startOf, store_readElapsed] at hpages
  unfold step at h
  simp only at h
  split at h
  · cases h
  · rename_i p s₁ hf
    have hid := id_foldPages hf
    rw [id_startOf] at hid
    rw [hf] at hpages
    simp only at hpages
    split at h
    · cases h
    · rename_i s₂ hs
      cases h
      rcases store_save s₁.readElapsed.2
        ((p.aggregation.recordRun m (s₁.readElapsed.1 - s.readElapsed.1) p.folded).markRun m
          (max s₁.readElapsed.2.world.now cutoff)) with ⟨_, h2⟩ | ⟨h1, h2⟩
      · rw [hs] at h2
        exact absurd rfl h2
      · rw [hs] at h1 h2
        simp only at h1 h2
        rw [h1, Store.due_saveAggregation (t := max s₁.readElapsed.2.world.now cutoff)
          (PerMode.get_set_self _ _ _) (cutoff_le_max _ _) h2.symm, store_readElapsed]
        have hid' : ((p.aggregation.recordRun m (s₁.readElapsed.1 - s.readElapsed.1)
            p.folded).markRun m (max s₁.readElapsed.2.world.now cutoff)).id = a.id := hid
        rw [hid', hpages]

end Shift

end Leasehold
