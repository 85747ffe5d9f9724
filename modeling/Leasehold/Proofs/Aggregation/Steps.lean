import Leasehold.Aggregation.Worker
import Leasehold.Proofs.Aggregation.Folding
import Leasehold.Proofs.Store.Rewriting
import Leasehold.Proofs.Time.Readings

/-!
# What a step leaves behind

A step works on one row: whatever it does, and however it ends, all that has changed in the store
is the row of its aggregation, and all that has changed beside the store is the clock and the last
answer of the budget (`Leasehold.Shift.Within`).

A step that ends well says whether it caught up, and it says so truly: either no event of the
target is left after the cursor it saved, or the budget had run out
(`Leasehold.Shift.step_cases`). Since the elapsed time never goes back, a budget that ran out
within the step is still over at its end (`Leasehold.Shift.Within.isOver`). That is what makes the
early end of a step visible to the worker, who asks the same budget a little later.
-/

namespace Leasehold

/-! ### The last page -/

namespace Store

variable {s s' : Store} {a : Aggregation} {limit : Nat} {es : List Event}

/-- What comes after a cursor depends on the events alone. -/
theorem rowsAfter_congr (h : s'.events = s.events) (target : Int) (cursor : Option Cursor) :
    s'.rowsAfter target cursor = s.rowsAfter target cursor := by
  rw [rowsAfter, h, rowsAfter]

/-- **After a page that is not full no event is left.** -/
theorem rowsAfter_of_short (h : s.eventsAfter a.target a.cursor limit = .ok es)
    (hshort : es.length < limit) : s.rowsAfter a.target (a.foldAll es).cursor = [] := by
  have hread := forall₂_of_mapM_ok h
  change List.Forall₂ _ (s.pageRows a.target a.cursor limit) es at hread
  have hlength := hread.length_eq
  -- A limit that is not reached cuts nothing off.
  have hall : s.pageRows a.target a.cursor limit =
      (s.rowsAfter a.target a.cursor).mergeSort EventRow.noLater := by
    rw [pageRows, limited] at hlength ⊢
    split at hlength
    · rw [List.length_take] at hlength
      rw [if_pos ‹_›, List.take_of_length_le (by omega)]
    · rw [if_neg ‹_›]
  rw [Aggregation.cursor_foldAll]
  cases hlast : es.getLast? with
  | none =>
    obtain rfl : es = [] := List.getLast?_eq_none_iff.1 hlast
    have hnil := List.length_eq_zero_iff.1 hlength
    have hperm := List.mergeSort_perm (s.rowsAfter a.target a.cursor) EventRow.noLater
    rw [← hall, hnil] at hperm
    exact List.nil_perm.1 hperm
  | some e =>
    obtain ⟨p, hp, hpe⟩ := getLast?_of_read hread hlast
    obtain ⟨-, -, hpafter⟩ := pageRows_subset (List.mem_of_getLast? hp)
    have hsorted := pairwise_noLater (s.rowsAfter a.target a.cursor)
    rw [← hall] at hsorted
    rw [rowsAfter, List.filter_eq_nil_iff]
    intro r hr hafter
    rw [Bool.and_eq_true, decide_eq_true_eq] at hafter
    obtain ⟨htarget, hafter⟩ := hafter
    -- A row after the last one would be a row of the page, and none of these comes later.
    have hmem : r ∈ s.pageRows a.target a.cursor limit := by
      rw [hall, List.mem_mergeSort, rowsAfter, List.mem_filter]
      exact ⟨hr, by simp [htarget, isAfter_trans hpe hpafter hafter]⟩
    have hnoLater := noLater_getLast hsorted hp r hmem
    change r.isAfter (some e.cursor) = true at hafter
    rw [isAfter_cursor hpe, hnoLater] at hafter
    cases hafter

end Store

namespace Shift

variable {s s' s'' : Shift} {id : Int} {a : Aggregation} {m : Mode} {size folded : Nat}
  {cutoff : Instant}

/-! ### Time and one row -/

/-- **The budget of a shift has run out**, as far as the clock says now. -/
def IsOver (s : Shift) : Prop := s.budget.allowed ≤ s.world.clock.elapsed - s.budget.start

instance (s : Shift) : Decidable s.IsOver :=
  inferInstanceAs (Decidable (s.budget.allowed ≤ s.world.clock.elapsed - s.budget.start))

/-- **Only time has passed, and only the row of one number has changed.** -/
structure Within (id : Int) (s s' : Shift) : Prop where
  /-- The row. -/
  store : s.store.OnlyRow id s'.store
  /-- Whether the database is poisoned. -/
  isPoisoned : s'.world.database.isPoisoned = s.world.database.isPoisoned
  /-- The lease service. -/
  service : s'.world.leases = s.world.leases
  /-- No other step was begun. -/
  begun : s'.world.begun = s.world.begun
  /-- The budget began when it began. -/
  start : s'.budget.start = s.budget.start
  /-- The budget allows what it allowed. -/
  allowed : s'.budget.allowed = s.budget.allowed
  /-- The elapsed time did not go back. -/
  elapsed_le : s.world.clock.elapsed ≤ s'.world.clock.elapsed

theorem Within.trans (h : Within id s s') (h' : Within id s' s'') : Within id s s'' :=
  ⟨h.store.trans h'.store, h'.isPoisoned.trans h.isPoisoned, h'.service.trans h.service,
    h'.begun.trans h.begun, h'.start.trans h.start, h'.allowed.trans h.allowed,
    Nat.le_trans h.elapsed_le h'.elapsed_le⟩

theorem Within.refl (id : Int) (s : Shift) : Within id s s :=
  ⟨.refl id _, rfl, rfl, rfl, rfl, rfl, Nat.le_refl _⟩

/-- **A budget that has run out stays so.** -/
theorem Within.isOver (h : Within id s s') (hs : s.IsOver) : s'.IsOver := by
  have hle := Span.le_def.1 h.elapsed_le
  rw [IsOver, Span.le_def, Span.nanos_sub] at *
  rw [h.start, h.allowed]
  omega

theorem within_readElapsed (id : Int) (s : Shift) : Within id s s.readElapsed.2 :=
  ⟨.refl id _, rfl, rfl, rfl, rfl, rfl, s.world.clock.elapsed_le_elapsed_read⟩

theorem within_check (id : Int) (s : Shift) : Within id s s.check.2 :=
  ⟨.refl id _, rfl, rfl, rfl, rfl, rfl, s.world.clock.elapsed_le_elapsed_read⟩

/-- The answer of a check. -/
theorem check_eq (s : Shift) : s.check = (decide s.IsOver, s.check.2) := rfl

/-- A call on the store that writes one row takes no time. -/
theorem within_edit {α : Type} {f : Store → Except Store.Fault α × Store}
    (hf : ∀ st : Store, st.OnlyRow id (f st).2) (s : Shift) : Within id s (s.run (edit f)).2 := by
  rw [run, edit]
  by_cases hp : s.world.database.isPoisoned = true
  · rw [if_pos hp]
    exact .refl id s
  · rw [if_neg hp]
    exact ⟨hf s.store, rfl, rfl, rfl, rfl, rfl, Nat.le_refl _⟩

theorem within_save (s : Shift) (a : Aggregation) : Within a.id s (s.save a).2 :=
  within_edit (fun st => st.onlyRow_saveAggregation a) s

/-- **Saving succeeds** where the database is not poisoned and has the row. -/
theorem save_of_has (hs : s.world.database.isPoisoned = false)
    (ha : s.store.hasAggregation a.id = true) :
    ∃ s', s.save a = (.ok (), s') ∧
      s'.store = s.store.changeAggregation a.id (Store.AggregationRow.write a) := by
  refine ⟨(s.save a).2, ?_, ?_⟩ <;>
    simp_all [save, run, edit, Store.saveAggregation, store, World.store, World.withStore]

/-- What saving has done where it succeeded. -/
theorem save_eq_ok (h : s.save a = (.ok (), s')) :
    s.store.hasAggregation a.id = true ∧
      s'.store = s.store.changeAggregation a.id (Store.AggregationRow.write a) := by
  rcases store_save s a with ⟨-, hfails⟩ | ⟨hstore, hanswer⟩
  · rw [h] at hfails
    exact absurd rfl hfails
  · rw [h] at hstore hanswer
    rw [Store.saveAggregation] at hstore hanswer
    split at hanswer
    · rename_i hhas
      rw [if_pos hhas] at hstore
      exact ⟨hhas, hstore⟩
    · cases hanswer

/-! ### The pages -/

theorem Within.of_save {es : List Event} {answer : Except Store.Fault Unit}
    (h : s.save (a.foldAll es) = (answer, s')) : Within a.id s s' := by
  have hsave := s.within_save (a.foldAll es)
  rwa [h, id_foldAll] at hsave

theorem Within.of_check {isOver : Bool} (h : s.check = (isOver, s')) : Within id s s' := by
  have hcheck := s.within_check id
  rwa [h] at hcheck

theorem within_foldPages (size : Nat) (a : Aggregation) (folded : Nat) (s : Shift) :
    Within a.id s (s.foldPages size a folded).2 := by
  fun_induction foldPages size a folded s with
  | case1 a folded s e hp => exact .refl _ _
  | case2 a folded s es hp hl => exact .refl _ _
  | case3 a folded s es hp hl e s' hs => exact .of_save hs
  | case4 a folded s es hp hl s' hs s'' hc => exact (Within.of_save hs).trans (.of_check hc)
  | case5 a folded s es hp hl s' hs s'' hc ih =>
    rw [id_foldAll] at ih
    exact ((Within.of_save hs).trans (.of_check hc)).trans ih

/-- **Pages end where no event is left or the budget has run out**, and say which. -/
theorem foldPages_cases {p : Progress} (h : s.foldPages size a folded = (.ok p, s')) :
    p.aggregation.id = a.id ∧ p.aggregation.target = a.target ∧
      (p.caughtUp = true ∧ s'.store.rowsAfter a.target p.aggregation.cursor = [] ∨
        p.caughtUp = false ∧ s'.IsOver) := by
  fun_induction foldPages size a folded s with
  | case1 => cases h
  | case2 a folded s es hp hl =>
    cases h
    exact ⟨id_foldAll a es, target_foldAll a es,
      .inl ⟨rfl, Store.rowsAfter_of_short (eventsAfter_of_page hp) hl⟩⟩
  | case3 => cases h
  | case4 a folded s es hp hl s₁ hs s₂ hc =>
    cases h
    rw [check_eq, Prod.mk.injEq, decide_eq_true_eq] at hc
    obtain ⟨hover, rfl⟩ := hc
    exact ⟨id_foldAll a es, target_foldAll a es,
      .inr ⟨rfl, (s₁.within_check a.id).isOver hover⟩⟩
  | case5 a folded s es hp hl s₁ hs s₂ hc ih =>
    have hih := ih h
    rwa [id_foldAll, target_foldAll] at hih

/-- **The pages succeed** where the database is not poisoned and has the row, and every event can
be read. -/
theorem foldPages_of_has (hs : s.world.database.isPoisoned = false)
    (ha : s.store.hasAggregation a.id = true)
    (hevents : ∀ r ∈ s.store.events, ∃ e, r.read = .ok e) (size folded : Nat) :
    ∃ p, (s.foldPages size a folded).1 = .ok p := by
  fun_induction foldPages size a folded s with
  | case1 a folded s e hp =>
    obtain ⟨es, hes⟩ : ∃ es, s.store.eventsAfter a.target a.cursor (max size 1) = .ok es := by
      refine Store.exists_mapM_eq_ok fun r hr => hevents r ?_
      exact (Store.pageRows_subset hr).1
    rw [page, look, hs] at hp
    cases hes.symm.trans hp
  | case2 a folded s es hp hl => exact ⟨_, rfl⟩
  | case3 a folded s es hp hl e s' hsave =>
    have hid : (a.foldAll es).id = a.id := id_foldAll a es
    obtain ⟨s₁, hok, -⟩ := save_of_has hs (hid.symm ▸ ha)
    rw [hok] at hsave
    cases hsave
  | case4 a folded s es hp hl s' hsave s'' hc => exact ⟨_, rfl⟩
  | case5 a folded s es hp hl s₁ hsave s₂ hc ih =>
    have hwithin : Within a.id s s₂ := (Within.of_save hsave).trans (.of_check hc)
    refine ih (hwithin.isPoisoned.trans hs) ?_ ?_
    · rw [id_foldAll, hwithin.store.hasAggregation]
      exact ha
    · rw [hwithin.store.events]
      exact hevents

/-! ### The whole step -/

theorem target_startOf (m : Mode) (a : Aggregation) : (startOf m a).target = a.target := by
  cases m <;> rfl

/-- A step fails where its pages do. -/
theorem step_of_error {e : Store.Fault}
    (h : s.readElapsed.2.foldPages size (startOf m a) 0 = (.error e, s')) :
    s.step size a m cutoff = (.error e, s') := by
  rw [step]
  simp only [h]

/-- **The aggregation as a step saves it in the end**, with its run noted. -/
def Progress.result (p : Progress) (m : Mode) (runtime : Span) (t : Instant) : Aggregation :=
  (p.aggregation.recordRun m runtime p.folded).markRun m t

/-- **After its pages a step saves** their result, with the time that has passed since it began, and
with a run noted now or at the cutoff, whichever is later. -/
theorem step_eq_of_pages {p : Progress}
    (h : s.readElapsed.2.foldPages size (startOf m a) 0 = (.ok p, s')) :
    s.step size a m cutoff =
      ((s'.readElapsed.2.save (p.result m (s'.readElapsed.1 - s.readElapsed.1)
          (max s'.readElapsed.2.world.now cutoff))).1.map fun _ => ⟨p.folded, p.caughtUp⟩,
        (s'.readElapsed.2.save (p.result m (s'.readElapsed.1 - s.readElapsed.1)
          (max s'.readElapsed.2.world.now cutoff))).2) := by
  rw [step]
  simp only [h]
  rw [Progress.result]
  split
  · rename_i hsave
    rw [hsave]
    rfl
  · rename_i hsave
    rw [hsave]
    rfl

/-- The run is noted no earlier than the cutoff. -/
theorem step_of_pages {p : Progress}
    (h : s.readElapsed.2.foldPages size (startOf m a) 0 = (.ok p, s')) :
    ∃ runtime t, cutoff ≤ t ∧ s.step size a m cutoff =
      ((s'.readElapsed.2.save (p.result m runtime t)).1.map fun _ => ⟨p.folded, p.caughtUp⟩,
        (s'.readElapsed.2.save (p.result m runtime t)).2) :=
  ⟨_, _, cutoff_le_max _ _, step_eq_of_pages h⟩

/-- **A step that ends well is its pages**, and a save of their result. -/
theorem step_eq_ok {o : Outcome} (h : s.step size a m cutoff = (.ok o, s')) :
    ∃ p s₁, s.readElapsed.2.foldPages size (startOf m a) 0 = (.ok p, s₁) ∧
      o = ⟨p.folded, p.caughtUp⟩ ∧
      s₁.readElapsed.2.save (p.result m (s₁.readElapsed.1 - s.readElapsed.1)
        (max s₁.readElapsed.2.world.now cutoff)) = (.ok (), s') := by
  rcases hpages : s.readElapsed.2.foldPages size (startOf m a) 0 with ⟨e | p, s₁⟩
  · rw [step_of_error hpages] at h
    cases h
  · rw [step_eq_of_pages hpages] at h
    rcases hsave : s₁.readElapsed.2.save (p.result m (s₁.readElapsed.1 - s.readElapsed.1)
        (max s₁.readElapsed.2.world.now cutoff)) with ⟨e | u, s₂⟩
    · rw [hsave] at h
      cases h
    · rw [hsave] at h
      cases h
      exact ⟨p, s₁, rfl, rfl, hsave⟩

/-- The same, whatever the run was noted with. -/
theorem exists_pages_of_step {o : Outcome} (h : s.step size a m cutoff = (.ok o, s')) :
    ∃ p s₁ runtime t, s.readElapsed.2.foldPages size (startOf m a) 0 = (.ok p, s₁) ∧
      o = ⟨p.folded, p.caughtUp⟩ ∧
      s₁.readElapsed.2.save (p.result m runtime t) = (.ok (), s') := by
  obtain ⟨p, s₁, hpages, ho, hsave⟩ := step_eq_ok h
  exact ⟨p, s₁, _, _, hpages, ho, hsave⟩

/-- **A step that ends well has written the row of its aggregation**, and either no event of the
target is left after the cursor it wrote, or it says that it did not catch up and the budget is
over. -/
theorem step_cases {o : Outcome} (h : s.step size a m cutoff = (.ok o, s')) :
    ∃ a' : Aggregation, a'.id = a.id ∧ a'.target = a.target ∧
      s'.store = s.store.changeAggregation a.id (Store.AggregationRow.write a') ∧
      (o.caughtUp = true ∧ s.store.rowsAfter a.target a'.cursor = [] ∨
        o.caughtUp = false ∧ s'.IsOver) := by
  obtain ⟨p, s₁, runtime, t, hpages, rfl, hsave⟩ := exists_pages_of_step h
  obtain ⟨hid₁, htarget₁, hcases⟩ := foldPages_cases hpages
  have hwithin := within_foldPages size (startOf m a) 0 s.readElapsed.2
  rw [hpages, id_startOf] at hwithin
  rw [target_startOf] at hcases
  have hid : (p.result m runtime t).id = a.id := hid₁.trans (id_startOf m a)
  have hend := within_save s₁.readElapsed.2 (p.result m runtime t)
  rw [hsave, hid] at hend
  refine ⟨p.result m runtime t, hid, htarget₁.trans (target_startOf m a), ?_, ?_⟩
  · -- The pages wrote the same row before, and nothing of that is left.
    have honly : s.store.OnlyRow (p.result m runtime t).id s₁.store := hid ▸ hwithin.store
    rw [(save_eq_ok hsave).2, ← hid]
    exact honly.changeAggregation_write
  · rcases hcases with ⟨hcaught, hrows⟩ | ⟨hearly, hover⟩
    · refine .inl ⟨hcaught, ?_⟩
      have hevents : s₁.store.events = s.store.events := hwithin.store.events
      exact (Store.rowsAfter_congr hevents _ _).symm.trans hrows
    · exact .inr ⟨hearly, ((s₁.within_readElapsed a.id).trans hend).isOver hover⟩

/-- **A step succeeds** where the database is not poisoned and has the row, and every event can be
read. -/
theorem step_of_has (hs : s.world.database.isPoisoned = false)
    (ha : s.store.hasAggregation a.id = true)
    (hevents : ∀ r ∈ s.store.events, ∃ e, r.read = .ok e) (size : Nat) (m : Mode)
    (cutoff : Instant) : ∃ o, (s.step size a m cutoff).1 = .ok o := by
  have hid := id_startOf m a
  obtain ⟨p, hp⟩ := foldPages_of_has (s := s.readElapsed.2) (a := startOf m a) hs
    (by rw [hid]; exact ha) hevents size 0
  have hwithin := within_foldPages size (startOf m a) 0 s.readElapsed.2
  cases hpages : s.readElapsed.2.foldPages size (startOf m a) 0 with
  | mk answer s₁ =>
    rw [hpages] at hp hwithin
    obtain rfl : answer = .ok p := hp
    obtain ⟨runtime, t, -, hstep⟩ := step_of_pages hpages
    have hid' : (p.result m runtime t).id = a.id := (id_foldPages hpages).trans hid
    have ha' : s₁.store.hasAggregation (p.result m runtime t).id = true := by
      rw [hwithin.store.hasAggregation, hid']
      exact ha
    obtain ⟨s₂, hsave, -⟩ := save_of_has (s := s₁.readElapsed.2) (hwithin.isPoisoned.trans hs) ha'
    rw [hstep, hsave]
    exact ⟨_, rfl⟩

theorem within_step (size : Nat) (a : Aggregation) (m : Mode) (cutoff : Instant) (s : Shift) :
    Within a.id s (s.step size a m cutoff).2 := by
  have hstart := s.within_readElapsed a.id
  have hpages := within_foldPages size (startOf m a) 0 s.readElapsed.2
  rw [id_startOf] at hpages
  cases hf : s.readElapsed.2.foldPages size (startOf m a) 0 with
  | mk answer s₁ =>
    rw [hf] at hpages
    cases answer with
    | error e =>
      rw [step_of_error hf]
      exact hstart.trans hpages
    | ok p =>
      obtain ⟨runtime, t, -, hstep⟩ := step_of_pages hf
      have hsave := within_save s₁.readElapsed.2 (p.result m runtime t)
      have hid : (p.result m runtime t).id = a.id := (id_foldPages hf).trans (id_startOf m a)
      rw [hid] at hsave
      rw [hstep]
      exact (hstart.trans hpages).trans ((s₁.within_readElapsed a.id).trans hsave)

end Shift

end Leasehold
