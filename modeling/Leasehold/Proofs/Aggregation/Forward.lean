import Leasehold.Proofs.Aggregation.Queue

/-!
# Progress never goes back

The run markers are taken from a wall clock that may be set back at any time, and still no marker
ever goes back, of either mode, over any runs of the worker (`Leasehold.InTurn.goes_forward`). Three
things work together here. A row is only visited when its marker lies before the cutoff, in whole
milliseconds; the cutoff is read once, when the run begins; and the mark a visit leaves is clamped
to it, whether the step succeeds or fails (`Leasehold.Shift.exists_marked_of_visit`). The marker of
the other mode is written back as it was read, which is to the millisecond.

Cursor and number of events only grow as long as all runs are incremental, since a page comes after
the cursor that it was asked for (`Leasehold.Aggregation.leadsTo_foldAll`). A full run starts over,
and if it is short of time it leaves a cursor that lies before the old one.

A run may break off at a sum that does not fit into 64 bits. What it has saved by then is progress
like any other (`Leasehold.Shift.Reaches.saves`), and no count is made that does not fit. Were sums
to wrap instead, a count at its end would go back (`Leasehold.goes_brimfulRun`).

* `Leasehold.Store.AggregationRow.Advances` – what one run of a mode may do to a row;
* `Leasehold.Aggregation.LeadsTo` – what the pages of a step do to an aggregation;
* `Leasehold.Visit.Linked` – visits, one after another;
* `Leasehold.Course.stages` – the stores that a run goes through, visit by visit.
-/

namespace Leasehold

open Store (AggregationRow)

/-! ### Rows that go forward -/

namespace Store

variable {r r' r'' : AggregationRow} {s s' s'' : Store} {m : Mode}

/-- **Markers only move forward**: each is what it was, or it is there and is strictly later than
it was. -/
def AggregationRow.MarkersGrow (r r' : AggregationRow) : Prop :=
  ∀ m : Mode, r'.lastRun.get m = r.lastRun.get m ∨
    ∃ ms, r'.lastRun.get m = some ms ∧ ∀ earlier ∈ r.lastRun.get m, earlier < ms

/-- **What was folded only grows**: there are no fewer events, and a cursor stays where it is or
moves on, in the order of events. -/
structure AggregationRow.FoldsGrow (r r' : AggregationRow) : Prop where
  /-- The number of events. -/
  processed_le : r.processed ≤ r'.processed
  /-- The cursor, which a row has if it has both its parts. -/
  cursor : ∀ ms event, r.cursorTime = some ms → r.cursorEvent = some event →
    ∃ ms' event', r'.cursorTime = some ms' ∧ r'.cursorEvent = some event' ∧
      (ms < ms' ∨ ms = ms' ∧ event ≤ event')

/-- **What a run of a mode may do to the progress of a row.** -/
structure AggregationRow.Advances (m : Mode) (r r' : AggregationRow) : Prop where
  /-- Markers of both modes only move forward. -/
  markers : r.MarkersGrow r'
  /-- Unless everything is folded anew, what was folded only grows. -/
  folds : m = .incremental → r.FoldsGrow r'
  /-- Sums of 64 bits stay within these. -/
  words : r.InWords → r'.InWords

namespace AggregationRow

theorem MarkersGrow.refl (r : AggregationRow) : r.MarkersGrow r := fun _ => .inl rfl

theorem MarkersGrow.trans (h : r.MarkersGrow r') (h' : r'.MarkersGrow r'') :
    r.MarkersGrow r'' := by
  intro m
  rcases h' m with hsame' | ⟨ms', hms', hlater'⟩
  · rw [hsame']
    exact h m
  · refine .inr ⟨ms', hms', fun earlier he => ?_⟩
    rcases h m with hsame | ⟨ms, hms, hlater⟩
    · rw [← hsame] at he
      exact hlater' earlier he
    · exact Int.lt_trans (hlater earlier he) (hlater' ms hms)

theorem FoldsGrow.refl (r : AggregationRow) : r.FoldsGrow r :=
  ⟨Int.le_refl _, fun ms event ht he => ⟨ms, event, ht, he, .inr ⟨rfl, Int.le_refl _⟩⟩⟩

theorem FoldsGrow.trans (h : r.FoldsGrow r') (h' : r'.FoldsGrow r'') : r.FoldsGrow r'' := by
  refine ⟨Int.le_trans h.processed_le h'.processed_le, fun ms event ht he => ?_⟩
  obtain ⟨ms', event', ht', he', hle⟩ := h.cursor ms event ht he
  obtain ⟨ms'', event'', ht'', he'', hle'⟩ := h'.cursor ms' event' ht' he'
  exact ⟨ms'', event'', ht'', he'', by omega⟩

theorem Advances.refl (m : Mode) (r : AggregationRow) : r.Advances m r :=
  ⟨.refl r, fun _ => .refl r, fun hr => hr⟩

theorem Advances.trans (h : r.Advances m r') (h' : r'.Advances m r'') : r.Advances m r'' :=
  ⟨h.markers.trans h'.markers, fun hm => (h.folds hm).trans (h'.folds hm),
    fun hr => h'.words (h.words hr)⟩

end AggregationRow

/-- What is related item by item has a counterpart of each item. -/
theorem exists_of_mem_forall₂ {α β : Type} {P : α → β → Prop} {as : List α} {bs : List β}
    (h : List.Forall₂ P as bs) : ∀ b ∈ bs, ∃ a ∈ as, P a b := by
  induction h with
  | nil => exact List.forall_mem_nil _
  | cons hab _ ih =>
    refine List.forall_mem_cons.2 ⟨⟨_, List.mem_cons_self, hab⟩, fun b hb => ?_⟩
    obtain ⟨a, ha, hrelated⟩ := ih b hb
    exact ⟨a, List.mem_cons_of_mem _ ha, hrelated⟩

/-- **Rows stay in their places** and are related to what they were. -/
def RowsGo (R : AggregationRow → AggregationRow → Prop) (s s' : Store) : Prop :=
  List.Forall₂ (fun r r' => r'.id = r.id ∧ R r r') s.aggregations s'.aggregations

theorem forall₂_trans {α : Type} {P : α → α → Prop} (hP : ∀ a b c, P a b → P b c → P a c)
    {as bs cs : List α} (h : List.Forall₂ P as bs) (h' : List.Forall₂ P bs cs) :
    List.Forall₂ P as cs := by
  induction h generalizing cs with
  | nil => exact h'
  | cons hab _ ih =>
    cases h' with
    | cons hbc hrest => exact .cons (hP _ _ _ hab hbc) (ih hrest)

section RowsGo

variable {R S : AggregationRow → AggregationRow → Prop}

theorem RowsGo.of_eq (hR : ∀ r, R r r) (h : s'.aggregations = s.aggregations) : s.RowsGo R s' := by
  rw [RowsGo, h, List.forall₂_same]
  exact fun r _ => ⟨rfl, hR r⟩

theorem RowsGo.trans (hR : ∀ r r' r'', R r r' → R r' r'' → R r r'') (h : s.RowsGo R s')
    (h' : s'.RowsGo R s'') : s.RowsGo R s'' :=
  forall₂_trans (fun _ _ _ hab hbc => ⟨hbc.1.trans hab.1, hR _ _ _ hab.2 hbc.2⟩) h h'

theorem RowsGo.imp (h : s.RowsGo R s') (hS : ∀ r r', R r r' → S r r') : s.RowsGo S s' :=
  List.Forall₂.imp (fun r r' hr => ⟨hr.1, hS r r' hr.2⟩) h

/-- Numbers stay unique where rows stay in their places. -/
theorem RowsGo.id_ne (h : s.RowsGo R s') (hs : s.aggregations.Pairwise fun a b => a.id ≠ b.id) :
    s'.aggregations.Pairwise fun a b => a.id ≠ b.id := by
  have hids : s.aggregations.map AggregationRow.id = s'.aggregations.map AggregationRow.id := by
    rw [← List.forall₂_eq_eq_eq, List.forall₂_map_left_iff, List.forall₂_map_right_iff]
    exact List.Forall₂.imp (fun r r' hr => hr.1.symm) h
  rw [← List.pairwise_map (f := AggregationRow.id) (R := (· ≠ ·))] at hs ⊢
  rwa [← hids]

/-- The rows of one number were changed. -/
theorem rowsGo_changeAggregation {id : Int} {f : AggregationRow → AggregationRow}
    (hR : ∀ r, R r r) (hf : ∀ r ∈ s.aggregations, r.id = id → (f r).id = r.id ∧ R r (f r)) :
    s.RowsGo R (s.changeAggregation id f) := by
  rw [RowsGo, changeAggregation, List.forall₂_map_right_iff, List.forall₂_same]
  intro r hr
  split
  · exact hf r hr ‹_›
  · exact ⟨rfl, hR r⟩

/-- One row was changed. -/
theorem rowsGo_changeRow {r : AggregationRow} {f : AggregationRow → AggregationRow}
    (hid : s.aggregations.Pairwise fun a b => a.id ≠ b.id) (hr : r ∈ s.aggregations)
    (hR : ∀ r, R r r) (hf : (f r).id = r.id) (h : R r (f r)) :
    s.RowsGo R (s.changeAggregation r.id f) := by
  refine rowsGo_changeAggregation hR fun r' hr' hid' => ?_
  rw [AggregationRow.eq_of_id_eq hid hr' hr hid']
  exact ⟨hf, h⟩

end RowsGo

end Store

/-! ### What a step saves -/

namespace Aggregation

variable {a b c : Aggregation} {s : Store} {limit : Nat} {es : List Event}

/-- **Folding leads from one aggregation to another**: it is the same one with the same markers,
has folded no fewer events, and its cursor stays where it is or moves on. -/
structure LeadsTo (a b : Aggregation) : Prop where
  /-- The number. -/
  id_eq : b.id = a.id
  /-- The target. -/
  target_eq : b.target = a.target
  /-- The markers. -/
  lastRun_eq : b.lastRun = a.lastRun
  /-- The number of events. -/
  processed_le : a.processed ≤ b.processed
  /-- The cursor, to the millisecond. -/
  cursor : ∀ x ∈ a.cursor, ∃ y ∈ b.cursor, x.time.millis < y.time.millis ∨
    x.time.millis = y.time.millis ∧ x.event ≤ y.event
  /-- Sums of 64 bits stay within these. -/
  words : a.InWords → b.InWords

theorem LeadsTo.refl (a : Aggregation) : a.LeadsTo a :=
  ⟨rfl, rfl, rfl, Int.le_refl _, fun x hx => ⟨x, hx, .inr ⟨rfl, Int.le_refl _⟩⟩,
    fun ha => ha⟩

theorem LeadsTo.trans (h : a.LeadsTo b) (h' : b.LeadsTo c) : a.LeadsTo c := by
  refine ⟨h'.id_eq.trans h.id_eq, h'.target_eq.trans h.target_eq, h'.lastRun_eq.trans h.lastRun_eq,
    Int.le_trans h.processed_le h'.processed_le, fun x hx => ?_, fun ha => h'.words (h.words ha)⟩
  obtain ⟨y, hy, hle⟩ := h.cursor x hx
  obtain ⟨z, hz, hle'⟩ := h'.cursor y hy
  exact ⟨z, hz, by omega⟩

theorem lastRun_foldAll (a : Aggregation) (es : List Event) :
    (a.foldAll es).lastRun = a.lastRun := by
  rw [foldAll]
  induction es generalizing a with
  | nil => rfl
  | cons e es ih => exact ih (a.fold e)

/-- **A page leads on**: its events come after the cursor that it was asked for. -/
theorem leadsTo_foldAll (h : s.eventsAfter a.target a.cursor limit = .ok es)
    (hfits : a.SumsFit es) : a.LeadsTo (a.foldAll es) := by
  refine ⟨Shift.id_foldAll a es, Shift.target_foldAll a es, lastRun_foldAll a es, ?_, ?_,
    fun ha => ha.foldAll hfits⟩
  · rw [processed_foldAll]
    omega
  · intro x hx
    rw [cursor_foldAll]
    cases hlast : es.getLast? with
    | none => exact ⟨x, hx, .inr ⟨rfl, Int.le_refl _⟩⟩
    | some e =>
      -- The new cursor is at the last event, which comes after the old one as all of them do.
      obtain ⟨p, hp, hpe⟩ := Store.getLast?_of_read (Store.forall₂_of_mapM_ok h) hlast
      obtain ⟨-, -, hafter⟩ := Store.pageRows_subset (List.mem_of_getLast? hp)
      obtain ⟨ht, hid, -⟩ := Store.EventRow.read_eq_ok hpe
      rw [Option.mem_def.1 hx] at hafter
      simp only [Store.EventRow.isAfter, Bool.or_eq_true, Bool.and_eq_true,
        decide_eq_true_eq] at hafter
      refine ⟨e.cursor, rfl, ?_⟩
      simp only [Event.cursor, ht, hid]
      omega

/-- Remembering what a run took leads nowhere else. -/
theorem leadsTo_recordRun (a : Aggregation) (m : Mode) (runtime : Span) (processed : Int) :
    a.LeadsTo (a.recordRun m runtime processed) :=
  let h := LeadsTo.refl a
  ⟨rfl, rfl, rfl, h.processed_le, h.cursor, h.words⟩

/-- **What was saved of an aggregation**: nothing, or something that folding led to. -/
def Saves (a : Aggregation) (s s' : Store) : Prop :=
  s' = s ∨ ∃ b, a.LeadsTo b ∧ s' = s.changeAggregation a.id (AggregationRow.write b)

theorem Saves.refl (a : Aggregation) (s : Store) : a.Saves s s := .inl rfl

/-- What was saved last is all that was saved. -/
theorem Saves.trans {s' s'' : Store} (h : a.Saves s s') (hab : a.LeadsTo b)
    (h' : b.Saves s' s'') : a.Saves s s'' := by
  rcases h' with rfl | ⟨c, hbc, rfl⟩
  · exact h
  · refine .inr ⟨c, hab.trans hbc, ?_⟩
    have hid := (hab.trans hbc).id_eq
    rw [hab.id_eq]
    rcases h with rfl | ⟨d, -, rfl⟩
    · rfl
    · -- Both writes are to one row, and the later one leaves nothing of the earlier.
      rw [← hid]
      exact Store.OnlyRow.changeAggregation_write
        ⟨AggregationRow.write d, fun _ => ⟨rfl, rfl⟩, rfl⟩

end Aggregation

/-- Writes when a row last ran in a mode. -/
def Store.AggregationRow.marked (m : Mode) (t : Instant) (r : AggregationRow) : AggregationRow :=
  { r with lastRun := r.lastRun.set m (some t.millis) }

namespace Shift

variable {a : Aggregation} {m : Mode} {size folded : Nat} {cutoff : Instant} {s s' : Shift}

/-- Saving that fails changes nothing. -/
theorem store_of_save_error {e : Store.Fault} (h : s.save a = (.error e, s')) :
    s'.store = s.store := by
  rcases store_save s a with ⟨hstore, -⟩ | ⟨hstore, hanswer⟩
  · rwa [h] at hstore
  · rw [h] at hstore hanswer
    rw [Store.saveAggregation] at hstore hanswer
    split at hanswer
    · cases hanswer
    · rename_i hnone
      rwa [if_neg hnone] at hstore

theorem saves_of_save {answer : Except Store.Fault Unit} (h : s.save a = (answer, s')) :
    a.Saves s.store s'.store := by
  cases answer with
  | error e => exact .inl (store_of_save_error h)
  | ok u => exact .inr ⟨a, .refl a, (save_eq_ok h).2⟩

/-- A page that was saved and checked saves what it leads to. -/
theorem saves_of_page {es : List Event} {answer : Except Store.Fault Unit} {isOver : Bool}
    {s₁ s₂ : Shift} (h : a.LeadsTo (a.foldAll es)) (hsave : s.save (a.foldAll es) = (answer, s₁))
    (hcheck : s₁.check = (isOver, s₂)) : a.Saves s.store s₂.store := by
  have hstore := store_check s₁
  rw [hcheck] at hstore
  rw [hstore]
  exact (Aggregation.Saves.refl a _).trans h (saves_of_save hsave)

/-- **Whatever pages save leads on**, and so does what they give, if their sums fit. -/
theorem saves_foldPages {answer : Except Store.Fault Progress}
    (hfits : ∀ f, s.Reaches size a folded f → f.Fits)
    (h : s.foldPages size a folded = (answer, s')) :
    a.Saves s.store s'.store ∧ ∀ p, answer = .ok p → a.LeadsTo p.aggregation := by
  fun_induction foldPages size a folded s with
  | case1 a folded s e hp =>
    cases h
    exact ⟨.refl a _, fun p hp' => by cases hp'⟩
  | case2 a folded s es hp hl =>
    cases h
    refine ⟨.refl a _, fun p hp' => ?_⟩
    cases hp'
    exact Aggregation.leadsTo_foldAll (eventsAfter_of_page hp) (hfits _ (.here hp)).1
  | case3 a folded s es hp hl e s₁ hs =>
    cases h
    exact ⟨.inl (store_of_save_error hs), fun p hp' => by cases hp'⟩
  | case4 a folded s es hp hl s₁ hs s₂ hc =>
    cases h
    have hleads := Aggregation.leadsTo_foldAll (eventsAfter_of_page hp) (hfits _ (.here hp)).1
    refine ⟨saves_of_page hleads hs hc, fun p hp' => ?_⟩
    cases hp'
    exact hleads
  | case5 a folded s es hp hl s₁ hs s₂ hc ih =>
    have hfit := hfits _ (.here hp)
    have hleads := Aggregation.leadsTo_foldAll (eventsAfter_of_page hp) hfit.1
    obtain ⟨hrest, hgives⟩ := ih (fun f hf => hfits f (.later hp hl hfit hs hc hf)) h
    exact ⟨(saves_of_page hleads hs hc).trans hleads hrest, fun p hp' =>
      hleads.trans (hgives p hp')⟩

/-- **What was saved before a fold** leads on, too, and so does what it is folded onto. -/
theorem Reaches.saves {f : Fold} (h : s.Reaches size a folded f) :
    a.Saves s.store f.shift.store ∧ a.LeadsTo f.onto := by
  induction h with
  | @here s a n es hpage => exact ⟨.refl a _, .refl a⟩
  | @later s s' s'' a n es f hpage hfull hfits hsave hcheck h ih =>
    have hleads := Aggregation.leadsTo_foldAll (eventsAfter_of_page hpage) hfits.1
    exact ⟨(saves_of_page hleads hsave hcheck).trans hleads ih.1, hleads.trans ih.2⟩

/-- Writing an aggregation that was marked is writing it and then the mark. -/
theorem write_markRun (a : Aggregation) (m : Mode) (t : Instant) (r : AggregationRow) :
    AggregationRow.write (a.markRun m t) r = (AggregationRow.write a r).marked m t := by
  cases m <;> rfl

/-- **A step saves what its pages led to**, and marks it when it ends well, no earlier than the
cutoff. -/
theorem saves_step {answer : Except Store.Fault Outcome}
    (hfits : ∀ f, s.readElapsed.2.Reaches size (startOf m a) 0 f → f.Fits)
    (h : s.step size a m cutoff = (answer, s')) :
    (∃ e, answer = .error e) ∧ (startOf m a).Saves s.store s'.store ∨
      (∃ o, answer = .ok o) ∧ ∃ st t, (startOf m a).Saves s.store st ∧ cutoff ≤ t ∧
        s'.store = st.changeAggregation a.id (AggregationRow.marked m t) := by
  cases hpages : s.readElapsed.2.foldPages size (startOf m a) 0 with
  | mk answer₁ s₁ =>
    obtain ⟨hsaves, hgives⟩ := saves_foldPages hfits hpages
    cases answer₁ with
    | error e =>
      rw [step_of_error hpages] at h
      cases h
      exact .inl ⟨⟨e, rfl⟩, hsaves⟩
    | ok p =>
      have hleads := hgives p rfl
      obtain ⟨runtime, t, ht, hstep⟩ : ∃ runtime t, cutoff ≤ t ∧ _ := step_of_pages hpages
      rw [hstep] at h
      cases hsave : s₁.readElapsed.2.save (p.result m runtime t) with
      | mk answer₂ s₂ =>
        rw [hsave] at h
        cases h
        cases answer₂ with
        | error e =>
          refine .inl ⟨⟨e, rfl⟩, ?_⟩
          rw [store_of_save_error hsave]
          exact hsaves
        | ok u =>
          -- The result without its mark is what else could have been saved here.
          have hrecord := hleads.trans (p.aggregation.leadsTo_recordRun m runtime p.folded)
          have hid : (p.result m runtime t).id = a.id := hleads.id_eq.trans (id_startOf m a)
          refine .inr ⟨⟨_, rfl⟩, _, t, hsaves.trans hrecord (.inr ⟨_, .refl _, rfl⟩), ht, ?_⟩
          rw [(save_eq_ok hsave).2, hid]
          have hid' : (p.aggregation.recordRun m runtime p.folded).id = a.id := hid
          rw [hid', Store.changeAggregation_changeAggregation (f := AggregationRow.write _) _ _
            fun _ => rfl]
          exact congrArg _ (funext fun r => write_markRun _ m t r)

/-- **A visit saves what folding led to, and then marks it**, no earlier than the cutoff, whatever
becomes of its step, if the sums of that fit. -/
theorem exists_marked_of_visit {cs : Circumstances} (hs : s.world.database.isPoisoned = false)
    (ha : s.store.hasAggregation a.id = true)
    (hfits : (s.attempt cs size a m cutoff).1 ≠ .error .refused →
      ∀ f, (s.begun cs a).readElapsed.2.Reaches size (startOf m a) 0 f → f.Fits) (t : Tally) :
    ∃ st u, (startOf m a).Saves s.store st ∧ cutoff ≤ u ∧
      (s.visit cs size m cutoff a t).2.store =
        st.changeAggregation a.id (AggregationRow.marked m u) := by
  have hwithin := within_attempt cs size a m cutoff s
  -- A step that failed is marked in the visit itself, after what it has saved.
  have hfails : ∀ {e s₁}, s.attempt cs size a m cutoff = (.error e, s₁) →
      (startOf m a).Saves s.store s₁.store → ∃ st u, (startOf m a).Saves s.store st ∧
        cutoff ≤ u ∧ (s.visit cs size m cutoff a t).2.store =
          st.changeAggregation a.id (AggregationRow.marked m u) := by
    intro e s₁ hattempt hsaves
    rw [hattempt] at hwithin
    obtain ⟨s₂, hmark, hstore⟩ := mark_of_has (hwithin.isPoisoned.trans hs)
      ((hwithin.store.hasAggregation a.id).trans ha) m (max s₁.world.now cutoff)
    refine ⟨s₁.store, _, hsaves, cutoff_le_max s₁.world.now cutoff, ?_⟩
    rw [visit, hattempt]
    simp only [hmark]
    exact hstore
  rcases attempt_cases cs size a m cutoff s with hrefused | ⟨answer, s', hstep, hattempt⟩
  · exact hfails hrefused (.refl _ _)
  · have hstepped : (s.attempt cs size a m cutoff).1 ≠ .error .refused := by
      rw [hattempt]
      cases answer <;> rintro ⟨⟩
    rcases saves_step (hfits hstepped) hstep with
      ⟨⟨e, rfl⟩, hsaves⟩ | ⟨⟨o, rfl⟩, st, u, hsaves, hu, hstore⟩
    · exact hfails hattempt hsaves
    · refine ⟨st, u, hsaves, hu, ?_⟩
      rw [visit, hattempt]
      exact hstore

end Shift

/-! ### What a visit does to progress -/

namespace Store

variable {r r₀ : AggregationRow} {a b : Aggregation} {s st : Store} {m : Mode} {cutoff u : Instant}

namespace AggregationRow

/-- Markers are read as they are, to the millisecond. -/
theorem lastRun_of_read (h : r.read = .ok a) (m : Mode) :
    (a.lastRun.get m).map Instant.millis = r.lastRun.get m := by
  rw [read] at h
  obtain ⟨cursor, -, h⟩ := exists_of_bind_eq_ok h
  obtain ⟨incremental, hincremental, h⟩ := exists_of_bind_eq_ok h
  obtain ⟨full, hfull, h⟩ := exists_of_bind_eq_ok h
  obtain ⟨_, -, h⟩ := exists_of_bind_eq_ok h
  obtain ⟨_, -, h⟩ := exists_of_bind_eq_ok h
  cases h
  cases m with
  | incremental => exact millis_of_instant? hincremental
  | full => exact millis_of_instant? hfull

theorem lt_of_isDue {cutoff : Int} (h : r.isDue m cutoff = true) :
    ∀ ms ∈ r.lastRun.get m, ms < cutoff := by
  intro ms hms
  rw [isDue, Option.mem_def.1 hms, Bool.and_eq_true, decide_eq_true_eq] at h
  exact h.2

/-- What folding led to is written with the markers that were read. -/
theorem lastRun_write_of_leadsTo (hread : r.read = .ok a) (h : (Shift.startOf m a).LeadsTo b)
    (k : Mode) : (write b r).lastRun.get k = r.lastRun.get k := by
  have hstart : (Shift.startOf m a).lastRun = a.lastRun := by
    cases m <;> rfl
  rw [lastRun_write, h.lastRun_eq, hstart]
  exact lastRun_of_read hread k

/-- What folding led to from a row is written with no less folded. -/
theorem foldsGrow_write (hread : r.read = .ok a) (h : a.LeadsTo b) : r.FoldsGrow (write b r) := by
  obtain ⟨-, -, -, hprocessed, hcursor⟩ := read_eq_ok hread
  refine ⟨hprocessed ▸ h.processed_le, fun ms event ht he => ?_⟩
  rw [readCursor, ht, he] at hcursor
  obtain ⟨t, hi, hc⟩ := exists_of_map_eq_ok hcursor
  obtain ⟨y, hy, hle⟩ := h.cursor _ hc.symm
  rw [millis_of_instant hi] at hle
  have hy := Option.mem_def.1 hy
  exact ⟨y.time.millis, y.event, congrArg (Option.map _) hy, congrArg (Option.map _) hy, hle⟩

/-- **What folding led to is written as progress.** -/
theorem advances_write (hread : r.read = .ok a) (h : (Shift.startOf m a).LeadsTo b) :
    r.Advances m (write b r) where
  markers k := .inl (lastRun_write_of_leadsTo hread h k)
  folds := by
    rintro rfl
    exact foldsGrow_write hread h
  words hr := h.words (((inWords_of_read hread).2 hr).startOf m)

/-- **A mark no earlier than the cutoff moves the marker of a row that was due forward.** -/
theorem Advances.marked (h : r.Advances m r₀) (hmarkers : ∀ k, r₀.lastRun.get k = r.lastRun.get k)
    (hdue : r.isDue m cutoff.millis = true) (hu : cutoff ≤ u) : r.Advances m (r₀.marked m u) := by
  refine ⟨fun k => ?_, fun hm => ⟨(h.folds hm).processed_le, (h.folds hm).cursor⟩, h.words⟩
  by_cases hk : k = m
  · subst hk
    refine .inr ⟨u.millis, PerMode.get_set_self _ _ _, fun earlier he => ?_⟩
    exact Int.lt_of_lt_of_le (lt_of_isDue hdue earlier he) (Instant.millis_le_millis hu)
  · exact .inl ((PerMode.get_set_of_ne _ hk _).trans (hmarkers k))

end AggregationRow

/-- **What a step saves**: the row has advanced, and all others are as they were. -/
theorem rowsGo_of_saves (hid : s.aggregations.Pairwise fun a b => a.id ≠ b.id)
    (hr : r ∈ s.aggregations) (hread : r.read = .ok a) (h : (Shift.startOf m a).Saves s st) :
    s.RowsGo (AggregationRow.Advances m) st := by
  rcases h with rfl | ⟨b, hleads, rfl⟩
  · exact .of_eq (.refl m) rfl
  · rw [Shift.id_startOf, (AggregationRow.read_eq_ok hread).1]
    exact rowsGo_changeRow hid hr (.refl m) rfl (AggregationRow.advances_write hread hleads)

/-- **What a visit leaves**: the same with a mark. -/
theorem rowsGo_of_marked (hid : s.aggregations.Pairwise fun a b => a.id ≠ b.id)
    (hr : r ∈ s.aggregations) (hread : r.read = .ok a) (h : (Shift.startOf m a).Saves s st)
    (hdue : r.isDue m cutoff.millis = true) (hu : cutoff ≤ u) :
    s.RowsGo (AggregationRow.Advances m)
      (st.changeAggregation r.id (AggregationRow.marked m u)) := by
  rcases h with rfl | ⟨b, hleads, rfl⟩
  · exact rowsGo_changeRow hid hr (.refl m) rfl
      ((AggregationRow.Advances.refl m r).marked (fun _ => rfl) hdue hu)
  · rw [Shift.id_startOf, (AggregationRow.read_eq_ok hread).1,
      changeAggregation_changeAggregation (f := AggregationRow.write b) _ _ fun _ => rfl]
    exact rowsGo_changeRow hid hr (.refl m) rfl
      ((AggregationRow.advances_write hread hleads).marked
        (AggregationRow.lastRun_write_of_leadsTo hread hleads) hdue hu)

end Store

/-! ### Visits, one after another -/

namespace Visit

variable {p : Terms} {s : Shift} {v : Visit}

/-- **A visit goes forward** if its sums fit. -/
theorem Made.rowsGo (h : v.Made p s) (hdue : v.row.isDue p.mode p.cutoff.millis = true)
    (hfits : v.SumsFit p) :
    v.before.store.RowsGo (AggregationRow.Advances p.mode) v.after.store := by
  obtain ⟨a, ha, heq⟩ := h.eq
  have hhas := h.canVisit.hasAggregation List.mem_cons_self
  rw [Shift.id_of_read ha] at hhas
  have hanswer : v.answer =
      (v.before.attempt p.circumstances p.pageSize a p.mode p.cutoff).1 := congrArg Visit.answer heq
  have hafter : v.after = v.before.afterVisit p a := congrArg Visit.after heq
  obtain ⟨st, u, hsaves, hu, hstore⟩ := Shift.exists_marked_of_visit h.canVisit.isPoisoned hhas
    (fun hstepped f hf => hfits f ⟨hanswer ▸ hstepped, a, ha, hf⟩) {}
  rw [hafter, Shift.afterVisit, hstore, ← Shift.id_of_read ha]
  exact Store.rowsGo_of_marked h.canVisit.id_ne (h.canVisit.mem v.row List.mem_cons_self) ha hsaves
    hdue hu

/-- **So does what a visit has saved** before a fold. -/
theorem Made.rowsGo_of_reaches (h : v.Made p s) {f : Shift.Fold} (hf : v.Reaches p f) :
    v.before.store.RowsGo (AggregationRow.Advances p.mode) f.shift.store := by
  obtain ⟨-, a, ha, hf⟩ := hf
  have hsaves : (Shift.startOf p.mode a).Saves v.before.store f.shift.store := hf.saves.1
  exact Store.rowsGo_of_saves h.canVisit.id_ne (h.canVisit.mem v.row List.mem_cons_self) ha hsaves

/-- **Visits one after another**, the first of them in some store. -/
def Linked : Store → List Visit → Prop
  | _, [] => True
  | st, v :: vs => v.before.store = st ∧ Linked v.after.store vs

/-- What the last of them leaves. -/
def endOf : Store → List Visit → Store
  | st, [] => st
  | _, v :: vs => endOf v.after.store vs

theorem Linked.of_append {st : Store} {vs vs' : List Visit} (h : Linked st (vs ++ vs')) :
    Linked st vs ∧ Linked (endOf st vs) vs' := by
  induction vs generalizing st with
  | nil => exact ⟨trivial, h⟩
  | cons v vs ih => exact ⟨⟨h.1, (ih h.2).1⟩, (ih h.2).2⟩

theorem Linked.of_prefix {st : Store} {vs vs' : List Visit} (h : Linked st vs') (hvs : vs <+: vs') :
    Linked st vs := by
  obtain ⟨rest, rfl⟩ := hvs
  exact h.of_append.1

/-- **What each visit keeps, all of them keep**, and so does what is done after them. -/
theorem Linked.pairwise {R : AggregationRow → AggregationRow → Prop}
    (htrans : ∀ r r' r'', R r r' → R r' r'' → R r r'') {st left : Store} {vs : List Visit}
    (h : Linked st vs) (hvs : ∀ v ∈ vs, v.before.store.RowsGo R v.after.store)
    (hleft : (endOf st vs).RowsGo R left) :
    (st :: (vs.map (fun v => v.after.store) ++ [left])).Pairwise (Store.RowsGo R) := by
  induction vs generalizing st with
  | nil => exact List.pairwise_pair.2 hleft
  | cons v vs ih =>
    obtain ⟨rfl, h⟩ := h
    obtain ⟨hv, hvs⟩ := List.forall_mem_cons.1 hvs
    have hlater := ih h hvs hleft
    refine List.pairwise_cons.2 ⟨List.forall_mem_cons.2 ⟨hv, fun st' hst' => ?_⟩, hlater⟩
    exact hv.trans htrans ((List.pairwise_cons.1 hlater).1 st' hst')

/-- The visits of a tour are linked, and lead to its end. -/
theorem linked_tour (p : Terms) (rows : List AggregationRow) (s : Shift) :
    Linked s.store (s.tour p rows).visits ∧
      (s.tour p rows).last.store = endOf s.store (s.tour p rows).visits := by
  fun_induction Shift.tour p rows s with
  | case1 s => exact ⟨trivial, rfl⟩
  | case2 r rs s e hr => exact ⟨trivial, rfl⟩
  | case3 r rs s a ha hover => exact ⟨⟨rfl, trivial⟩, rfl⟩
  | case4 r rs s a ha hover ih => exact ⟨⟨rfl, ih.1⟩, ih.2⟩

end Visit

namespace Invocation

variable {i : Invocation} {vs : List Visit}

/-- On a poisoned database nothing is visited. -/
theorem visits_of_poisoned (hs : i.world.database.isPoisoned = true) : i.visits = [] := by
  have hrun : i.run = _ := perform_of_poisoned i.options i.pageSize i.circumstances hs
  exact visits_eq List.nil_prefix (congrArg (fun x => x.2.begun) hrun)

/-- **An invocation is a tour** through the first rows that are due. -/
theorem exists_tour (hs : i.world.database.isPoisoned = false)
    (hid : i.world.store.aggregations.Pairwise fun a b => a.id ≠ b.id) :
    ∃ rows, rows <+: i.world.store.dueInOrder i.options.mode i.world.now.millis ∧
      i.visits = ((Shift.opening i.options i.world).tour i.terms rows).visits ∧
      i.run.2.store = ((Shift.opening i.options i.world).tour i.terms rows).last.store := by
  rcases perform_cases i.options i.pageSize i.circumstances hs hid with
    ⟨-, hperform⟩ | ⟨rows, rest, e, hdue, hrows, -, hover, hperform⟩
  · refine ⟨_, List.prefix_rfl, visits_eq List.prefix_rfl ?_, ?_⟩
    · rw [hperform]
      exact Shift.begun_tour _ _ _
    · rw [run, hperform]
      rfl
  · refine ⟨rows, hdue ▸ List.prefix_append rows rest, visits_eq ?_ ?_, ?_⟩
    · have happend : i.world.dueTour i.options i.pageSize i.circumstances = _ := congrArg
        (fun rows => (Shift.opening i.options i.world).tour _ rows) hdue
      rw [happend, Shift.tour_append hrows hover]
      exact List.prefix_append _ _
    · rw [hperform]
      exact Shift.begun_tour _ _ _
    · rw [run, hperform]
      rfl

/-- **An invocation is its visits**, of rows that are due, one after another. -/
theorem linked_visits (hid : i.world.store.aggregations.Pairwise fun a b => a.id ≠ b.id) :
    Visit.Linked i.world.store i.visits ∧ i.run.2.store = Visit.endOf i.world.store i.visits ∧
      ∀ v ∈ i.visits, v.Made i.terms (Shift.opening i.options i.world) ∧
        v.row.isDue i.options.mode i.world.now.millis = true := by
  cases hs : i.world.database.isPoisoned with
  | true =>
    have hrun : i.run = _ := perform_of_poisoned i.options i.pageSize i.circumstances hs
    rw [visits_of_poisoned hs, hrun]
    exact ⟨trivial, rfl, List.forall_mem_nil _⟩
  | false =>
    obtain ⟨rows, hrows, hvisits, hstore⟩ := exists_tour hs hid
    have hcan := (Shift.canVisit_due (s := Shift.opening i.options i.world) hs hid i.options.mode
      i.world.now.millis).sublist hrows.sublist
    obtain ⟨hlinked, hlast⟩ := Visit.linked_tour i.terms rows (Shift.opening i.options i.world)
    rw [hvisits, hstore]
    refine ⟨hlinked, hlast, fun v hv => ⟨Shift.made_tour hcan v hv, ?_⟩⟩
    have hrow := (Shift.rows_tour i.terms rows _).subset (List.mem_map_of_mem hv)
    exact (Store.mem_dueInOrder.1 (hrows.subset hrow)).2

/-- **An invocation goes forward**, from visit to visit, whether or not it breaks off. -/
theorem Goes.pairwise {left : Store} (h : i.Goes vs left)
    (hid : i.world.store.aggregations.Pairwise fun a b => a.id ≠ b.id) :
    (i.world.store :: (vs.map (fun v => v.after.store) ++ [left])).Pairwise
      (Store.RowsGo (AggregationRow.Advances i.options.mode)) := by
  obtain ⟨hlinked, hlast, hmade⟩ := linked_visits hid
  have htrans : ∀ r r' r'', AggregationRow.Advances i.options.mode r r' →
      AggregationRow.Advances i.options.mode r' r'' →
        AggregationRow.Advances i.options.mode r r'' := fun _ _ _ => .trans
  -- A visit that was finished goes forward, and so does what was saved in one that was not.
  have hvisit : ∀ v ∈ i.visits, v.SumsFit i.terms →
      v.before.store.RowsGo (AggregationRow.Advances i.options.mode) v.after.store :=
    fun v hv => (hmade v hv).1.rowsGo (hmade v hv).2
  cases h with
  | whole h =>
    exact hlinked.pairwise htrans (fun v hv => hvisit v hv (h.visits v hv))
      (.of_eq (.refl _) (congrArg Store.aggregations hlast))
  | @inStep vs v f hvs hfits hreaches hf =>
    obtain ⟨hfront, hbefore, -⟩ := (hlinked.of_prefix hvs).of_append
    refine hfront.pairwise htrans (fun v' hv' => hvisit v' ?_ (hfits v' hv')) ?_
    · exact hvs.subset (List.mem_append_left [v] hv')
    · rw [← hbefore]
      exact (hmade v (hvs.subset List.mem_concat_self)).1.rowsGo_of_reaches hreaches
  | @afterStep vs v hvs hfits hrecords =>
    obtain ⟨hfront, hbefore, -⟩ := (hlinked.of_prefix hvs).of_append
    have hstep : ∀ v' ∈ vs ++ [v],
        v'.before.store.RowsGo (AggregationRow.Advances i.options.mode) v'.after.store :=
      fun v' hv' => hvisit v' (hvs.subset hv') (hfits v' hv')
    refine hfront.pairwise htrans (fun v' hv' => hstep v' (List.mem_append_left [v] hv')) ?_
    rw [← hbefore]
    exact hstep v List.mem_concat_self

end Invocation

namespace Course

/-- **The stores that an invocation goes through**: the one it finds, what each visit leaves, and
what it leaves itself. -/
def stages (c : Course) : List Store :=
  c.invocation.world.store :: (c.visits.map (fun v => v.after.store) ++ [c.left])

theorem pairwise_stages (c : Course)
    (hid : c.invocation.world.store.aggregations.Pairwise fun a b => a.id ≠ b.id) :
    c.stages.Pairwise (Store.RowsGo (AggregationRow.Advances c.invocation.options.mode)) :=
  c.goes.pairwise hid

/-- What an invocation leaves has unique numbers, if what it found has. -/
theorem id_ne_left (c : Course)
    (hid : c.invocation.world.store.aggregations.Pairwise fun a b => a.id ≠ b.id) :
    c.left.aggregations.Pairwise fun a b => a.id ≠ b.id := by
  have hstages := c.pairwise_stages hid
  have hgo := (List.pairwise_cons.1 hstages).1 c.left (List.mem_append_right _ List.mem_cons_self)
  exact hgo.id_ne hid

end Course

/-! ### One after another -/

namespace InTurn

variable {s : Store} {cs ds : List Course}

/-- **What each invocation keeps, all of them keep.** -/
theorem pairwise_stages {R : AggregationRow → AggregationRow → Prop} (hrefl : ∀ r, R r r)
    (htrans : ∀ r r' r'', R r r' → R r' r'' → R r r'') (h : InTurn s cs)
    (hid : s.aggregations.Pairwise fun a b => a.id ≠ b.id)
    (hR : ∀ c ∈ cs, (c.invocation.world.store.aggregations.Pairwise fun a b => a.id ≠ b.id) →
      c.stages.Pairwise (Store.RowsGo R)) :
    (cs.flatMap Course.stages).Pairwise (Store.RowsGo R) ∧
      ∀ st ∈ cs.flatMap Course.stages, s.RowsGo R st := by
  induction h with
  | nil s => exact ⟨.nil, List.forall_mem_nil _⟩
  | @cons s c cs hrows h ih =>
    rw [← hrows] at hid
    obtain ⟨hfirst, hlater⟩ := List.forall_mem_cons.1 hR
    obtain ⟨hrest, hfrom⟩ := ih (c.id_ne_left hid) hlater
    have hstages := hfirst hid
    -- Whatever an invocation goes through goes on to what it leaves, and from there to the rest.
    have hlast : ∀ st ∈ c.stages, st.RowsGo R c.left := by
      intro st hst
      rw [Course.stages, ← List.cons_append] at hst hstages
      rcases List.mem_append.1 hst with hst | hst
      · exact (List.pairwise_append.1 hstages).2.2 st hst _ List.mem_cons_self
      · rw [List.mem_singleton.1 hst]
        exact .of_eq hrefl rfl
    have hhead : ∀ st ∈ c.stages, s.RowsGo R st := by
      have hstart : s.RowsGo R c.invocation.world.store := .of_eq hrefl hrows
      refine List.forall_mem_cons.2 ⟨hstart, fun st hst => ?_⟩
      exact hstart.trans htrans ((List.pairwise_cons.1 hstages).1 st hst)
    rw [List.flatMap_cons]
    refine ⟨List.pairwise_append.2 ⟨hstages, hrest, fun st hst st' hst' => ?_⟩, fun st hst => ?_⟩
    · exact (hlast st hst).trans htrans (hfrom st' hst')
    · rcases List.mem_append.1 hst with hst | hst
      · exact hhead st hst
      · have hleft := hhead c.left
          (List.mem_cons_of_mem _ (List.mem_append_right _ List.mem_cons_self))
        exact hleft.trans htrans (hfrom st hst)

end InTurn

/-! ### A clock that is set back -/

/-- The same worker once more, in some mode, after the wall clock was set back by a minute. -/
def Invocation.again (i : Invocation) (m : Mode) : Invocation :=
  { i with
    options := { i.options with mode := m }
    world := { i.run.2 with clock := i.run.2.clock.skew (-60000) } }

/-- An aggregation that has folded as many events as can be counted. -/
def brimful : Aggregation where
  id := 1
  target := 7
  enabled := true
  lastRun := .both none
  cursor := none
  total := 0
  processed := 9223372036854775807
  stats := .both {}

/-- Its row. -/
def brimfulRow : AggregationRow := { id := 1, target := 7, processed := 9223372036854775807 }

/-- A run that finds it, and one more event. -/
def brimfulRun : Invocation where
  options := {}
  pageSize := 1
  circumstances := undisturbed
  world := {
    clock := { wall := .epoch }
    database := { store := {
      aggregations := [brimfulRow]
      nextAggregation := 2
      events := [⟨1, 7, 0, 5⟩]
      nextEvent := 2 } } }

/-- The visit of the row. -/
def brimfulVisit : Visit :=
  (Shift.opening {} brimfulRun.world).visitOf brimfulRun.terms brimfulRow brimful

theorem prefix_visits_brimfulRun : [brimfulVisit] <+: brimfulRun.visits := by
  have hdue : brimfulRun.world.store.dueInOrder .incremental brimfulRun.world.now.millis =
      [brimfulRow] := Store.dueInOrder_eq (.refl _) (by decide +kernel) (by decide +kernel)
  have hread : ∀ r ∈ brimfulRun.world.store.dueInOrder .incremental brimfulRun.world.now.millis,
      ∃ a, r.read = .ok a := hdue ▸ List.forall_mem_singleton.2 ⟨brimful, rfl⟩
  have hid : brimfulRun.world.store.aggregations.Pairwise fun a b => a.id ≠ b.id := by
    decide +kernel
  have hrun := perform_of_readable brimfulRun.options brimfulRun.pageSize brimfulRun.circumstances
    rfl hid hread
  have hvisits : brimfulRun.visits = _ :=
    (visiting_of_report hid (congrArg Prod.fst hrun)).1.visits_eq
  have htour : brimfulRun.world.dueTour brimfulRun.options brimfulRun.pageSize
      brimfulRun.circumstances =
        (Shift.opening {} brimfulRun.world).tour brimfulRun.terms [brimfulRow] :=
    congrArg (fun rows => (Shift.opening {} brimfulRun.world).tour _ rows) hdue
  rw [hvisits, htour]
  exact Shift.prefix_visits_tour rfl

/-- The fold it reaches. -/
def brimfulFold : Shift.Fold where
  onto := brimful
  folded := 0
  events := [⟨1, 7, .epoch, 5⟩]
  shift := (brimfulVisit.before.begun undisturbed brimful).readElapsed.2

theorem reaches_brimfulVisit : brimfulVisit.Reaches brimfulRun.terms brimfulFold := by
  refine ⟨by decide +kernel, brimful, rfl, .here ?_⟩
  have hahead : brimfulRun.world.store.rowsAhead 7 none = [⟨1, 7, 0, 5⟩] :=
    List.mergeSort_singleton _
  change (Store.limited 1 (brimfulRun.world.store.rowsAhead 7 none)).mapM Store.EventRow.read = _
  rw [hahead]
  rfl

/-- **It breaks off at that event** where sums are checked, and leaves everything as it was. Where
they wrap, the count would go back to the least there is. -/
theorem goes_brimfulRun : brimfulRun.Goes [] brimfulRun.world.store ∧
    brimfulFold.events.map (fun e => (brimful.foldWrapped e).processed) = [Cell.least] :=
  ⟨@Invocation.Goes.inStep brimfulRun [] brimfulVisit brimfulFold prefix_visits_brimfulRun
    (List.forall_mem_nil _) reaches_brimfulVisit (by decide), by decide⟩

end Leasehold
