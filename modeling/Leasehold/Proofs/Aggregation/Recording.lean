import Leasehold.Proofs.Aggregation.Forward
import Leasehold.Proofs.Aggregation.Meaning

/-!
# What a step records

A step folds events into the aggregation it was given, and all that it ever saves is that
aggregation with some of its events folded (`Leasehold.Aggregation.SavesPages`). Its statistics are
touched once, at the very end and only if everything before went well: then the run is remembered
with the number of events that were folded, and with the time that has passed since the step began
(`Leasehold.Shift.exists_stepped_of_step`). A step that fails may have saved pages, but it remembers
nothing (`Leasehold.Shift.savesPages_of_step_error`).

A visit of the worker adds to that the mark of a row whose step has failed. What every visit keeps,
a tour keeps (`Leasehold.Shift.holds_tour`).
-/

namespace Leasehold

open Store (AggregationRow)

/-! ### Events that were folded -/

namespace Aggregation

variable {s s' s'' : Store} {es : List Event}

theorem foldAll_append (a : Aggregation) (es es' : List Event) :
    a.foldAll (es ++ es') = (a.foldAll es).foldAll es' :=
  List.foldl_append

theorem stats_foldAll (a : Aggregation) (es : List Event) : (a.foldAll es).stats = a.stats := by
  rw [foldAll_eq]

/-- **What pages save of an aggregation**: nothing, or the aggregation with some events folded. -/
def SavesPages (a : Aggregation) (s s' : Store) : Prop :=
  s' = s ∨ ∃ es, s' = s.changeAggregation a.id (AggregationRow.write (a.foldAll es))

theorem SavesPages.refl (a : Aggregation) (s : Store) : a.SavesPages s s := .inl rfl

theorem SavesPages.onlyRow {a : Aggregation} (h : a.SavesPages s s') : s.OnlyRow a.id s' := by
  rcases h with rfl | ⟨es, rfl⟩
  · exact .refl a.id s'
  · exact ⟨AggregationRow.write (a.foldAll es), fun _ => ⟨rfl, rfl⟩, rfl⟩

/-- What was saved last is all that was saved. -/
theorem SavesPages.trans {a : Aggregation} (h : a.SavesPages s s')
    (h' : (a.foldAll es).SavesPages s' s'') : a.SavesPages s s'' := by
  rcases h' with rfl | ⟨es', rfl⟩
  · exact h
  · refine .inr ⟨es ++ es', ?_⟩
    have hid : (a.foldAll (es ++ es')).id = a.id := Shift.id_foldAll a _
    rw [Shift.id_foldAll, ← foldAll_append, ← hid]
    exact Store.OnlyRow.changeAggregation_write (hid ▸ h.onlyRow)

end Aggregation

/-! ### Pages and steps -/

namespace Shift

variable {a : Aggregation} {m : Mode} {size folded : Nat} {cutoff : Instant} {s s' : Shift}

/-- Saving a page saves the events that were folded. -/
theorem savesPages_of_save {es : List Event} {answer : Except Store.Fault Unit}
    (h : s.save (a.foldAll es) = (answer, s')) : a.SavesPages s.store s'.store := by
  cases answer with
  | error e => exact .inl (store_of_save_error h)
  | ok u => exact .inr ⟨es, id_foldAll a es ▸ (save_eq_ok h).2⟩

/-- **Pages fold events** one after another, count them, and save no more than that. -/
theorem savesPages_foldPages {answer : Except Store.Fault Progress}
    (h : s.foldPages size a folded = (answer, s')) :
    a.SavesPages s.store s'.store ∧ ∀ p, answer = .ok p →
      ∃ es, p.aggregation = a.foldAll es ∧ p.folded = folded + es.length := by
  fun_induction foldPages size a folded s with
  | case1 a folded s e hp =>
    cases h
    exact ⟨.refl a _, fun p hp' => by cases hp'⟩
  | case2 a folded s es hp hl =>
    cases h
    refine ⟨.refl a _, fun p hp' => ?_⟩
    cases hp'
    exact ⟨es, rfl, rfl⟩
  | case3 a folded s es hp hl e s₁ hs =>
    cases h
    exact ⟨savesPages_of_save hs, fun p hp' => by cases hp'⟩
  | case4 a folded s es hp hl s₁ hs s₂ hc =>
    cases h
    have hstore := store_check s₁
    rw [hc] at hstore
    refine ⟨?_, fun p hp' => ?_⟩
    · rw [hstore]
      exact savesPages_of_save hs
    · cases hp'
      exact ⟨es, rfl, rfl⟩
  | case5 a folded s es hp hl s₁ hs s₂ hc ih =>
    have hstore := store_check s₁
    rw [hc] at hstore
    have hfirst := savesPages_of_save hs
    rw [← hstore] at hfirst
    obtain ⟨hrest, hgives⟩ := ih h
    -- The later pages save the row again, so what the first one saved is gone unless they fail.
    refine ⟨hfirst.trans hrest, fun p hp' => ?_⟩
    obtain ⟨es', haggregation, hfolded⟩ := hgives p hp'
    refine ⟨es ++ es', ?_, ?_⟩
    · rw [haggregation, Aggregation.foldAll_append]
    · rw [hfolded, List.length_append, Nat.add_assoc]

/-- **The time that a step takes**, from its beginning until its last page was folded. -/
def stepRuntime (size : Nat) (a : Aggregation) (m : Mode) (s : Shift) : Span :=
  (s.readElapsed.2.foldPages size (startOf m a) 0).2.readElapsed.1 - s.readElapsed.1

/-- **A step that ends well has written one row**: with its events folded, its run remembered and
its marker moved. -/
theorem exists_stepped_of_step {o : Outcome} (h : s.step size a m cutoff = (.ok o, s')) :
    ∃ es t, o.processed = es.length ∧ s'.store = s.store.changeAggregation a.id
      (AggregationRow.write (a.stepped m es (s.stepRuntime size a m) t)) := by
  obtain ⟨p, s₁, hpages, rfl, hsave⟩ := step_eq_ok h
  obtain ⟨hsaves, hgives⟩ := savesPages_foldPages hpages
  obtain ⟨es, haggregation, hfolded⟩ := hgives p rfl
  have hfolded : p.folded = es.length := hfolded.trans (Nat.zero_add _)
  have hruntime : s₁.readElapsed.1 - s.readElapsed.1 = s.stepRuntime size a m := by
    rw [stepRuntime, hpages]
  rw [Aggregation.result_eq_stepped haggregation hfolded, hruntime] at hsave
  refine ⟨es, max s₁.readElapsed.2.world.now cutoff, hfolded, ?_⟩
  rw [(save_eq_ok hsave).2]
  -- The pages wrote the same row before, and nothing of that is left.
  have honly := hsaves.onlyRow
  rw [id_startOf] at honly
  exact Store.OnlyRow.changeAggregation_write (a := a.stepped m es _ _) honly

/-- **A step that fails leaves what its pages have saved**, and remembers nothing. -/
theorem savesPages_of_step_error {e : Store.Fault}
    (h : s.step size a m cutoff = (.error e, s')) :
    (startOf m a).SavesPages s.store s'.store := by
  rcases hpages : s.readElapsed.2.foldPages size (startOf m a) 0 with ⟨e' | p, s₁⟩
  · rw [step_of_error hpages] at h
    cases h
    exact (savesPages_foldPages hpages).1
  · rw [step_eq_of_pages hpages] at h
    rcases hsave : s₁.readElapsed.2.save (p.result m (s₁.readElapsed.1 - s.readElapsed.1)
        (max s₁.readElapsed.2.world.now cutoff)) with ⟨e' | u, s₂⟩
    · rw [hsave] at h
      cases h
      rw [store_of_save_error hsave]
      exact (savesPages_foldPages hpages).1
    · rw [hsave] at h
      cases h

/-- **An attempt that fails leaves what its pages have saved**, and one that was refused leaves the
store alone. -/
theorem savesPages_of_attempt {cs : Circumstances} {e : StepError}
    (h : s.attempt cs size a m cutoff = (.error e, s')) :
    (startOf m a).SavesPages s.store s'.store ∧ (e = .refused → s'.store = s.store) := by
  rcases attempt_cases cs size a m cutoff s with hrefused | ⟨answer, s₁, hstep, hattempt⟩
  · rw [hrefused] at h
    cases h
    exact ⟨.refl _ _, fun _ => rfl⟩
  · rw [hattempt] at h
    cases answer with
    | ok o => cases h
    | error f =>
      cases h
      exact ⟨savesPages_of_step_error (s := s.begun cs a) hstep, fun he => by cases he⟩

end Shift

/-! ### Visits and tours -/

namespace Visit

variable {p : Terms} {s : Shift} {v : Visit}

/-- **The time that the step of a visit takes**, with the aggregation it is given. -/
def runtime (p : Terms) (v : Visit) (a : Aggregation) : Span :=
  (v.before.begun p.circumstances a).stepRuntime p.pageSize a p.mode

/-- **A visit whose step ends well has written its row** as the step has recorded it. -/
theorem Made.exists_stepped (h : v.Made p s) {o : Shift.Outcome} (hv : v.answer = .ok o) :
    ∃ a es t, v.row.read = .ok a ∧ o.processed = es.length ∧
      v.after.store = v.before.store.changeAggregation v.row.id
        (AggregationRow.write (a.stepped p.mode es (v.runtime p a) t)) := by
  obtain ⟨a, ha, heq⟩ := h.eq
  rw [Shift.id_of_read ha]
  rcases Shift.attempt_cases p.circumstances p.pageSize a p.mode p.cutoff v.before with
    hrefused | ⟨answer, s', hstep, hattempt⟩
  · rw [heq, Shift.visitOf, hrefused] at hv
    cases hv
  · rw [heq, Shift.visitOf, hattempt] at hv
    cases answer with
    | error e => cases hv
    | ok o' =>
      cases hv
      obtain ⟨es, t, ho, hstore⟩ := Shift.exists_stepped_of_step hstep
      refine ⟨a, es, t, ha, ho, ?_⟩
      have hafter : v.after = v.before.afterVisit p a := congrArg Visit.after heq
      rw [hafter, Shift.afterVisit, Shift.visit, hattempt]
      exact hstore

/-- **A visit whose step fails** leaves what its pages have saved, if it was not refused, and marks
the row. -/
theorem Made.exists_marked (h : v.Made p s) {e : StepError} (hv : v.answer = .error e) :
    ∃ a st t, v.row.read = .ok a ∧ (Shift.startOf p.mode a).SavesPages v.before.store st ∧
      (e = .refused → st = v.before.store) ∧
      v.after.store = st.changeAggregation v.row.id (AggregationRow.marked p.mode t) := by
  obtain ⟨a, ha, heq⟩ := h.eq
  have hhas := h.canVisit.hasAggregation List.mem_cons_self
  rw [Shift.id_of_read ha] at hhas ⊢
  have hwithin := Shift.within_attempt p.circumstances p.pageSize a p.mode p.cutoff v.before
  have hafter : v.after = v.before.afterVisit p a := congrArg Visit.after heq
  have hanswer : v.answer =
      (v.before.attempt p.circumstances p.pageSize a p.mode p.cutoff).1 := congrArg Visit.answer heq
  rcases hattempt : v.before.attempt p.circumstances p.pageSize a p.mode p.cutoff with ⟨answer, s₁⟩
  rw [hattempt] at hwithin hanswer
  obtain rfl : answer = .error e := hanswer.symm.trans hv
  obtain ⟨hsaves, hrefused⟩ := Shift.savesPages_of_attempt hattempt
  obtain ⟨s₂, hmark, hstore⟩ := Shift.mark_of_has (hwithin.isPoisoned.trans h.canVisit.isPoisoned)
    ((hwithin.store.hasAggregation a.id).trans hhas) p.mode (max s₁.world.now p.cutoff)
  refine ⟨a, s₁.store, max s₁.world.now p.cutoff, ha, hsaves, hrefused, ?_⟩
  rw [hafter, Shift.afterVisit, Shift.visit, hattempt]
  simp only [hmark]
  exact hstore

end Visit

/-- **What each visit keeps, a tour keeps.** -/
theorem Shift.holds_tour {p : Terms} {P : List Visit → Store → Prop}
    (hP : ∀ v : Visit, v.Made p v.before → ∀ vs, P vs v.before.store →
      P (vs ++ [v]) v.after.store)
    {rows : List AggregationRow} {s : Shift} (h : s.CanVisit rows) (vs : List Visit)
    (hs : P vs s.store) : P (vs ++ (s.tour p rows).visits) (s.tour p rows).last.store := by
  -- The visits that were made before grow along the tour.
  fun_induction tour p rows s generalizing vs with
  | case1 s =>
    rw [List.append_nil]
    exact hs
  | case2 r rs s e hr =>
    rw [List.append_nil]
    exact hs
  | case3 r rs s a ha hover => exact hP (s.visitOf p r a) (made_visitOf h ha) vs hs
  | case4 r rs s a ha hover ih =>
    have hrest := ih (h.visited ha) _ (hP (s.visitOf p r a) (made_visitOf h ha) vs hs)
    rwa [List.append_assoc] at hrest

end Leasehold
