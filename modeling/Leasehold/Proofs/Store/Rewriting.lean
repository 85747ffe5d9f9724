import Leasehold.Proofs.Store.Numbering

/-!
# Rewriting a row in place

Whatever is written about an aggregation goes into its own row, and neither number nor target of
that row ever changes (`Leasehold.Store.OnlyRow`). Several writes of one row are one write
(`Leasehold.Store.OnlyRow.trans`), and writing a whole aggregation hides all that was written into
its row before (`Leasehold.Store.OnlyRow.changeAggregation_write`).
-/

namespace Leasehold.Store

variable {s s' s'' : Store} {id : Int}

/-- **Only the row of one number has changed**, and of that row neither number nor target. -/
def OnlyRow (id : Int) (s s' : Store) : Prop :=
  ∃ f : AggregationRow → AggregationRow,
    (∀ r, (f r).id = r.id ∧ (f r).target = r.target) ∧ s' = s.changeAggregation id f

theorem changeAggregation_changeAggregation (s : Store) (id : Int)
    {f : AggregationRow → AggregationRow} (hf : ∀ r, (f r).id = r.id)
    (g : AggregationRow → AggregationRow) :
    (s.changeAggregation id f).changeAggregation id g =
      s.changeAggregation id fun r => g (f r) := by
  simp only [changeAggregation, List.map_map]
  congr 1
  refine List.map_congr_left fun r _ => ?_
  by_cases hr : r.id = id
  · simp [hr, hf]
  · simp [hr]

theorem OnlyRow.refl (id : Int) (s : Store) : s.OnlyRow id s := by
  refine ⟨fun r => r, fun r => ⟨rfl, rfl⟩, ?_⟩
  simp [changeAggregation]

/-- **Several writes of one row are one write.** -/
theorem OnlyRow.trans (h : s.OnlyRow id s') (h' : s'.OnlyRow id s'') : s.OnlyRow id s'' := by
  obtain ⟨f, hf, rfl⟩ := h
  obtain ⟨g, hg, rfl⟩ := h'
  refine ⟨fun r => g (f r), fun r => ⟨?_, ?_⟩, ?_⟩
  · rw [(hg _).1, (hf r).1]
  · rw [(hg _).2, (hf r).2]
  · exact s.changeAggregation_changeAggregation id (fun r => (hf r).1) g

theorem OnlyRow.events (h : s.OnlyRow id s') : s'.events = s.events := by
  obtain ⟨f, -, rfl⟩ := h
  rfl

theorem OnlyRow.leases (h : s.OnlyRow id s') : s'.leases = s.leases := by
  obtain ⟨f, -, rfl⟩ := h
  rfl

theorem OnlyRow.hasAggregation (h : s.OnlyRow id s') (id' : Int) :
    s'.hasAggregation id' = s.hasAggregation id' := by
  obtain ⟨f, hf, rfl⟩ := h
  simp only [Store.hasAggregation, changeAggregation, List.any_map]
  refine congrArg (List.any s.aggregations) (funext fun r => ?_)
  by_cases hr : r.id = id
  · simp [hr, hf]
  · simp [hr]

theorem OnlyRow.id_ne (h : s.OnlyRow id s')
    (hs : s.aggregations.Pairwise fun a b => a.id ≠ b.id) :
    s'.aggregations.Pairwise fun a b => a.id ≠ b.id := by
  obtain ⟨f, hf, rfl⟩ := h
  refine List.pairwise_map.2 (hs.imp fun {a b} hab => ?_)
  split <;> split <;> simpa only [(hf _).1] using hab

/-- The rows of other numbers are still there. -/
theorem OnlyRow.mem (h : s.OnlyRow id s') {r : AggregationRow} (hr : r ∈ s.aggregations)
    (hid : r.id ≠ id) : r ∈ s'.aggregations := by
  obtain ⟨f, -, rfl⟩ := h
  exact mem_changeAggregation.2 ⟨r, hr, (if_neg hid).symm⟩

theorem onlyRow_saveAggregation (s : Store) (a : Aggregation) :
    s.OnlyRow a.id (s.saveAggregation a).2 := by
  rw [saveAggregation]
  split
  · exact ⟨AggregationRow.write a, fun r => ⟨rfl, rfl⟩, rfl⟩
  · exact .refl _ s

theorem onlyRow_markRun (s : Store) (id : Int) (m : Mode) (t : Instant) :
    s.OnlyRow id (s.markRun id m t).2 := by
  rw [markRun]
  split
  · refine ⟨_, ?_, rfl⟩
    intro r
    exact ⟨rfl, rfl⟩
  · exact .refl id s

/-- **Writing a whole aggregation hides what was written into its row before.** -/
theorem OnlyRow.changeAggregation_write {a : Aggregation} (h : s.OnlyRow a.id s') :
    s'.changeAggregation a.id (AggregationRow.write a) =
      s.changeAggregation a.id (AggregationRow.write a) := by
  obtain ⟨f, hf, rfl⟩ := h
  rw [changeAggregation_changeAggregation s a.id (fun r => (hf r).1)]
  refine congrArg (s.changeAggregation a.id) (funext fun r => ?_)
  -- All that a write keeps of a row is its number and its target.
  rw [AggregationRow.write, AggregationRow.write]
  simp only [hf r]

/-- The cursor that is read from a row is the one written, up to the millisecond. -/
theorem readCursor_write (a : Aggregation) (r : AggregationRow) :
    readCursor (AggregationRow.write a r) =
      .ok (a.cursor.map fun c => { c with time := c.time.floor }) := by
  rw [readCursor, AggregationRow.write]
  cases a.cursor with
  | none => rfl
  | some c =>
    change (instant c.time.millis).map (fun t => some (⟨t, c.event⟩ : Cursor)) = _
    rw [instant_millis]
    rfl

end Leasehold.Store
