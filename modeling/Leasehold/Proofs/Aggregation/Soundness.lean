import Leasehold.Aggregation.Worker
import Leasehold.Proofs.Aggregation.Folding

/-!
# Rows and aggregations in hand

Whoever steps an aggregation holds a copy of its row while the row may be changed by others. This
file says what a good row is (`Leasehold.Store.Sound`), what a good copy is
(`Leasehold.Store.Vouches`), and what each call on the store keeps of both.

It is the *pair* of cursor and totals that is right or wrong, and a copy is only ever written with
both. So it does not matter how old a copy is: it is exact with respect to the events there are
**now**, since later events come after its cursor (`Leasehold.Store.Vouches.goesOn`), and a stale
copy that overwrites a newer row takes it back to an earlier place, with the totals of that place
(`Leasehold.Store.Sound.saveAggregation`). Totals have no bounds here; when they are those of 64
bits is told by `Leasehold.Aggregation.SumsFit`.
-/

namespace Leasehold

namespace Store

variable {s s' : Store} {a : Aggregation}

/-! ### Good rows and good copies -/

/-- **The rows of a store are exact**, and told apart by their numbers. -/
structure Sound (s : Store) : Prop where
  /-- Rows have numbers of their own. -/
  numbered : s.Numbered
  /-- Cursor and totals of each row belong together. -/
  foldsTo : ∀ r ∈ s.aggregations, s.FoldsTo r.target r.cursorTime r.cursorEvent r.total r.processed

/-- **An aggregation in hand is good**: it is exact, and its row is of the same target. -/
structure Vouches (s : Store) (a : Aggregation) : Prop where
  /-- Cursor and totals belong together. -/
  isExact : a.IsExact s
  /-- Its number was given out before. -/
  id_lt : a.id < s.nextAggregation
  /-- No row of its number is of another target. -/
  target_eq : ∀ r ∈ s.aggregations, r.id = a.id → r.target = a.target

/-- **A store goes on to another one**: totals up to a place stay what they were, and rows keep
their targets. -/
structure GoesOn (s s' : Store) : Prop where
  /-- Totals up to a place stay. -/
  foldsTo : ∀ {target time event total processed},
    s.FoldsTo target time event total processed → s'.FoldsTo target time event total processed
  /-- Numbers that were given out stay so. -/
  nextAggregation_le : s.nextAggregation ≤ s'.nextAggregation
  /-- A row that was not there before has a new number. -/
  mem : ∀ r ∈ s'.aggregations,
    (∃ r₀ ∈ s.aggregations, r.id = r₀.id ∧ r.target = r₀.target) ∨ s.nextAggregation ≤ r.id

theorem GoesOn.refl (s : Store) : s.GoesOn s :=
  ⟨fun h => h, Int.le_refl _, fun r hr => Or.inl ⟨r, hr, rfl, rfl⟩⟩

/-- What is in hand stays good when the store goes on. -/
theorem Vouches.goesOn (ha : s.Vouches a) (h : s.GoesOn s') : s'.Vouches a := by
  refine ⟨h.foldsTo ha.isExact, Int.lt_of_lt_of_le ha.id_lt h.nextAggregation_le, ?_⟩
  intro r hr hid
  rcases h.mem r hr with ⟨r₀, hr₀, hid₀, htarget⟩ | hnew
  · rw [htarget]
    exact ha.target_eq r₀ hr₀ (hid₀ ▸ hid)
  · have := ha.id_lt
    omega

/-- Totals up to a place depend on the events alone. -/
theorem foldsTo_congr (h : s'.events = s.events) {target : Int} {time event : Option Int}
    {total processed : Int} :
    s'.FoldsTo target time event total processed ↔ s.FoldsTo target time event total processed := by
  unfold FoldsTo
  rw [h]

/-! ### What the calls on the store keep -/

section Change

variable {id : Int} {f : AggregationRow → AggregationRow}

theorem goesOn_changeAggregation (s : Store) (hid : ∀ r, (f r).id = r.id)
    (htarget : ∀ r, (f r).target = r.target) : s.GoesOn (s.changeAggregation id f) := by
  refine ⟨(foldsTo_congr rfl).2, Int.le_refl _, fun r hr => Or.inl ?_⟩
  obtain ⟨r₀, hr₀, rfl⟩ := mem_changeAggregation.1 hr
  refine ⟨r₀, hr₀, ?_⟩
  split
  · exact ⟨hid r₀, htarget r₀⟩
  · exact ⟨rfl, rfl⟩

theorem Sound.changeAggregation (hs : s.Sound) (hid : ∀ r, (f r).id = r.id)
    (hf : ∀ r ∈ s.aggregations, r.id = id →
      s.FoldsTo (f r).target (f r).cursorTime (f r).cursorEvent (f r).total (f r).processed) :
    (s.changeAggregation id f).Sound := by
  refine ⟨hs.numbered.changeAggregation id hid, fun r hr => ?_⟩
  rw [foldsTo_congr (events_changeAggregation s id f)]
  obtain ⟨r₀, hr₀, rfl⟩ := mem_changeAggregation.1 hr
  split
  · rename_i h
    exact hf r₀ hr₀ h
  · exact hs.foldsTo r₀ hr₀

end Change

theorem sound_empty : Sound {} := ⟨numbered_empty, fun r hr => by cases hr⟩

theorem goesOn_register (s : Store) (target : Int) : s.GoesOn (s.register target).2 := by
  refine ⟨(foldsTo_congr (events_register s target)).2, ?_, fun r hr => ?_⟩
  · rw [nextAggregation_register]
    omega
  · rcases mem_register hr with hr | rfl
    · exact Or.inl ⟨r, hr, rfl, rfl⟩
    · exact Or.inr (Int.le_refl _)

theorem Sound.register (hs : s.Sound) (target : Int) : (s.register target).2.Sound := by
  refine ⟨hs.numbered.register target, fun r hr => ?_⟩
  rw [foldsTo_congr (events_register s target)]
  rcases mem_register hr with hr | rfl
  · exact hs.foldsTo r hr
  · exact Or.inl ⟨rfl, rfl, rfl, rfl⟩

theorem goesOn_setEnabled (s : Store) (id : Int) (enabled : Bool) :
    s.GoesOn (s.setEnabled id enabled) :=
  goesOn_changeAggregation s (fun _ => rfl) fun _ => rfl

theorem Sound.setEnabled (hs : s.Sound) (id : Int) (enabled : Bool) :
    (s.setEnabled id enabled).Sound :=
  hs.changeAggregation (fun _ => rfl) fun r hr _ => hs.foldsTo r hr

theorem goesOn_markRun (s : Store) (id : Int) (m : Mode) (t : Instant) :
    s.GoesOn (s.markRun id m t).2 := by
  rw [markRun]
  split
  · exact goesOn_changeAggregation s (fun _ => rfl) fun _ => rfl
  · exact GoesOn.refl s

theorem Sound.markRun (hs : s.Sound) (id : Int) (m : Mode) (t : Instant) :
    (s.markRun id m t).2.Sound := by
  rw [Store.markRun]
  split
  · exact hs.changeAggregation (fun _ => rfl) fun r hr _ => hs.foldsTo r hr
  · exact hs

theorem goesOn_saveAggregation (s : Store) (a : Aggregation) :
    s.GoesOn (s.saveAggregation a).2 := by
  rw [saveAggregation]
  split
  · exact goesOn_changeAggregation s (fun _ => rfl) fun _ => rfl
  · exact GoesOn.refl s

/-- **Saving an aggregation in hand keeps the rows exact**, however old it is. -/
theorem Sound.saveAggregation (hs : s.Sound) (ha : s.Vouches a) :
    (s.saveAggregation a).2.Sound := by
  rw [Store.saveAggregation]
  split
  · refine hs.changeAggregation (fun _ => rfl) fun r hr hid => ?_
    have h := ha.isExact
    rw [Aggregation.IsExact, ← ha.target_eq r hr hid] at h
    exact h
  · exact hs

section Event

variable {target : Int} {t : Instant}

/-- The store goes on when an event is added that is not earlier than the others of its
target. -/
theorem goesOn_addEvent (hs : s.Numbered) (value : Int)
    (ht : ∀ r ∈ s.events, r.target = target → r.millis ≤ t.millis) :
    s.GoesOn (s.addEvent target value t).2 :=
  ⟨fun h => h.addEvent hs ht, Int.le_refl _, fun r hr => Or.inl ⟨r, hr, rfl, rfl⟩⟩

theorem Sound.addEvent (hs : s.Sound) (value : Int)
    (ht : ∀ r ∈ s.events, r.target = target → r.millis ≤ t.millis) :
    (s.addEvent target value t).2.Sound :=
  ⟨hs.numbered.addEvent target value t, fun r hr => (hs.foldsTo r hr).addEvent hs.numbered ht⟩

end Event

/-! ### Loading a copy -/

/-- What an aggregation has from its row. -/
theorem AggregationRow.read_eq_ok {r : AggregationRow} (h : r.read = .ok a) :
    a.id = r.id ∧ a.target = r.target ∧ a.total = r.total ∧ a.processed = r.processed ∧
      readCursor r = .ok a.cursor := by
  rw [read] at h
  simp only [bind, Except.bind] at h
  cases hc : readCursor r with
  | error e => simp [hc] at h
  | ok cursor =>
    rw [hc] at h
    simp only at h
    repeat' split at h
    all_goals cases h
    exact ⟨rfl, rfl, rfl, rfl, rfl⟩

/-- **A copy of a row**, as far as folding goes: number and target, cursor and totals are those of
the row. -/
structure AggregationRow.IsCopiedBy (r : AggregationRow) (a : Aggregation) : Prop where
  /-- The number. -/
  id_eq : a.id = r.id
  /-- The target. -/
  target_eq : a.target = r.target
  /-- The total. -/
  total_eq : a.total = r.total
  /-- The number of events. -/
  processed_eq : a.processed = r.processed
  /-- The cursor. -/
  cursor_eq : readCursor r = .ok a.cursor

theorem AggregationRow.isCopiedBy_of_read {r : AggregationRow} (h : r.read = .ok a) :
    r.IsCopiedBy a := by
  obtain ⟨hid, htarget, htotal, hprocessed, hcursor⟩ := AggregationRow.read_eq_ok h
  exact ⟨hid, htarget, htotal, hprocessed, hcursor⟩

/-- **A copy of a row is good.** -/
theorem Sound.vouches_of_isCopiedBy (hs : s.Sound) {r : AggregationRow} (hr : r ∈ s.aggregations)
    (h : r.IsCopiedBy a) : s.Vouches a := by
  have hc := h.cursor_eq
  have hcols : r.cursorTime = a.cursor.map (fun c => c.time.millis) ∧
      r.cursorEvent = a.cursor.map Cursor.event := by
    rcases hs.foldsTo r hr with ⟨ht, he, -⟩ | ⟨e, -, -, ht, he, -⟩
    · simp only [readCursor, ht, he] at hc
      rw [← Except.ok.inj hc]
      exact ⟨ht, he⟩
    · simp only [readCursor, ht, he] at hc
      obtain ⟨t, hi, hcursor⟩ := exists_of_map_eq_ok hc
      rw [← hcursor]
      exact ⟨ht.trans (congrArg some (millis_of_instant hi).symm), he⟩
  refine ⟨?_, h.id_eq.symm ▸ hs.numbered.aggregation_lt r hr, fun r' hr' hid' => ?_⟩
  · rw [Aggregation.IsExact, h.target_eq, h.total_eq, h.processed_eq, ← hcols.1, ← hcols.2]
    exact hs.foldsTo r hr
  · rw [h.target_eq, hs.numbered.eq_of_id_eq hr' hr (hid'.trans h.id_eq)]

/-- **An aggregation that is loaded is good.** -/
theorem Sound.vouches_of_read (hs : s.Sound) {r : AggregationRow} (hr : r ∈ s.aggregations)
    (h : r.read = .ok a) : s.Vouches a :=
  hs.vouches_of_isCopiedBy hr (AggregationRow.isCopiedBy_of_read h)

end Store

end Leasehold
