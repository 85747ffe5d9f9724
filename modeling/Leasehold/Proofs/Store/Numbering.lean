import Leasehold.Store.Aggregations
import Leasehold.Store.Events
import Mathlib.Data.List.Pairwise

/-!
# The numbers of rows

Aggregations and events get their numbers from the store, one after another, and keep them: a row
is found again by its number, and no row that comes later can be mistaken for it. This file says
what that means for the tables (`Leasehold.Store.Numbered`) and that every call on them keeps it.

The calls change rows in place, so the second half of the file is about rows rather than numbers:
what a call leaves of the row of a number, and which rows there are after it.
-/

namespace Leasehold

namespace Store

variable {s : Store}

/-! ### Numbers are given out once -/

/-- **Every row has a number of its own**, below the one that is given out next. -/
structure Numbered (s : Store) : Prop where
  /-- The numbers of aggregations were given out before. -/
  aggregation_lt : ∀ r ∈ s.aggregations, r.id < s.nextAggregation
  /-- No two aggregations have the same number. -/
  aggregation_ne : s.aggregations.Pairwise fun a b => a.id ≠ b.id
  /-- The numbers of events were given out before. -/
  event_lt : ∀ r ∈ s.events, r.id < s.nextEvent
  /-- No two events have the same number. -/
  event_ne : s.events.Pairwise fun a b => a.id ≠ b.id

theorem numbered_empty : Numbered {} := by
  constructor <;> simp

/-- Of rows with numbers of their own, each is told by its number. -/
theorem eq_of_number_eq {α : Type} {number : α → Int} {rows : List α}
    (hrows : rows.Pairwise fun a b => number a ≠ number b) {a b : α} (ha : a ∈ rows) (hb : b ∈ rows)
    (h : number a = number b) : a = b := by
  have : Std.Symm fun a b : α => number a ≠ number b := ⟨fun _ _ => Ne.symm⟩
  by_contra hne
  exact hrows.forall ha hb hne h

theorem AggregationRow.eq_of_id_eq {rows : List AggregationRow}
    (hrows : rows.Pairwise fun a b => a.id ≠ b.id) {a b : AggregationRow} (ha : a ∈ rows)
    (hb : b ∈ rows) (h : a.id = b.id) : a = b :=
  eq_of_number_eq hrows ha hb h

theorem EventRow.eq_of_id_eq {rows : List EventRow} (hrows : rows.Pairwise fun a b => a.id ≠ b.id)
    {a b : EventRow} (ha : a ∈ rows) (hb : b ∈ rows) (h : a.id = b.id) : a = b :=
  eq_of_number_eq hrows ha hb h

/-- An aggregation is told by its number. -/
theorem Numbered.eq_of_id_eq (hs : s.Numbered) {a b : AggregationRow} (ha : a ∈ s.aggregations)
    (hb : b ∈ s.aggregations) (h : a.id = b.id) : a = b :=
  AggregationRow.eq_of_id_eq hs.aggregation_ne ha hb h

/-! ### Changing rows in place -/

theorem mem_changeAggregation {id : Int} {f : AggregationRow → AggregationRow}
    {r : AggregationRow} :
    r ∈ (s.changeAggregation id f).aggregations ↔
      ∃ r₀ ∈ s.aggregations, r = if r₀.id = id then f r₀ else r₀ := by
  simp only [changeAggregation, List.mem_map, eq_comm]

@[simp] theorem events_changeAggregation (s : Store) (id : Int)
    (f : AggregationRow → AggregationRow) : (s.changeAggregation id f).events = s.events := rfl

theorem Numbered.changeAggregation (hs : s.Numbered) (id : Int)
    {f : AggregationRow → AggregationRow} (hf : ∀ r, (f r).id = r.id) :
    (s.changeAggregation id f).Numbered := by
  have hid : ∀ r : AggregationRow, (if r.id = id then f r else r).id = r.id := by
    intro r
    split
    · exact hf r
    · rfl
  refine ⟨?_, ?_, hs.event_lt, hs.event_ne⟩
  · intro r hr
    obtain ⟨r₀, hr₀, rfl⟩ := mem_changeAggregation.1 hr
    rw [hid]
    exact hs.aggregation_lt r₀ hr₀
  · refine List.pairwise_map.2 (hs.aggregation_ne.imp fun {a b} h => ?_)
    rwa [hid, hid]

/-! ### The calls keep the numbers -/

theorem aggregations_register (s : Store) (target : Int) :
    (s.register target).2.aggregations =
      if s.aggregations.all fun r => r.target ≠ target then
        s.aggregations ++ [{ id := s.nextAggregation, target }]
      else s.aggregations := by
  unfold register
  simp only
  split <;> rfl

@[simp] theorem events_register (s : Store) (target : Int) :
    (s.register target).2.events = s.events := by
  unfold register
  simp only
  split <;> rfl

theorem nextAggregation_register (s : Store) (target : Int) :
    (s.register target).2.nextAggregation = s.nextAggregation + 1 := by
  unfold register
  simp only
  split <;> rfl

theorem nextEvent_register (s : Store) (target : Int) :
    (s.register target).2.nextEvent = s.nextEvent := by
  unfold register
  simp only
  split <;> rfl

/-- A row that registering adds is as new as its number. -/
theorem mem_register {target : Int} {r : AggregationRow}
    (hr : r ∈ (s.register target).2.aggregations) :
    r ∈ s.aggregations ∨ r = { id := s.nextAggregation, target } := by
  rw [aggregations_register] at hr
  split at hr
  · simpa using hr
  · exact Or.inl hr

/-- A number that registering gives out is below the next one. -/
theorem id_lt_register (hlt : ∀ r ∈ s.aggregations, r.id < s.nextAggregation) (target : Int) :
    ∀ r ∈ (s.register target).2.aggregations, r.id < (s.register target).2.nextAggregation := by
  intro r hr
  rw [nextAggregation_register]
  rcases mem_register hr with hr | rfl
  · have := hlt r hr
    omega
  · exact Int.lt_succ _

/-- A number that registering gives out is no row's yet. -/
theorem id_ne_register (hlt : ∀ r ∈ s.aggregations, r.id < s.nextAggregation)
    (hne : s.aggregations.Pairwise fun a b => a.id ≠ b.id) (target : Int) :
    (s.register target).2.aggregations.Pairwise fun a b => a.id ≠ b.id := by
  rw [aggregations_register]
  split
  · refine List.pairwise_append.2 ⟨hne, List.pairwise_singleton _ _, ?_⟩
    intro a ha b hb
    obtain rfl : b = _ := List.mem_singleton.1 hb
    exact Int.ne_of_lt (hlt a ha)
  · exact hne

theorem Numbered.register (hs : s.Numbered) (target : Int) : (s.register target).2.Numbered := by
  refine ⟨id_lt_register hs.aggregation_lt target,
    id_ne_register hs.aggregation_lt hs.aggregation_ne target, ?_, ?_⟩
  · rw [events_register, nextEvent_register]
    exact hs.event_lt
  · rw [events_register]
    exact hs.event_ne

theorem Numbered.saveAggregation (hs : s.Numbered) (a : Aggregation) :
    (s.saveAggregation a).2.Numbered := by
  rw [Store.saveAggregation]
  split
  · exact hs.changeAggregation a.id fun r => rfl
  · exact hs

theorem Numbered.markRun (hs : s.Numbered) (id : Int) (m : Mode) (t : Instant) :
    (s.markRun id m t).2.Numbered := by
  rw [Store.markRun]
  split
  · exact hs.changeAggregation id fun r => rfl
  · exact hs

theorem Numbered.setEnabled (hs : s.Numbered) (id : Int) (enabled : Bool) :
    (s.setEnabled id enabled).Numbered := hs.changeAggregation id fun _ => rfl

theorem Numbered.addEvent (hs : s.Numbered) (target value : Int) (t : Instant) :
    (s.addEvent target value t).2.Numbered := by
  refine ⟨hs.aggregation_lt, hs.aggregation_ne, ?_, ?_⟩
  · intro r hr
    change r.id < s.nextEvent + 1
    rcases List.mem_append.1 hr with hr | hr
    · have := hs.event_lt r hr
      omega
    · obtain rfl : r = _ := List.mem_singleton.1 hr
      exact Int.lt_succ _
  · refine List.pairwise_append.2 ⟨hs.event_ne, List.pairwise_singleton _ _, ?_⟩
    intro a ha b hb
    obtain rfl : b = _ := List.mem_singleton.1 hb
    exact Int.ne_of_lt (hs.event_lt a ha)

end Store

end Leasehold
