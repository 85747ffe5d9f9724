import Leasehold.Store.Basic

/-!
# Events in the store

* `Leasehold.Store.addEvent` – adds an event to a target;
* `Leasehold.Store.eventsAfter` – the next page of a target's events after a cursor, in cursor
  order.

Reading goes on from the cursor of the last event of a page, and every event after that cursor is
one after the earlier cursor, too. So each page leaves fewer events to read
(`Leasehold.Store.remaining_lt`), and reading comes to an end.
-/

namespace Leasehold.Store

/-- The event of a row. -/
def EventRow.read (r : EventRow) : Except Fault Event :=
  (instant r.millis).map fun t => ⟨r.id, r.target, t, r.value⟩

/-- **Adds an event** to a target, and gives it with the time as it was stored. -/
def addEvent (s : Store) (target value : Int) (t : Instant) : Event × Store :=
  let row : EventRow := ⟨s.nextEvent, target, t.millis, value⟩
  (⟨row.id, target, t.floor, value⟩,
    { s with events := s.events ++ [row], nextEvent := s.nextEvent + 1 })

/-! ### The order of events -/

/-- Whether a row comes after a cursor, if there is one. -/
def EventRow.isAfter (cursor : Option Cursor) (r : EventRow) : Bool :=
  match cursor with
  | none => true
  | some c => c.time.millis < r.millis || (r.millis = c.time.millis && c.event < r.id)

/-- Whether a row comes no later than another one. -/
def EventRow.noLater (a b : EventRow) : Bool :=
  a.millis < b.millis || (a.millis = b.millis && a.id ≤ b.id)

/-- The rows of a target after a cursor. -/
def rowsAfter (s : Store) (target : Int) (cursor : Option Cursor) : List EventRow :=
  s.events.filter fun r => r.target = target && r.isAfter cursor

/-- **The next page of a target's events** after a cursor, in cursor order. -/
def eventsAfter (s : Store) (target : Int) (cursor : Option Cursor) (limit : Nat) :
    Except Fault (List Event) :=
  (limited limit ((s.rowsAfter target cursor).mergeSort EventRow.noLater)).mapM EventRow.read

/-! ### Reading comes to an end -/

/-- How many events of a target come after a cursor. -/
def remaining (s : Store) (target : Int) (cursor : Option Cursor) : Nat :=
  (s.rowsAfter target cursor).length

theorem mem_of_mapM_ok {α β ε : Type} {f : α → Except ε β} {as : List α} {bs : List β}
    (h : as.mapM f = .ok bs) {b : β} (hb : b ∈ bs) : ∃ a ∈ as, f a = .ok b := by
  induction as generalizing bs with
  | nil =>
    cases h
    cases hb
  | cons a as ih =>
    rw [List.mapM_cons] at h
    cases ha : f a with
    | error e =>
      rw [ha] at h
      cases h
    | ok c =>
      rw [ha] at h
      cases has : as.mapM f with
      | error e =>
        rw [has] at h
        cases h
      | ok cs =>
        rw [has] at h
        cases h
        cases hb with
        | head => exact ⟨a, List.mem_cons_self, ha⟩
        | tail _ hb =>
          obtain ⟨x, hx, hfx⟩ := ih has hb
          exact ⟨x, List.mem_cons_of_mem _ hx, hfx⟩

theorem isAfter_trans {r t : EventRow} {e : Event} {cursor : Option Cursor} (he : t.read = .ok e)
    (ht : t.isAfter cursor = true) (hr : r.isAfter (some e.cursor) = true) :
    r.isAfter cursor = true := by
  have hm : e.time.millis = t.millis ∧ e.id = t.id := by
    unfold EventRow.read instant at he
    split at he
    · rename_i x hx
      cases he
      exact ⟨Instant.millis_ofMillis? hx, rfl⟩
    · cases he
  cases cursor with
  | none => rfl
  | some c =>
    simp only [EventRow.isAfter, Event.cursor, hm.1, hm.2, Bool.or_eq_true, Bool.and_eq_true,
      decide_eq_true_eq] at *
    omega

/-- The events after one of a page are fewer than those after the cursor the page starts from. -/
theorem remaining_lt {s : Store} {target : Int} {cursor : Option Cursor} {limit : Nat}
    {es : List Event} (h : s.eventsAfter target cursor limit = .ok es) {e : Event} (he : e ∈ es) :
    s.remaining target (some e.cursor) < s.remaining target cursor := by
  obtain ⟨t, ht, hread⟩ := mem_of_mapM_ok h he
  have ht := List.mem_mergeSort.1 ((limited_sublist _ _).subset ht)
  obtain ⟨htm, htp⟩ := List.mem_filter.1 ht
  simp only [Bool.and_eq_true, decide_eq_true_eq] at htp
  have hself : t.isAfter (some e.cursor) = false := by
    unfold EventRow.read instant at hread
    split at hread
    · rename_i x hx
      cases hread
      have := Instant.millis_ofMillis? hx
      simp [EventRow.isAfter, Event.cursor, this]
    · cases hread
  have heq : s.rowsAfter target (some e.cursor) =
      (s.rowsAfter target cursor).filter fun r => r.isAfter (some e.cursor) := by
    unfold rowsAfter
    rw [List.filter_filter]
    refine List.filter_congr fun r _ => ?_
    by_cases hr : r.isAfter (some e.cursor) = true
    · simp [hr, isAfter_trans hread htp.2 hr]
    · simp [Bool.eq_false_iff.2 hr]
  unfold remaining
  rw [heq]
  refine List.length_filter_lt_length_iff_exists.2 ⟨t, ht, ?_⟩
  simp [hself]

end Leasehold.Store
