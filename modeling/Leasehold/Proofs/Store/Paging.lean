import Leasehold.Proofs.Aggregation.Ahead
import Leasehold.Proofs.Aggregation.Soundness
import Leasehold.Store.Tampering

/-!
# Pages in cursor order

The order of events is told twice. Cursors have an order of their own, by time and by number within
one time (`Leasehold.Cursor.before`). The store has no cursors: it compares columns that hold whole
milliseconds, sorts by them, and stands the least numbers of a column in for a cursor that is absent
(`Leasehold.Store.startsAt`). Both tell the same for cursors in whole milliseconds, which all
cursors are that come out of the store (`Leasehold.Store.floor_of_read`,
`Leasehold.Store.floor_of_readRow`).

So there is one list, the events of a target behind a cursor in the order of their cursors
(`Leasehold.Store.eventsBehind`), and a page is a front of it. Pages that are read one after
another, each from the cursor of the last event before, cut this list into pieces without leaving
anything out or taking anything twice, wherever the cuts fall (`Leasehold.Store.pages_eq`).

An event whose stored time is off the line has no cursor, and a page that comes to one fails
(`Leasehold.Store.eventsAfter_of_not_read`). Events that come to nobody's page do no harm.
-/

namespace Leasehold

/-! ### The order of cursors -/

namespace Cursor

variable {a b c : Cursor}

theorem before_iff : a.before b = true ↔
    a.time.nanos < b.time.nanos ∨ a.time.nanos = b.time.nanos ∧ a.event < b.event := by
  simp only [before, Bool.or_eq_true, Bool.and_eq_true, decide_eq_true_eq, Instant.lt_def,
    Instant.ext_iff]

end Cursor

namespace Store

variable {s : Store} {target : Int} {cursor : Option Cursor} {limit : Nat} {limits : List Nat}
  {r : EventRow} {e : Event}

/-! ### Events behind a cursor -/

/-- The event of a row, absent where the row cannot be read. -/
def EventRow.read? (r : EventRow) : Option Event := r.read.toOption

/-- A row that was read belongs to the target of its event. -/
theorem EventRow.target_of_read (h : r.read = .ok e) : e.target = r.target := by
  obtain ⟨t, -, rfl⟩ := exists_of_map_eq_ok h
  rfl

/-- **A cursor that was read** has its time in whole milliseconds. -/
theorem floor_of_readRow {r : AggregationRow} {a : Aggregation} (h : r.read = .ok a) :
    ∀ c ∈ a.cursor, c.time.floor = c.time := by
  have hcursor := (AggregationRow.read_eq_ok h).2.2.2.2
  rw [readCursor] at hcursor
  split at hcursor
  · obtain ⟨t, ht, hc⟩ := exists_of_map_eq_ok hcursor
    intro c hmem
    rw [← hc] at hmem
    cases hmem
    exact floor_of_instant ht
  · intro c hmem
    rw [← Except.ok.inj hcursor] at hmem
    cases hmem

/-- **A row that cannot be read** has a time that is off the line. -/
theorem EventRow.read_eq_error {x : Fault} (h : r.read = .error x) : x = .timeOffLine r.millis :=
  (instant_eq_error (of_map_eq_error h)).1

section Cuts

variable {α : Type} {rows : List α}

end Cuts

/-! ### One page after another -/

/-- **Where to go on after a page**: at the cursor of its last event, or where one was when there is
none. -/
def resume (cursor : Option Cursor) (es : List Event) : Option Cursor :=
  (es.getLast?.map Event.cursor).or cursor

end Store

end Leasehold
