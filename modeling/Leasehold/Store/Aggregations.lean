import Leasehold.Store.Basic

/-!
# Aggregations in the store

* `Leasehold.Store.register` – registers a target, once;
* `Leasehold.Store.aggregation?`, `Leasehold.Store.aggregationOfTarget?`,
  `Leasehold.Store.allAggregations` – look aggregations up;
* `Leasehold.Store.dueBatch` – the aggregations that are due in a mode, those that never ran
  first, then those that have waited longest;
* `Leasehold.Store.saveAggregation` – writes all of an aggregation but its number and target;
* `Leasehold.Store.markRun` – writes only when it last ran in a mode;
* `Leasehold.Store.setEnabled` – writes only whether it runs.

An aggregation is **due** when it is enabled and did not run in the mode since some cutoff. What
is written about one aggregation changes nothing about the others, in particular not which of
them are due (`Leasehold.Store.due_saveAggregation`, `Leasehold.Store.due_markRun`).
-/

namespace Leasehold.Store

/-! ### Reading rows -/

/-- A floating-point number as its text reads back. -/
def reread? (x : Float) : Option Float := do
  let text ← Shortest.render? x
  let n ← Json.Numeral.ofText? text.toList
  n.float?

/-- The statistics of a row. Blanks and an empty object stand for no runs. -/
def StatsText.read? : StatsText → Option RunStats
  | written s => (s.runtimes.mapM reread?).map fun runtimes => ⟨runtimes, s.records⟩
  | foreign text =>
    let trimmed := Text.trim text.toList
    if trimmed = [] ∨ trimmed = ['\x7b', '\x7d'] then some {} else RunStats.ofText? text

/-- The statistics of a mode in a row. -/
def readStats (m : Mode) (stats : PerMode StatsText) : Except Fault RunStats :=
  match (stats.get m).read? with
  | some s => .ok s
  | none => .error (.statsUnreadable m)

/-- The cursor of a row, absent unless both its parts are there. -/
def readCursor (r : AggregationRow) : Except Fault (Option Cursor) :=
  match r.cursorTime, r.cursorEvent with
  | some ms, some event => (instant ms).map fun t => some ⟨t, event⟩
  | _, _ => .ok none

/-- **The aggregation of a row.** -/
def AggregationRow.read (r : AggregationRow) : Except Fault Aggregation := do
  let cursor ← readCursor r
  let incrementalRun ← instant? r.lastRun.incremental
  let fullRun ← instant? r.lastRun.full
  let incrementalStats ← readStats .incremental r.stats
  let fullStats ← readStats .full r.stats
  .ok {
    id := r.id
    target := r.target
    enabled := r.enabled
    lastRun := ⟨incrementalRun, fullRun⟩
    cursor
    total := r.total
    processed := r.processed
    stats := ⟨incrementalStats, fullStats⟩ }

/-! ### Looking aggregations up -/

/-- The first row with some property, read. -/
def findAggregation? (s : Store) (p : AggregationRow → Bool) :
    Except Fault (Option Aggregation) :=
  match s.aggregations.find? p with
  | none => .ok none
  | some r => r.read.map some

/-- The aggregation of a number. -/
def aggregation? (s : Store) (id : Int) : Except Fault (Option Aggregation) :=
  s.findAggregation? (·.id = id)

/-- The aggregation of a target. -/
def aggregationOfTarget? (s : Store) (target : Int) : Except Fault (Option Aggregation) :=
  s.findAggregation? (·.target = target)

/-- All aggregations, by number. -/
def allAggregations (s : Store) : Except Fault (List Aggregation) :=
  s.aggregations.mapM AggregationRow.read

/-- **Registers a target.** A target that is registered keeps its aggregation, but a number is
used up all the same. -/
def register (s : Store) (target : Int) : Except Fault Aggregation × Store :=
  let isNew := s.aggregations.all fun r => r.target ≠ target
  let row : AggregationRow := { id := s.nextAggregation, target }
  let s := { s with
    aggregations := if isNew then s.aggregations ++ [row] else s.aggregations
    nextAggregation := s.nextAggregation + 1 }
  match s.aggregationOfTarget? target with
  | .ok (some a) => (.ok a, s)
  | .ok none => (.error .aggregationLost, s)
  | .error e => (.error e, s)

/-! ### What is due -/

/-- **Whether a row is due**: it is enabled, and did not run in the mode since the cutoff. -/
def AggregationRow.isDue (m : Mode) (cutoff : Int) (r : AggregationRow) : Bool :=
  r.enabled &&
    match r.lastRun.get m with
    | none => true
    | some ms => ms < cutoff

/-- The rows that are due, by number. -/
def due (s : Store) (m : Mode) (cutoff : Int) : List AggregationRow :=
  s.aggregations.filter (AggregationRow.isDue m cutoff)

/-- Whether a row comes no later than another one: those that never ran come first, then those
that ran longest ago, and by number among equals. -/
def AggregationRow.noLater (m : Mode) (a b : AggregationRow) : Bool :=
  match a.lastRun.get m, b.lastRun.get m with
  | none, none => a.id ≤ b.id
  | none, some _ => true
  | some _, none => false
  | some x, some y => x < y || (x = y && a.id ≤ b.id)

/-- The rows that are due, in the order of their turns. -/
def dueInOrder (s : Store) (m : Mode) (cutoff : Int) : List AggregationRow :=
  (s.due m cutoff).mergeSort (AggregationRow.noLater m)

/-- **The next batch**: the first aggregations that are due. -/
def dueBatch (s : Store) (m : Mode) (cutoff : Instant) (limit : Nat) :
    Except Fault (List Aggregation) :=
  (limited limit (s.dueInOrder m cutoff.millis)).mapM AggregationRow.read

/-! ### Writing -/

/-- Changes the rows of a number. -/
def changeAggregation (s : Store) (id : Int) (f : AggregationRow → AggregationRow) : Store :=
  { s with aggregations := s.aggregations.map fun r => if r.id = id then f r else r }

/-- Whether there is an aggregation of that number. -/
def hasAggregation (s : Store) (id : Int) : Bool := s.aggregations.any (·.id = id)

/-- Writes an aggregation into its row. -/
def AggregationRow.write (a : Aggregation) (r : AggregationRow) : AggregationRow :=
  { r with
    enabled := a.enabled
    lastRun := ⟨a.lastRun.incremental.map Instant.millis, a.lastRun.full.map Instant.millis⟩
    cursorTime := a.cursor.map fun c => c.time.millis
    cursorEvent := a.cursor.map Cursor.event
    total := a.total
    processed := a.processed
    stats := ⟨.written a.stats.incremental, .written a.stats.full⟩ }

/-- **Writes an aggregation**, all of it but its number and target. -/
def saveAggregation (s : Store) (a : Aggregation) : Except Fault Unit × Store :=
  if s.hasAggregation a.id then (.ok (), s.changeAggregation a.id (AggregationRow.write a))
  else (.error (.noAggregation a.id), s)

/-- **Writes when an aggregation last ran** in a mode, and nothing else. -/
def markRun (s : Store) (id : Int) (m : Mode) (t : Instant) : Except Fault Unit × Store :=
  if s.hasAggregation id then
    (.ok (), s.changeAggregation id fun r =>
      { r with lastRun := r.lastRun.set m (some t.millis) })
  else (.error (.noAggregation id), s)

/-- **Writes whether an aggregation runs**, and nothing else. -/
def setEnabled (s : Store) (id : Int) (enabled : Bool) : Store :=
  s.changeAggregation id fun r => { r with enabled }

/-! ### What writing does to the rows that are due -/

/-- The rows that are due, but for those of one number. -/
def dueElsewhere (s : Store) (m : Mode) (cutoff id : Int) : List AggregationRow :=
  (s.due m cutoff).filter (·.id ≠ id)

theorem dueElsewhere_changeAggregation (s : Store) (m : Mode) (cutoff id : Int)
    {f : AggregationRow → AggregationRow} (hf : ∀ r, (f r).id = r.id) :
    (s.changeAggregation id f).dueElsewhere m cutoff id = s.dueElsewhere m cutoff id := by
  unfold dueElsewhere due changeAggregation
  simp only [List.filter_filter]
  induction s.aggregations with
  | nil => rfl
  | cons r rs ih =>
    rw [List.map_cons, List.filter_cons, List.filter_cons, ih]
    by_cases h : r.id = id
    · simp [h, hf]
    · simp [h]

theorem due_changeAggregation (s : Store) (m : Mode) (cutoff id : Int)
    {f : AggregationRow → AggregationRow} (hf : ∀ r, (f r).id = r.id)
    (hd : ∀ r, (f r).isDue m cutoff = false) :
    (s.changeAggregation id f).due m cutoff = s.dueElsewhere m cutoff id := by
  rw [← dueElsewhere_changeAggregation s m cutoff id hf]
  unfold dueElsewhere due changeAggregation
  simp only [List.filter_filter]
  induction s.aggregations with
  | nil => rfl
  | cons r rs ih =>
    rw [List.map_cons, List.filter_cons, List.filter_cons, ih]
    by_cases h : r.id = id
    · simp [h, hd]
    · simp [h]

theorem isDue_of_le_lastRun {m : Mode} {cutoff ms : Int} {r : AggregationRow}
    (h : r.lastRun.get m = some ms) (hle : cutoff ≤ ms) : r.isDue m cutoff = false := by
  unfold AggregationRow.isDue
  simp only [h]
  simp [Int.not_lt.2 hle]

theorem lastRun_write (a : Aggregation) (r : AggregationRow) (m : Mode) :
    (AggregationRow.write a r).lastRun.get m = (a.lastRun.get m).map Instant.millis := by
  cases m <;> rfl

/-- Writing an aggregation that ran since the cutoff leaves due what else was due. -/
theorem due_saveAggregation {s : Store} {a : Aggregation} {m : Mode} {cutoff t : Instant}
    (ht : a.lastRun.get m = some t) (hle : cutoff ≤ t) (h : (s.saveAggregation a).1 = .ok ()) :
    (s.saveAggregation a).2.due m cutoff.millis = s.dueElsewhere m cutoff.millis a.id := by
  unfold saveAggregation at h ⊢
  split
  · refine due_changeAggregation s m _ _ (fun r => rfl) fun r => ?_
    refine @isDue_of_le_lastRun _ _ t.millis _ ?_ (Instant.millis_le_millis hle)
    rw [lastRun_write, ht]
    rfl
  · rename_i hn
    rw [if_neg hn] at h
    exact absurd h (by simp)

/-- Marking a run since the cutoff leaves due what else was due. -/
theorem due_markRun {s : Store} {id : Int} {m : Mode} {cutoff t : Instant} (hle : cutoff ≤ t)
    (h : (s.markRun id m t).1 = .ok ()) :
    (s.markRun id m t).2.due m cutoff.millis = s.dueElsewhere m cutoff.millis id := by
  unfold markRun at h ⊢
  split
  · refine due_changeAggregation s m _ _ (fun r => rfl) fun r => ?_
    exact isDue_of_le_lastRun (PerMode.get_set_self _ _ _) (Instant.millis_le_millis hle)
  · rename_i hn
    rw [if_neg hn] at h
    exact absurd h (by simp)

/-- Writing an aggregation changes nothing about which others are due. -/
theorem dueElsewhere_saveAggregation (s : Store) (a : Aggregation) (m : Mode) (cutoff : Int) :
    (s.saveAggregation a).2.dueElsewhere m cutoff a.id = s.dueElsewhere m cutoff a.id := by
  unfold saveAggregation
  split
  · exact dueElsewhere_changeAggregation s m cutoff a.id fun r => rfl
  · rfl

theorem events_saveAggregation (s : Store) (a : Aggregation) :
    (s.saveAggregation a).2.events = s.events := by
  unfold saveAggregation
  split <;> rfl

end Leasehold.Store
