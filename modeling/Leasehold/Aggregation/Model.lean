import Leasehold.Json.Tree
import Leasehold.Time.Timestamp

/-!
# Aggregations and their events

An aggregation folds the events of one target into a total. It reads them in the order of their
**cursors** – by time, and by number within one time – and remembers the cursor of the last event
folded, so that it can go on from there.

* `Leasehold.Mode` – going on from the cursor, or folding everything anew;
* `Leasehold.PerMode` – something that each mode has one of;
* `Leasehold.Cursor` – the place of an event, with its order;
* `Leasehold.Event` – an event of a target;
* `Leasehold.RunStats` – what the last ten runs took;
* `Leasehold.Aggregation` – the state of an aggregation.

Total and number of events are integers of 64 bits in a row. They are added up here without bounds,
which is the same as long as no sum leaves the 64 bits.
-/

namespace Leasehold

/-! ### Modes -/

/-- **How an aggregation runs.** -/
inductive Mode where
  /-- It goes on from the saved cursor. -/
  | incremental
  /-- It forgets totals and cursor and folds every event again. -/
  | full
deriving DecidableEq

namespace Mode

instance : Inhabited Mode := ⟨incremental⟩

/-- The name of a mode. -/
def name : Mode → String
  | incremental => "incremental"
  | full => "full"

/-- The mode of a name. -/
def ofName? (s : String) : Option Mode :=
  if s = "incremental" then some incremental else if s = "full" then some full else none

/-- What is wrong with a name that no mode has. -/
def invalidName (s : String) : String := "Invalid aggregation mode: " ++ s

theorem ofName?_name (m : Mode) : ofName? m.name = some m := by
  cases m <;> rfl

end Mode

/-- **Something that each mode has one of.** -/
structure PerMode (α : Type) where
  /-- That of the incremental mode. -/
  incremental : α
  /-- That of the full mode. -/
  full : α
deriving DecidableEq, BEq

namespace PerMode

variable {α β : Type}

/-- That of a mode. -/
def get (p : PerMode α) : Mode → α
  | .incremental => p.incremental
  | .full => p.full

/-- The same with another one for a mode. -/
def set (p : PerMode α) (m : Mode) (a : α) : PerMode α :=
  match m with
  | .incremental => { p with incremental := a }
  | .full => { p with full := a }

/-- The same for both modes. -/
def both (a : α) : PerMode α := ⟨a, a⟩

@[simp]
theorem get_set_self (p : PerMode α) (m : Mode) (a : α) : (p.set m a).get m = a := by
  cases m <;> rfl

theorem get_set_of_ne (p : PerMode α) {m n : Mode} (h : n ≠ m) (a : α) :
    (p.set m a).get n = p.get n := by
  cases m <;> cases n <;> first | rfl | exact absurd rfl h

end PerMode

/-! ### Cursors and events -/

/-- **The place of an event** among the events of its target. -/
structure Cursor where
  /-- The time of the event. -/
  time : Instant
  /-- The number of the event. -/
  event : Int
deriving DecidableEq

namespace Cursor

/-- A cursor comes before another one by its time, and by its number within one time. -/
def before (a b : Cursor) : Bool := a.time < b.time || (a.time = b.time && a.event < b.event)

/-- Which of two cursors comes first. -/
def compare (a b : Cursor) : Ordering :=
  if a.before b then .lt else if b.before a then .gt else .eq

/-- The stored form of a cursor. -/
def toJson (c : Cursor) : Json.Value :=
  .object [("updated_at", .text c.time.timestamp), ("event_id", .integer c.event)]

/-- Cursors in their order. -/
def sort (cs : List Cursor) : List Cursor := cs.mergeSort fun a b => !b.before a

/-- The last of some cursors. -/
def last? (cs : List Cursor) : Option Cursor := (sort cs).getLast?

end Cursor

/-- **An event**: a value that a target got at some time. -/
structure Event where
  /-- The number of the event. -/
  id : Int
  /-- The target it belongs to. -/
  target : Int
  /-- When it happened. -/
  time : Instant
  /-- What it adds to the total. -/
  value : Int
deriving DecidableEq

/-- The place of an event. -/
def Event.cursor (e : Event) : Cursor := ⟨e.time, e.id⟩

/-! ### Statistics -/

/-- **What the last runs took**: the time of each in seconds, and how many events it folded. -/
structure RunStats where
  /-- The runtimes, the latest last. -/
  runtimes : List Float := []
  /-- The numbers of events, the latest last. -/
  records : List Int := []
deriving BEq

namespace RunStats

instance : Inhabited RunStats := ⟨{}⟩

/-- How many runs are remembered. -/
def window : Nat := 10

/-- The last values of a list that fit the window. -/
def recent {α : Type} (xs : List α) : List α := xs.drop (xs.length - window)

/-- **Remembers a run**; the oldest is forgotten once the window is full. -/
def record (s : RunStats) (runtime : Span) (processed : Int) : RunStats :=
  ⟨recent (s.runtimes ++ [runtime.toSeconds]), recent (s.records ++ [processed])⟩

/-- The mean runtime, absent without runs. The sum starts from minus zero, which adding any
number leaves as it is. -/
def averageRuntime? (s : RunStats) : Option Float :=
  if s.runtimes.isEmpty then none
  else some (s.runtimes.foldl (· + ·) (-0.0) / (UInt64.ofNat s.runtimes.length).toFloat)

/-- How many events the remembered runs folded in all. -/
def totalProcessed (s : RunStats) : Int := s.records.foldl (· + ·) 0

/-- The stored form of statistics. -/
def toJson (s : RunStats) : Json.Value :=
  .object [("runtimes_in_seconds", .array (s.runtimes.map .decimal)),
    ("processed_records", .array (s.records.map .integer))]

/-- Statistics from their stored form. -/
def ofJson? (t : Json.Tree) : Option RunStats := do
  match ← t.fields? ["runtimes_in_seconds", "processed_records"] with
  | [some runtimes, some records] => do
    let runtimes ← runtimes.list? Json.Tree.float?
    let records ← records.list? Json.Tree.integer64?
    some ⟨runtimes, records⟩
  | _ => none

/-- Statistics from the text of their stored form. -/
def ofText? (s : String) : Option RunStats := do
  let t ← Json.Tree.ofText? s
  ofJson? t

end RunStats

/-! ### Aggregations -/

/-- **The state of an aggregation.** -/
structure Aggregation where
  /-- The number of the aggregation. -/
  id : Int
  /-- The target whose events it folds. -/
  target : Int
  /-- Whether it runs at all. -/
  enabled : Bool
  /-- When it last ran in each mode. -/
  lastRun : PerMode (Option Instant)
  /-- The place of the last event folded. -/
  cursor : Option Cursor
  /-- The sum of the values folded. -/
  total : Int
  /-- How many events were folded. -/
  processed : Int
  /-- What the last runs of each mode took. -/
  stats : PerMode RunStats
deriving BEq

namespace Aggregation

/-- Totals and cursor as before the first event. -/
def reset (a : Aggregation) : Aggregation := { a with cursor := none, total := 0, processed := 0 }

/-- Folds one event. -/
def fold (a : Aggregation) (e : Event) : Aggregation :=
  { a with total := a.total + e.value, processed := a.processed + 1, cursor := some e.cursor }

/-- **Folds events** one after another. -/
def foldAll (a : Aggregation) (es : List Event) : Aggregation := es.foldl fold a

/-- Notes when it ran in a mode. -/
def markRun (a : Aggregation) (m : Mode) (t : Instant) : Aggregation :=
  { a with lastRun := a.lastRun.set m (some t) }

/-- Remembers what a run of a mode took. -/
def recordRun (a : Aggregation) (m : Mode) (runtime : Span) (processed : Int) : Aggregation :=
  { a with stats := a.stats.set m ((a.stats.get m).record runtime processed) }

end Aggregation

end Leasehold
