import Leasehold.Store.Basic

/-!
# Writing columns from elsewhere

Other programs can write into the tables, past every check of this library. What they wrote is
noticed when it is read.

* `Leasehold.Store.overwriteStats` – any text as the statistics of a mode;
* `Leasehold.Store.overwriteTime` – any milliseconds as one of the stored times.

Both say how many rows they changed.
-/

namespace Leasehold.Store

/-- **The columns that hold times**, each with what it is found by. -/
inductive TimeColumn where
  /-- The last run of an aggregation in some mode. -/
  | lastRun (m : Mode)
  /-- The time of an aggregation's cursor. -/
  | cursor
  /-- The time of an event. -/
  | event
  /-- The time until which a web hook backs off. -/
  | disabledUntil
  /-- The last failure of a project. -/
  | lastFailure
deriving DecidableEq

/-- Changes the rows with some property, and counts them. -/
def overwrite {α : Type} (p : α → Bool) (f : α → α) (rows : List α) : Nat × List α :=
  ((rows.filter p).length, rows.map fun r => if p r then f r else r)

/-- **Writes any text as statistics.** -/
def overwriteStats (s : Store) (id : Int) (m : Mode) (text : String) : Nat × Store :=
  let (n, rows) := overwrite (fun r => r.id = id)
    (fun r => { r with stats := r.stats.set m (.foreign text) }) s.aggregations
  (n, { s with aggregations := rows })

/-- **Writes any milliseconds as a time.** -/
def overwriteTime (s : Store) (column : TimeColumn) (id ms : Int) : Nat × Store :=
  match column with
  | .lastRun m =>
    let (n, rows) := overwrite (fun r => r.id = id)
      (fun r => { r with lastRun := r.lastRun.set m (some ms) }) s.aggregations
    (n, { s with aggregations := rows })
  | .cursor =>
    let (n, rows) := overwrite (fun r => r.id = id)
      (fun r => { r with cursorTime := some ms }) s.aggregations
    (n, { s with aggregations := rows })
  | .event =>
    let (n, rows) := overwrite (fun r => r.id = id) (fun r => { r with millis := ms }) s.events
    (n, { s with events := rows })
  | .disabledUntil =>
    let (n, rows) := overwrite (fun r => r.id = id)
      (fun r => { r with disabledUntil := some ms }) s.hooks
    (n, { s with hooks := rows })
  | .lastFailure =>
    let (n, rows) := overwrite (fun r => r.project = id)
      (fun r => { r with millis := ms }) s.lastFailures
    (n, { s with lastFailures := rows })

end Leasehold.Store
