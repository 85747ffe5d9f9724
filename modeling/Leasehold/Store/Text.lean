import Leasehold.Store.Basic

/-!
# The text of a store

A store is written as one JSON text: an object with a list of rows for each table, and a row as a
list of its columns.

* `Leasehold.Store.toText` – the text of a store;
* `Leasehold.Store.ofText?` – the store of a text.

What is read back has the same rows. Only a sum out of range that is no finite number is lost, and
no sum of two integers of 64 bits is.
-/

namespace Leasehold.Store

open Json (Value Tree)

/-! ### Writing -/

/-- An integer that may be absent. -/
def integerOrNull (n : Option Int) : Value := .ofOption .integer n

/-- A cell. -/
def cellJson : Cell → Value
  | .integer n => .integer n
  | .real x => .decimal x

/-- The statistics of a row. -/
def statsJson : StatsText → Value
  | .written s => s.toJson
  | .foreign text => .text text

/-- A token. -/
def tokenJson : Token → Value
  | .issued serial => .integer serial
  | .named name => .text name

/-- The row of an aggregation. -/
def AggregationRow.toJson (r : AggregationRow) : Value :=
  .array [.integer r.id, .integer r.target, .bool r.enabled, integerOrNull r.lastRun.incremental,
    integerOrNull r.lastRun.full, integerOrNull r.cursorTime, integerOrNull r.cursorEvent,
    .integer r.total, .integer r.processed, statsJson r.stats.incremental, statsJson r.stats.full]

/-- The row of an event. -/
def EventRow.toJson (r : EventRow) : Value :=
  .array [.integer r.id, .integer r.target, .integer r.millis, .integer r.value]

/-- The row of a web hook. -/
def HookRow.toJson (r : HookRow) : Value :=
  .array [.integer r.id, .integer r.project, .text r.url, .integer r.recentFailures,
    .integer r.backoffCount, integerOrNull r.disabledUntil]

/-- A lease with its key. -/
def leaseJson (e : String × Hold Int) : Value :=
  .array [.text e.1, tokenJson e.2.token, .integer e.2.expiry]

/-- A store. -/
def toJson (s : Store) : Value :=
  .object [("aggregations", .array (s.aggregations.map AggregationRow.toJson)),
    ("nextAggregation", .integer s.nextAggregation),
    ("events", .array (s.events.map EventRow.toJson)),
    ("nextEvent", .integer s.nextEvent),
    ("hooks", .array (s.hooks.map HookRow.toJson)),
    ("nextHook", .integer s.nextHook),
    ("lastFailures",
      .array (s.lastFailures.map fun r => .array [.integer r.project, .integer r.millis])),
    ("counters",
      .array (s.counters.map fun r => .array [.text r.record, .text r.quantity, cellJson r.value])),
    ("buffers",
      .array (s.buffers.map fun r => .array [.text r.key, cellJson r.pending, cellJson r.flushed])),
    ("leases", .array (s.leases.map leaseJson))]

/-- **The text of a store.** -/
def toText (s : Store) : String := s.toJson.compact

/-! ### Reading -/

/-- A truth value. -/
def bool? : Tree → Option Bool
  | .bool b => some b
  | _ => none

/-- A cell from its stored form. -/
def cell? (t : Tree) : Option Cell :=
  match t.integer64? with
  | some n => some (.integer n)
  | none => t.float?.map .real

/-- The statistics of a row from their stored form. -/
def stats? (t : Tree) : Option StatsText :=
  match t.text? with
  | some text => some (.foreign text)
  | none => (RunStats.ofJson? t).map .written

/-- A token from its stored form. -/
def token? (t : Tree) : Option Token :=
  match t.text? with
  | some name => some (.named name)
  | none => t.integer64?.map fun n => .issued n.toNat

/-- The row of an aggregation from its stored form. -/
def aggregationRow? : Tree → Option AggregationRow
  | .array [id, target, enabled, incremental, full, time, event, total, processed, s, t] => do
    some {
      id := ← id.integer64?
      target := ← target.integer64?
      enabled := ← bool? enabled
      lastRun := ⟨← incremental.option? Tree.integer64?, ← full.option? Tree.integer64?⟩
      cursorTime := ← time.option? Tree.integer64?
      cursorEvent := ← event.option? Tree.integer64?
      total := ← total.integer64?
      processed := ← processed.integer64?
      stats := ⟨← stats? s, ← stats? t⟩ }
  | _ => none

/-- The row of an event from its stored form. -/
def eventRow? : Tree → Option EventRow
  | .array [id, target, millis, value] => do
    some ⟨← id.integer64?, ← target.integer64?, ← millis.integer64?, ← value.integer64?⟩
  | _ => none

/-- The row of a web hook from its stored form. -/
def hookRow? : Tree → Option HookRow
  | .array [id, project, url, failures, backoffs, deadline] => do
    some ⟨← id.integer64?, ← project.integer64?, ← url.text?, ← failures.integer64?,
      ← backoffs.integer64?, ← deadline.option? Tree.integer64?⟩
  | _ => none

/-- The row of a last failure from its stored form. -/
def lastFailureRow? : Tree → Option LastFailureRow
  | .array [project, millis] => do some ⟨← project.integer64?, ← millis.integer64?⟩
  | _ => none

/-- The row of a counter from its stored form. -/
def counterRow? : Tree → Option CounterRow
  | .array [record, quantity, value] => do
    some ⟨← record.text?, ← quantity.text?, ← cell? value⟩
  | _ => none

/-- The row of a counter's buffers from its stored form. -/
def bufferRow? : Tree → Option BufferRow
  | .array [key, pending, flushed] => do some ⟨← key.text?, ← cell? pending, ← cell? flushed⟩
  | _ => none

/-- A lease with its key from its stored form. -/
def lease? : Tree → Option (String × Hold Int)
  | .array [key, token, expiry] => do
    some (← key.text?, ⟨← token? token, ← expiry.integer64?⟩)
  | _ => none

/-- A store from its stored form. -/
def ofJson? (t : Tree) : Option Store := do
  match ← t.fields? ["aggregations", "nextAggregation", "events", "nextEvent", "hooks", "nextHook",
      "lastFailures", "counters", "buffers", "leases"] with
  | [some aggregations, some nextAggregation, some events, some nextEvent, some hooks,
      some nextHook, some lastFailures, some counters, some buffers, some leases] => do
    some {
      aggregations := ← aggregations.list? aggregationRow?
      nextAggregation := ← nextAggregation.integer64?
      events := ← events.list? eventRow?
      nextEvent := ← nextEvent.integer64?
      hooks := ← hooks.list? hookRow?
      nextHook := ← nextHook.integer64?
      lastFailures := ← lastFailures.list? lastFailureRow?
      counters := ← counters.list? counterRow?
      buffers := ← buffers.list? bufferRow?
      leases := ← leases.list? lease? }
  | _ => none

/-- **The store of a text**, absent when it is no text of a store. -/
def ofText? (s : String) : Option Store := do
  let t ← Tree.ofText? s
  ofJson? t

end Leasehold.Store
