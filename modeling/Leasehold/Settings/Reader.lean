import Leasehold.Settings.Model
import Leasehold.Toml.Document

/-!
# Reading settings

Settings are read from a TOML text. A section is a table with a member for each setting; a
setting that is missing has its default, and members that are no settings do not count. A section
may also be a list of its settings in order, and a bare time stands for a section without any.

* `Leasehold.Settings.ofText?` – the settings of a text;
* `Leasehold.Fields` – what a section is read from;
* `Leasehold.LeaseSettings.read?` and its like – one section each.
-/

namespace Leasehold

open Toml (Value Members)

/-! ### Values of settings -/

/-- An integer of 64 bits without sign. -/
def readWord64? : Value → Option UInt64
  | .integer n => if 0 ≤ n ∧ n < 18446744073709551616 then some (.ofNat n.toNat) else none
  | _ => none

/-- An integer of 32 bits without sign. -/
def readWord32? : Value → Option UInt32
  | .integer n => if 0 ≤ n ∧ n < 4294967296 then some (.ofNat n.toNat) else none
  | _ => none

/-- A string. -/
def readText? : Value → Option String
  | .text s => some s
  | _ => none

/-- A list of strings. -/
def readTexts? : Value → Option (List String)
  | .array items => items.mapM readText?
  | .series [] => some []
  | _ => none

/-- A value that carries nothing. -/
def isEmptyValue : Value → Bool
  | .array [] => true
  | .table _ [] => true
  | _ => false

/-- One of some names: a string, or a table whose only member has that name and carries
nothing. -/
def readName? {α : Type} (ofName? : String → Option α) : Value → Option α
  | .text s => ofName? s
  | .table _ [(s, v)] => if isEmptyValue v then ofName? s else none
  | _ => none

/-! ### Sections -/

/-- **What a section is read from**: the value of a setting by its name and its place. -/
inductive Fields where
  /-- A table with members. -/
  | byName (ms : Members)
  /-- A list of values. -/
  | byPlace (items : List Value)

/-- What a section is read from; a section that is missing, or a bare time, has no members. -/
def Fields.ofValue? : Option Value → Option Fields
  | none => some (.byName [])
  | some (.table _ ms) => some (.byName ms)
  | some (.array items) => some (.byPlace items)
  | some (.series tables) => some (.byPlace (tables.reverse.map (.table .defined)))
  | some .time => some (.byName [])
  | some _ => none

/-- The value of a setting. -/
def Fields.find? (fs : Fields) (name : String) (place : Nat) : Option Value :=
  match fs with
  | byName ms => ms.find? name
  | byPlace items => items[place]?

/-- **A setting**, or its default when it is missing. -/
def Fields.read? {α : Type} (fs : Fields) (name : String) (place : Nat) (f : Value → Option α)
    (default : α) : Option α :=
  match fs.find? name place with
  | none => some default
  | some v => f v

/-- The section of leases. -/
def LeaseSettings.read? (fs : Fields) : Option LeaseSettings := do
  let d : LeaseSettings := {}
  let backend ← fs.read? "backend" 0 (readName? BackendKind.ofName?) d.backend
  let ttlSecs ← fs.read? "ttl_secs" 1 readWord64? d.ttlSecs
  let sleepMs ← fs.read? "sleep_ms" 2 readWord64? d.sleepMs
  let retries ← fs.read? "retries" 3 readWord32? d.retries
  some { backend, ttlSecs, sleepMs, retries }

/-- The section of aggregations. -/
def AggregationSettings.read? (fs : Fields) : Option AggregationSettings := do
  let d : AggregationSettings := {}
  let maxRuntimeSecs ← fs.read? "max_runtime_secs" 0 readWord64? d.maxRuntimeSecs
  let batchSize ← fs.read? "batch_size" 1 readWord64? d.batchSize
  let stepPageSize ← fs.read? "step_page_size" 2 readWord64? d.stepPageSize
  let mode ← fs.read? "mode" 3 (readName? Mode.ofName?) d.mode
  some { maxRuntimeSecs, batchSize, stepPageSize, mode }

/-- The section of web hooks. -/
def HookSettings.read? (fs : Fields) : Option HookSettings := do
  let d : HookSettings := {}
  let lockTtlSecs ← fs.read? "lock_ttl_secs" 0 readWord64? d.lockTtlSecs
  let lockSleepMs ← fs.read? "lock_sleep_ms" 1 readWord64? d.lockSleepMs
  let lockRetries ← fs.read? "lock_retries" 2 readWord32? d.lockRetries
  let deliveryTimeoutSecs ← fs.read? "delivery_timeout_secs" 3 readWord64? d.deliveryTimeoutSecs
  some { lockTtlSecs, lockSleepMs, lockRetries, deliveryTimeoutSecs }

/-- The section of counters. -/
def CounterSettings.read? (fs : Fields) : Option CounterSettings := do
  let d : CounterSettings := {}
  let quantities ← fs.read? "attributes" 0 readTexts? d.quantities
  let lockTtlSecs ← fs.read? "lock_ttl_secs" 1 readWord64? d.lockTtlSecs
  let lockRetries ← fs.read? "lock_retries" 2 readWord32? d.lockRetries
  some { quantities, lockTtlSecs, lockRetries }

/-- The section of log lines. -/
def LoggingSettings.read? (fs : Fields) : Option LoggingSettings := do
  let d : LoggingSettings := {}
  let level ← fs.read? "level" 0 readText? d.level
  let format ← fs.read? "format" 1 (readName? LogFormat.ofName?) d.format
  some { level, format }

/-! ### All settings -/

/-- One section. -/
def readSection? {α : Type} (ms : Members) (name : String) (f : Fields → Option α) : Option α := do
  let fs ← Fields.ofValue? (ms.find? name)
  f fs

/-- The settings in a table. -/
def Settings.read? (ms : Members) : Option Settings := do
  let lease ← readSection? ms "lease" LeaseSettings.read?
  let aggregation ← readSection? ms "aggregation" AggregationSettings.read?
  let hooks ← readSection? ms "hooks" HookSettings.read?
  let counters ← readSection? ms "counters" CounterSettings.read?
  let logging ← readSection? ms "logging" LoggingSettings.read?
  some { lease, aggregation, hooks, counters, logging }

/-- **The settings of a text**, absent when they cannot be read. -/
def Settings.ofText? (s : String) : Option Settings := do
  let ms ← Toml.Document.ofText? s
  Settings.read? ms

/-- What is said about settings that cannot be read. -/
def Settings.unreadable : String := "Failed to parse cronlease.toml"

end Leasehold
