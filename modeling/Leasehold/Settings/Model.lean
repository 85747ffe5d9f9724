import Leasehold.Aggregation.Worker

/-!
# Settings

The settings of a project have five sections. Every setting has a default, so a project without
any settings is complete.

* `Leasehold.Settings` – all settings, with their defaults;
* `Leasehold.LeaseSettings.lockOptions`, `Leasehold.HookSettings.lockOptions`,
  `Leasehold.CounterSettings.lockOptions` – how leases are taken;
* `Leasehold.HookSettings.deliveryTimeout` – how long a delivery waits for an answer.
-/

namespace Leasehold

/-- **Where leases are kept.** -/
inductive BackendKind where
  /-- In the database, where other processes see them. -/
  | sqlite
  /-- In the memory of one process. -/
  | memory
deriving DecidableEq

namespace BackendKind

/-- The name of a kind. -/
def name : BackendKind → String
  | sqlite => "sqlite"
  | memory => "memory"

/-- The kind of a name. -/
def ofName? (s : String) : Option BackendKind :=
  if s = "sqlite" then some sqlite else if s = "memory" then some memory else none

theorem ofName?_name (k : BackendKind) : ofName? k.name = some k := by
  cases k <;> rfl

end BackendKind

/-- **The layout of log lines.** -/
inductive LogFormat where
  /-- For readers. -/
  | pretty
  /-- For programs. -/
  | json
deriving DecidableEq

namespace LogFormat

/-- The name of a layout. -/
def name : LogFormat → String
  | pretty => "pretty"
  | json => "json"

/-- The layout of a name. -/
def ofName? (s : String) : Option LogFormat :=
  if s = "pretty" then some pretty else if s = "json" then some json else none

theorem ofName?_name (f : LogFormat) : ofName? f.name = some f := by
  cases f <;> rfl

end LogFormat

/-! ### Sections -/

/-- **How leases are taken** where no other section says so. -/
structure LeaseSettings where
  /-- Where leases are kept. -/
  backend : BackendKind := .sqlite
  /-- For how many seconds a lease is taken. -/
  ttlSecs : UInt64 := 60
  /-- How many milliseconds to sleep before another attempt. -/
  sleepMs : UInt64 := 10
  /-- How many attempts may follow the first. -/
  retries : UInt32 := 10
deriving DecidableEq

/-- **How aggregations run.** -/
structure AggregationSettings where
  /-- How many seconds a run may take. -/
  maxRuntimeSecs : UInt64 := 250
  /-- How many aggregations a run takes at a time. -/
  batchSize : UInt64 := 100
  /-- How many events a step takes at a time. -/
  stepPageSize : UInt64 := 1000
  /-- The mode of runs that name none. -/
  mode : Mode := .incremental
deriving DecidableEq

/-- **How web hooks are told about events.** -/
structure HookSettings where
  /-- For how many seconds the lease of a hook is taken. -/
  lockTtlSecs : UInt64 := 15
  /-- How many milliseconds to sleep before another attempt. -/
  lockSleepMs : UInt64 := 250
  /-- How many attempts may follow the first. -/
  lockRetries : UInt32 := 65
  /-- How many seconds to wait for an answer. -/
  deliveryTimeoutSecs : UInt64 := 10
deriving DecidableEq

/-- **What is counted.** -/
structure CounterSettings where
  /-- The quantities that are counted. -/
  quantities : List String := ["build_artifacts_size", "packages_size", "storage_size"]
  /-- For how many seconds the lease of a counter is taken. -/
  lockTtlSecs : UInt64 := 600
  /-- How many attempts may follow the first. -/
  lockRetries : UInt32 := 10
deriving DecidableEq

/-- **What is logged, and how.** -/
structure LoggingSettings where
  /-- Which log lines are shown. -/
  level : String := "info"
  /-- The layout of log lines. -/
  format : LogFormat := .pretty
deriving DecidableEq

/-- **All settings.** -/
structure Settings where
  /-- How leases are taken. -/
  lease : LeaseSettings := {}
  /-- How aggregations run. -/
  aggregation : AggregationSettings := {}
  /-- How web hooks are told about events. -/
  hooks : HookSettings := {}
  /-- What is counted. -/
  counters : CounterSettings := {}
  /-- What is logged. -/
  logging : LoggingSettings := {}
deriving DecidableEq

/-! ### What they mean -/

/-- How a lease is taken. -/
def LeaseSettings.lockOptions (s : LeaseSettings) : LockOptions :=
  { ttl := .ofSeconds s.ttlSecs, sleep := .ofMillis s.sleepMs, retries := s.retries }

/-- How the lease of a hook is taken. -/
def HookSettings.lockOptions (s : HookSettings) : LockOptions :=
  { ttl := .ofSeconds s.lockTtlSecs, sleep := .ofMillis s.lockSleepMs, retries := s.lockRetries }

/-- How long a delivery waits for an answer. -/
def HookSettings.deliveryTimeout (s : HookSettings) : Span := .ofSeconds s.deliveryTimeoutSecs

/-- How the lease of a counter is taken. -/
def CounterSettings.lockOptions (s : CounterSettings) : LockOptions :=
  { ttl := .ofSeconds s.lockTtlSecs, retries := s.lockRetries }

end Leasehold
