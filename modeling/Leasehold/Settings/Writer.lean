import Leasehold.Settings.Model
import Leasehold.Toml.Text

/-!
# Writing settings

Settings are written with every default spelled out, one section after another, each value under
the name it is read by.

* `Leasehold.Settings.sections` – the sections of some settings;
* `Leasehold.Settings.toText` – the text of some settings.
-/

namespace Leasehold

open Toml (Section)

/-- The section of leases. -/
def LeaseSettings.toSection (s : LeaseSettings) : Section :=
  { name := "lease"
    entries :=
      [("backend", .text s.backend.name), ("ttl_secs", .natural s.ttlSecs.toNat),
        ("sleep_ms", .natural s.sleepMs.toNat), ("retries", .natural s.retries.toNat)] }

/-- The section of aggregations. -/
def AggregationSettings.toSection (s : AggregationSettings) : Section :=
  { name := "aggregation"
    entries :=
      [("max_runtime_secs", .natural s.maxRuntimeSecs.toNat),
        ("batch_size", .natural s.batchSize.toNat),
        ("step_page_size", .natural s.stepPageSize.toNat), ("mode", .text s.mode.name)] }

/-- The section of web hooks. -/
def HookSettings.toSection (s : HookSettings) : Section :=
  { name := "hooks"
    entries :=
      [("lock_ttl_secs", .natural s.lockTtlSecs.toNat),
        ("lock_sleep_ms", .natural s.lockSleepMs.toNat),
        ("lock_retries", .natural s.lockRetries.toNat),
        ("delivery_timeout_secs", .natural s.deliveryTimeoutSecs.toNat)] }

/-- The section of counters. -/
def CounterSettings.toSection (s : CounterSettings) : Section :=
  { name := "counters"
    entries :=
      [("attributes", .texts s.quantities), ("lock_ttl_secs", .natural s.lockTtlSecs.toNat),
        ("lock_retries", .natural s.lockRetries.toNat)] }

/-- The section of log lines. -/
def LoggingSettings.toSection (s : LoggingSettings) : Section :=
  { name := "logging"
    entries := [("level", .text s.level), ("format", .text s.format.name)] }

/-- **The sections of some settings.** -/
def Settings.sections (s : Settings) : List Section :=
  [s.lease.toSection, s.aggregation.toSection, s.hooks.toSection, s.counters.toSection,
    s.logging.toSection]

/-- **The text of some settings.** -/
def Settings.toText (s : Settings) : String := Toml.documentText s.sections

end Leasehold
