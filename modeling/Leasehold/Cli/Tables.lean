import Leasehold.Aggregation.Worker
import Leasehold.Hook.FailureState
import Leasehold.Number.Fixed
import Leasehold.Settings.Model
import Leasehold.Text.Quoted

/-!
# What commands show

Every function here gives lines, without their ends.

* `Leasehold.Cli.aggregationTable`, `Leasehold.Cli.hookTable`, `Leasehold.Cli.countTable` – tables;
* `Leasehold.Cli.reportLines` – the report of a run;
* `Leasehold.Cli.settingsLines` – settings;
* `Leasehold.Cli.updateLines` – what an update did to a web hook.
-/

namespace Leasehold.Cli

open Text (padRight)

/-! ### Tables -/

/-- A row of a table: every cell but the last is filled up to the width of its column. -/
def tableRow : List Nat → List String → String
  | w :: ws, c :: cs => if cs = [] then c else padRight w c ++ " " ++ tableRow ws cs
  | _, cs => " ".intercalate cs

/-- When something last ran. -/
def timeCell (t : Option Instant) : String := (t.map Instant.tableTime).getD "never"

/-- The widths of the table of aggregations. -/
def aggregationWidths : List Nat := [8, 8, 12, 10, 24, 24, 0]

/-- The row of an aggregation. -/
def aggregationCells (a : Aggregation) : List String :=
  [toString a.target, if a.enabled then "true" else "false", toString a.total,
    toString a.processed, timeCell a.lastRun.incremental, timeCell a.lastRun.full,
    (a.stats.incremental.averageRuntime?.map fun x => Fixed.render 3 x ++ "s").getD "-"]

/-- **The table of aggregations.** -/
def aggregationTable (as : List Aggregation) : List String :=
  (["Target", "Enabled", "Total", "Records", "Last incremental run", "Last full run",
      "Avg runtime"] ::
    ["------", "-------", "-----", "-------", "--------------------", "-------------",
      "-----------"] ::
    as.map aggregationCells).map (tableRow aggregationWidths)

/-- The widths of the table of web hooks. -/
def hookWidths : List Nat := [6, 8, 9, 8, 40, 0]

/-- The row of a web hook. -/
def hookCells (now : Instant) (h : WebHook) : List String :=
  [toString h.id, toString h.project, toString h.recentFailures, toString h.backoffCount,
    (h.status now).text, h.url]

/-- **The table of web hooks.** -/
def hookTable (now : Instant) (hs : List WebHook) : List String :=
  (["ID", "Project", "Failures", "Backoff", "Status", "URL"] ::
    ["--", "-------", "--------", "-------", "------", "---"] ::
    hs.map (hookCells now)).map (tableRow hookWidths)

/-- **The table of numbers of rows.** -/
def countTable (counts : List (String × Nat)) : List String :=
  (["Table", "Rows"] :: ["--------------", "----"] ::
    counts.map fun (table, n) => [table, toString n]).map (tableRow [14, 0])

/-! ### Reports -/

/-- **The report of a run.** -/
def reportLines (r : Report) : List String :=
  ["", "Aggregation finished (" ++ r.mode.name ++ ")",
    "  Processed:   " ++ toString r.tally.processed] ++
  (if 0 < r.tally.failed then ["  Failed:      " ++ toString r.tally.failed] else []) ++
  ["  Records:     " ++ toString r.tally.records,
    "  Elapsed:     " ++ Fixed.render 1 r.usage.elapsedSeconds ++ "s of " ++
      Fixed.render 0 r.usage.allowedSeconds ++ "s",
    "  Stop reason: " ++ r.stopReason.name, ""]

/-- **What an update did** to a web hook. -/
def updateLines (now : Instant) (u : HookUpdate) : List String :=
  let note :=
    match u with
    | .applied _ true => "updated"
    | .applied _ false => "unchanged"
    | .alreadyConsistent _ => "already consistent"
  ["Web hook " ++ toString u.hook.id ++ ": " ++ (u.hook.status now).text ++ " (" ++ note ++ ")",
    "  recent_failures = " ++ toString u.hook.recentFailures ++ ", backoff_count = " ++
      toString u.hook.backoffCount]

/-! ### Settings -/

/-- A setting. -/
def settingLine (name value : String) : String := "  " ++ name ++ " = " ++ value

/-- A setting that is a text, which is shown as it is. -/
def textLine (name value : String) : String := settingLine name ("\"" ++ value ++ "\"")

/-- A setting that is a number. -/
def numberLine (name : String) (n : Nat) : String := settingLine name (toString n)

/-- **Settings**, one section after another. -/
def settingsLines (s : Settings) : List String :=
  ["[lease]", textLine "backend" s.lease.backend.name,
    numberLine "ttl_secs" s.lease.ttlSecs.toNat, numberLine "sleep_ms" s.lease.sleepMs.toNat,
    numberLine "retries" s.lease.retries.toNat, "",
    "[aggregation]", numberLine "max_runtime_secs" s.aggregation.maxRuntimeSecs.toNat,
    numberLine "batch_size" s.aggregation.batchSize.toNat,
    numberLine "step_page_size" s.aggregation.stepPageSize.toNat,
    textLine "mode" s.aggregation.mode.name, "",
    "[hooks]", numberLine "lock_ttl_secs" s.hooks.lockTtlSecs.toNat,
    numberLine "lock_sleep_ms" s.hooks.lockSleepMs.toNat,
    numberLine "lock_retries" s.hooks.lockRetries.toNat,
    numberLine "delivery_timeout_secs" s.hooks.deliveryTimeoutSecs.toNat, "",
    "[counters]", settingLine "attributes" (Text.quotedList s.counters.quantities),
    numberLine "lock_ttl_secs" s.counters.lockTtlSecs.toNat,
    numberLine "lock_retries" s.counters.lockRetries.toNat, "",
    "[logging]", textLine "level" s.logging.level, textLine "format" s.logging.format.name, ""]

end Leasehold.Cli
