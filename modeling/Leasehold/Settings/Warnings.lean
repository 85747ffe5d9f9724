import Leasehold.Settings.Model
import Leasehold.Text.Blank

/-!
# Warnings about settings

Settings that can be read may still make no sense. They are not refused, but there is a warning
for each.

* `Leasehold.Settings.warnings` – the warnings, in the order of the settings;
* `Leasehold.isLogLevel` – whether a text can say which log lines are shown.
-/

namespace Leasehold

open Text (trim isAllBlank)

/-! ### Levels -/

/-- The names of levels. -/
def levelNames : List String := ["trace", "debug", "info", "warn", "error", "off"]

/-- The part of a directive after its last equals sign. -/
def severityOf (directive : List Char) : List Char :=
  (directive.reverse.takeWhile (· ≠ '=')).reverse

/-- Cuts a text at commas. -/
def splitCommas : List Char → List (List Char)
  | [] => [[]]
  | c :: cs =>
    if c = ',' then [] :: splitCommas cs
    else
      match splitCommas cs with
      | part :: rest => (c :: part) :: rest
      | [] => [[c]]

/-- **Whether a text can say which log lines are shown**: every directive in it ends in the name
of a level. -/
def isLogLevel (s : String) : Bool :=
  let s := trim s.toList
  s ≠ [] &&
    (splitCommas s).all fun directive =>
      levelNames.contains (String.ofList ((trim (severityOf directive)).map Char.toLower))

/-! ### Warnings -/

/-- A warning, if there is a reason for it. -/
def warnIf (reason : Bool) (warning : String) : List String := if reason then [warning] else []

/-- The warnings about quantities: those without a name, and those named again. -/
def quantityWarnings (seen : List String) : List String → List String
  | [] => []
  | q :: qs =>
    if isAllBlank q then "Empty name in counters.attributes" :: quantityWarnings seen qs
    else if seen.contains q then
      ("Duplicate counter attribute '" ++ q ++ "' in counters.attributes") ::
        quantityWarnings seen qs
    else quantityWarnings (q :: seen) qs

/-- **The warnings about some settings.** -/
def Settings.warnings (s : Settings) : List String :=
  warnIf (s.aggregation.maxRuntimeSecs = 0)
      "aggregation.max_runtime_secs is 0: every run stops after one aggregation" ++
    warnIf (s.aggregation.batchSize = 0) "aggregation.batch_size must be at least 1" ++
    warnIf (s.aggregation.stepPageSize = 0) "aggregation.step_page_size must be at least 1" ++
    warnIf (s.lease.ttlSecs = 0) "lease.ttl_secs is 0: leases expire immediately" ++
    warnIf (s.hooks.lockTtlSecs = 0) "hooks.lock_ttl_secs is 0: leases expire immediately" ++
    warnIf (s.counters.lockTtlSecs = 0) "counters.lock_ttl_secs is 0: leases expire immediately" ++
    quantityWarnings [] s.counters.quantities ++
    warnIf (!isLogLevel s.logging.level)
      ("Invalid logging.level '" ++ s.logging.level ++
        "': should be trace, debug, info, warn, error or a filter directive")

end Leasehold
