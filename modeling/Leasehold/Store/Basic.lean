import Leasehold.Aggregation.Model
import Leasehold.Hook.Model
import Leasehold.Lease.Ledger
import Leasehold.Number.Cell

/-!
# The store

The store keeps the state of all workers in tables. Times are kept as whole milliseconds, and the
numbers of aggregations, events and hooks are given out in order, each one once.

* `Leasehold.Store` – the tables;
* `Leasehold.Store.Fault` – why a call on the store fails, and in which words;
* `Leasehold.Store.limited` – the first rows of an answer;
* `Leasehold.Store.instant` – an instant from its milliseconds.

The calls on the store are in the modules beside this one. A call that only looks gives its
answer or a fault; a call that changes something gives the store as it is afterwards, too.
-/

namespace Leasehold

namespace Store

/-! ### Rows -/

/-- **The statistics in a row**: as this library wrote them, or some other text. -/
inductive StatsText where
  /-- The text of some statistics. -/
  | written (s : RunStats)
  /-- A text from elsewhere. -/
  | foreign (text : String)

/-- The row of an aggregation. -/
structure AggregationRow where
  /-- The number of the aggregation. -/
  id : Int
  /-- The target whose events it folds; no two rows have the same. -/
  target : Int
  /-- Whether it runs at all. -/
  enabled : Bool := true
  /-- The milliseconds of the last run of each mode. -/
  lastRun : PerMode (Option Int) := .both none
  /-- The milliseconds of the cursor. -/
  cursorTime : Option Int := none
  /-- The number of the event at the cursor. -/
  cursorEvent : Option Int := none
  /-- The sum of the values folded. -/
  total : Int := 0
  /-- How many events were folded. -/
  processed : Int := 0
  /-- The statistics of each mode. -/
  stats : PerMode StatsText := .both (.foreign "\x7b\x7d")

/-- The row of an event. -/
structure EventRow where
  /-- The number of the event. -/
  id : Int
  /-- The target it belongs to. -/
  target : Int
  /-- The milliseconds of its time. -/
  millis : Int
  /-- What it adds to the total. -/
  value : Int
deriving DecidableEq

/-- The row of a web hook. -/
structure HookRow where
  /-- The number of the hook. -/
  id : Int
  /-- The project it belongs to. -/
  project : Int
  /-- The address that gets told. -/
  url : String
  /-- How many deliveries failed since one went well. -/
  recentFailures : Int := 0
  /-- How often the hook backed off since a delivery went well. -/
  backoffCount : Int := 0
  /-- The milliseconds until which the hook backs off. -/
  disabledUntil : Option Int := none
deriving DecidableEq

/-- The row of the last failure of a project. -/
structure LastFailureRow where
  /-- The project. -/
  project : Int
  /-- The milliseconds of its last failure. -/
  millis : Int
deriving DecidableEq

/-- The row of a counter's value. -/
structure CounterRow where
  /-- The record it counts for. -/
  record : String
  /-- What it counts. -/
  quantity : String
  /-- Its value. -/
  value : Cell

/-- The row of a counter's buffers. -/
structure BufferRow where
  /-- The key of the counter. -/
  key : String
  /-- Increments that wait to be flushed. -/
  pending : Cell := .integer 0
  /-- Increments that are being flushed. -/
  flushed : Cell := .integer 0

end Store

/-- **The store**: the tables, and the numbers given out next. -/
structure Store where
  /-- The aggregations, by number. -/
  aggregations : List Store.AggregationRow := []
  /-- The number of the next aggregation. -/
  nextAggregation : Int := 1
  /-- The events, by number. -/
  events : List Store.EventRow := []
  /-- The number of the next event. -/
  nextEvent : Int := 1
  /-- The web hooks, by number. -/
  hooks : List Store.HookRow := []
  /-- The number of the next web hook. -/
  nextHook : Int := 1
  /-- The last failure of each project that had one. -/
  lastFailures : List Store.LastFailureRow := []
  /-- The values of the counters. -/
  counters : List Store.CounterRow := []
  /-- The buffers of the counters. -/
  buffers : List Store.BufferRow := []
  /-- The leases, with their deadlines in milliseconds. -/
  leases : Ledger Int := []

namespace Store

instance : Inhabited Store := ⟨{}⟩

/-! ### Faults -/

/-- **Why a call on the store fails.** -/
inductive Fault where
  /-- Milliseconds that are off the time line. -/
  | timeOffLine (ms : Int)
  /-- There is no aggregation of that number. -/
  | noAggregation (id : Int)
  /-- An aggregation is missing right after it was registered. -/
  | aggregationLost
  /-- There is no web hook of that number. -/
  | noHook (id : Int)
  /-- The row of a web hook has something for a count that is none. -/
  | hookUnreadable
  /-- So has the row of one of several web hooks. -/
  | listedHookUnreadable
  /-- The statistics of a mode cannot be read. -/
  | statsUnreadable (m : Mode)
  /-- The pending buffer of a counter holds no integer. -/
  | pendingUnreadable
  /-- The flushed buffer of a counter holds no integer. -/
  | flushedUnreadable
  /-- The value of a counter is no integer. -/
  | valueUnreadable
  /-- The value of a counter is no integer any more after a flush. -/
  | newValueUnreadable
  /-- An earlier call broke off and left the store locked. -/
  | poisoned
  /-- The call itself broke off. -/
  | brokeOff
deriving DecidableEq

/-- **The words for a fault.** -/
def Fault.message : Fault → String
  | timeOffLine ms => "Timestamp out of range: " ++ toString ms
  | noAggregation id => "Aggregation " ++ toString id ++ " not found"
  | aggregationLost => "Aggregation not found after insert"
  | noHook id => "Web hook " ++ toString id ++ " not found"
  | hookUnreadable => "Failed to query web hook"
  | listedHookUnreadable => "Failed to read web hook row"
  | statsUnreadable .incremental => "Failed to parse incremental stats"
  | statsUnreadable .full => "Failed to parse full stats"
  | pendingUnreadable => "Failed to read pending counter"
  | flushedUnreadable => "Failed to read flushed increments"
  | valueUnreadable => "Failed to read counter value"
  | newValueUnreadable => "Failed to read updated counter value"
  | poisoned => "DB lock poisoned: poisoned lock: another task failed inside"
  | brokeOff => "DB task panicked"

/-! ### Small parts of calls -/

/-- **The first rows of an answer.** A limit that does not fit 64 bits with sign is none. -/
def limited {α : Type} (limit : Nat) (rows : List α) : List α :=
  if limit < 9223372036854775808 then rows.take limit else rows

/-- **A limit of 64 bits that is read with sign** takes as many rows, or, where it turns out
negative, all of them. -/
theorem limited_toNat {α : Type} (n : UInt64) (rows : List α) :
    limited n.toNat rows =
      if n.toInt64.toInt < 0 then rows else rows.take n.toInt64.toInt.toNat := by
  have hlt := n.toNat_lt
  have hread : n.toInt64.toInt = if 2 * n.toNat < 2 ^ 64 then (n.toNat : Int)
      else (n.toNat : Int) - (2 ^ 64 : Nat) := BitVec.toInt_eq_toNat_cond n.toBitVec
  rw [limited]
  by_cases hsmall : n.toNat < 9223372036854775808
  · have hsame : n.toInt64.toInt = n.toNat := hread.trans (if_pos (by omega))
    rw [if_pos hsmall, hsame, if_neg (by omega), Int.toNat_natCast]
  · have hnegative : n.toInt64.toInt = (n.toNat : Int) - (2 ^ 64 : Nat) :=
      hread.trans (if_neg (by omega))
    rw [if_neg hsmall, hnegative, if_pos (by omega)]

/-- **An instant from its milliseconds.** -/
def instant (ms : Int) : Except Fault Instant :=
  match Instant.ofMillis? ms with
  | some t => .ok t
  | none => .error (.timeOffLine ms)

/-- An instant that may be absent. -/
def instant? : Option Int → Except Fault (Option Instant)
  | none => .ok none
  | some ms => (instant ms).map some

theorem instant_millis (t : Instant) : instant t.millis = .ok t.floor := by
  simp [instant, Instant.ofMillis?_millis]

theorem limited_sublist {α : Type} (limit : Nat) (rows : List α) :
    (limited limit rows).Sublist rows := by
  unfold limited
  split
  · exact List.take_sublist _ _
  · exact List.Sublist.refl _

/-- How many rows each table has that a summary shows. -/
def counts (s : Store) : List (String × Nat) :=
  [("aggregations", s.aggregations.length), ("events", s.events.length),
    ("web_hooks", s.hooks.length), ("counters", s.counters.length), ("leases", s.leases.length)]

end Store

end Leasehold
