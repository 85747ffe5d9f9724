import Leasehold.Store.Basic

/-!
# Counters in the store

A counter has a value, and two buffers: increments wait in the pending buffer, and go through the
flushed buffer into the value.

* `Leasehold.FlushedCounter` – what a flush did to the value;
* `Leasehold.Store.incrementPending`, `Leasehold.Store.pending`, `Leasehold.Store.clearPending` –
  the pending buffer;
* `Leasehold.Store.stealIncrements` – moves the pending buffer into the flushed one;
* `Leasehold.Store.commitFlushed` – moves the flushed buffer into the value;
* `Leasehold.Store.counterValue` – the value.

A sum out of range leaves a number that is no integer, and reading it fails. Stealing and
committing read inside of their transaction and so change nothing when they fail. Incrementing
reads afterwards: then the sum stays in the buffer although the call fails.
-/

namespace Leasehold

/-- **What a flush did to the value** of a counter. -/
structure FlushedCounter where
  /-- What was added. -/
  increment : Int
  /-- The value before. -/
  previous : Int
  /-- The value after. -/
  current : Int
deriving DecidableEq

namespace Store

/-! ### Reading cells -/

/-- The buffers of a counter. -/
def buffer? (s : Store) (key : String) : Option BufferRow := s.buffers.find? (·.key = key)

/-- The value of a counter. -/
def counter? (s : Store) (record quantity : String) : Option CounterRow :=
  s.counters.find? fun r => r.record = record && r.quantity = quantity

/-- The integer in a cell, zero where there is none. -/
def readCell (fault : Fault) (c : Option Cell) : Except Fault Int :=
  match c with
  | none => .ok 0
  | some c =>
    match c.integer? with
    | some n => .ok n
    | none => .error fault

/-- **The increments that wait to be flushed.** -/
def pending (s : Store) (key : String) : Except Fault Int :=
  readCell .pendingUnreadable ((s.buffer? key).map BufferRow.pending)

/-- The increments that are being flushed. -/
def flushed (s : Store) (key : String) : Except Fault Int :=
  readCell .flushedUnreadable ((s.buffer? key).map BufferRow.flushed)

/-- **The value of a counter.** -/
def counterValue (s : Store) (record quantity : String) : Except Fault Int :=
  readCell .valueUnreadable ((s.counter? record quantity).map CounterRow.value)

/-! ### Writing buffers -/

/-- Changes the buffers of a counter, if there are any. -/
def changeBuffer (s : Store) (key : String) (f : BufferRow → BufferRow) : Store :=
  { s with buffers := s.buffers.map fun r => if r.key = key then f r else r }

/-- Adds an integer to the pending buffer of a counter. -/
def addPending (s : Store) (key : String) (amount : Int) : Store :=
  if (s.buffer? key).isSome then
    s.changeBuffer key fun r => { r with pending := r.pending.sum (.integer amount) }
  else { s with buffers := s.buffers ++ [{ key, pending := .integer amount }] }

/-- **Adds to the pending buffer**, and gives what it holds then. -/
def incrementPending (s : Store) (key : String) (amount : Int) : Except Fault Int × Store :=
  let s := s.addPending key amount
  (s.pending key, s)

/-- **Drops the increments that wait** to be flushed. -/
def clearPending (s : Store) (key : String) : Store :=
  s.changeBuffer key fun r => { r with pending := .integer 0 }

/-! ### Flushing -/

/-- The pending buffer goes into the flushed one. -/
def movePending (s : Store) (key : String) : Store :=
  s.changeBuffer key fun r =>
    { r with flushed := r.flushed.sum r.pending, pending := .integer 0 }

/-- **Moves the pending buffer into the flushed one**, and gives what that holds then. Buffers
that are empty are removed. -/
def stealIncrements (s : Store) (key : String) : Except Fault Int × Store :=
  let moved := s.movePending key
  match moved.flushed key with
  | .error e => (.error e, s)
  | .ok n =>
    if n = 0 then (.ok 0, { moved with buffers := moved.buffers.filter (·.key ≠ key) })
    else (.ok n, moved)

/-- Adds an integer to the value of a counter. -/
def addToCounter (s : Store) (record quantity : String) (amount : Int) : Store :=
  if (s.counter? record quantity).isSome then
    { s with
      counters := s.counters.map fun r =>
        if r.record = record ∧ r.quantity = quantity then
          { r with value := r.value.sum (.integer amount) }
        else r }
  else { s with counters := s.counters ++ [⟨record, quantity, .integer amount⟩] }

/-- **Moves the flushed buffer into the value** of a counter. -/
def commitFlushed (s : Store) (record quantity key : String) :
    Except Fault FlushedCounter × Store :=
  match s.flushed key, s.counterValue record quantity with
  | .error e, _ => (.error e, s)
  | .ok _, .error e => (.error e, s)
  | .ok increment, .ok previous =>
    let after := (s.addToCounter record quantity increment).changeBuffer key fun r =>
      { r with flushed := .integer 0 }
    match readCell .newValueUnreadable ((after.counter? record quantity).map CounterRow.value) with
    | .error e => (.error e, s)
    | .ok current => (.ok ⟨increment, previous, current⟩, after)

end Store

end Leasehold
