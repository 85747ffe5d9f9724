import Leasehold.Counter.Attributes
import Leasehold.Proofs.Counter.Rows

/-!
# What a counter holds

A counter holds three numbers: its value, and what waits in its two buffers. This file says what
each call on the store does to the three (`Leasehold.Store.Holds`), for every counter and whatever
else is in the tables. Between them no call makes or loses anything:

* incrementing adds to the pending buffer, and clearing empties it;
* stealing moves all of the pending buffer into the flushed one
  (`Leasehold.Store.Holds.stealIncrements`);
* committing moves all of the flushed buffer into the value and reports the value before and after
  (`Leasehold.Store.Holds.commitFlushed`).

Stealing and committing fail only when the sum that they make is out of range, and then nothing
has changed. The calls on a counter of another key, and of another name, leave the three as they
are (`Leasehold.Store.Holds.incrementPending_of_ne` and its companions).
-/

namespace Leasehold

/-- **A counter**, by the names of what it counts for and of what it counts. -/
structure CounterName where
  /-- The record it counts for. -/
  record : String
  /-- What it counts. -/
  quantity : String
deriving DecidableEq

/-- The key of its buffers. -/
def CounterName.key (k : CounterName) : String := Counters.bufferKey k.record k.quantity

namespace Store

/-- **What a counter holds**: a value, and what is in its flushed and pending buffers. -/
structure Holds (s : Store) (k : CounterName) (v f p : Int) : Prop where
  /-- The value. -/
  value_eq : s.counterValue k.record k.quantity = .ok v
  /-- The flushed buffer. -/
  flushed_eq : s.flushed k.key = .ok f
  /-- The pending buffer. -/
  pending_eq : s.pending k.key = .ok p

/-- **What waits in the buffers of a counter**: in the flushed one and in the pending one. -/
structure Waits (s : Store) (key : String) (f p : Int) : Prop where
  /-- The flushed buffer. -/
  flushed_eq : s.flushed key = .ok f
  /-- The pending buffer. -/
  pending_eq : s.pending key = .ok p

/-! ### Rows as they are read -/

section Reading

variable {s s' : Store} {key record quantity : String} {n : Int}

/-- The buffers of a counter as they are read: empty ones where there is no row. -/
def buffersOf (s : Store) (key : String) : BufferRow := (s.buffer? key).getD { key }

theorem key_buffersOf (s : Store) (key : String) : (s.buffersOf key).key = key := by
  rw [buffersOf]
  cases hb : s.buffer? key with
  | none => rfl
  | some r =>
    rw [buffer?] at hb
    simpa using List.find?_some hb

/-- The value of a counter as it is read: zero where there is no row. -/
def counterOf (s : Store) (record quantity : String) : CounterRow :=
  (s.counter? record quantity).getD ⟨record, quantity, .integer 0⟩

theorem readCell_eq_ok_iff {fault : Fault} {c : Option Cell} :
    readCell fault c = .ok n ↔ c.getD (.integer 0) = .integer n := by
  cases c with
  | none => simp [readCell]
  | some c => cases c <;> simp [readCell, Cell.integer?]

theorem readCell_eq_error {fault e : Fault} {c : Option Cell} (h : readCell fault c = .error e) :
    e = fault := by
  unfold readCell at h
  split at h
  · cases h
  · split at h
    · cases h
    · cases h
      rfl

theorem flushed_eq_ok_iff : s.flushed key = .ok n ↔ (s.buffersOf key).flushed = .integer n := by
  rw [flushed, readCell_eq_ok_iff, buffersOf]
  cases s.buffer? key <;> rfl

theorem pending_eq_ok_iff : s.pending key = .ok n ↔ (s.buffersOf key).pending = .integer n := by
  rw [pending, readCell_eq_ok_iff, buffersOf]
  cases s.buffer? key <;> rfl

theorem counterValue_eq_ok_iff :
    s.counterValue record quantity = .ok n ↔ (s.counterOf record quantity).value = .integer n := by
  rw [counterValue, readCell_eq_ok_iff, counterOf]
  cases s.counter? record quantity <;> rfl

/-- A change that leaves empty buffers empty. -/
theorem buffersOf_changeBuffer {f : BufferRow → BufferRow} (hf : ∀ r, (f r).key = r.key)
    (hempty : f { key } = { key }) :
    (s.changeBuffer key f).buffersOf key = f (s.buffersOf key) := by
  rw [buffersOf, buffer?_changeBuffer hf, buffersOf]
  cases s.buffer? key with
  | none => exact hempty.symm
  | some r => rfl

/-- The value of a counter after something is added: the sum, unless that is out of range. -/
theorem value_addToCounter {v : Int} (h : s.counterValue record quantity = .ok v) (n : Int) :
    ∃ c, ((s.addToCounter record quantity n).counter? record quantity).map CounterRow.value =
        some c ∧
      (c = .integer (v + n) ∧ (Cell.InRange n → Cell.InRange (v + n)) ∨
        ¬Cell.InRange (v + n) ∧ c.integer? = none) := by
  have hv := counterValue_eq_ok_iff.1 h
  rw [counter?_addToCounter]
  rw [counterOf] at hv
  cases hc : s.counter? record quantity with
  | none =>
    rw [hc] at hv
    cases hv
    rw [Int.zero_add]
    exact ⟨_, rfl, .inl ⟨rfl, id⟩⟩
  | some r =>
    rw [hc] at hv
    have hv : r.value = .integer v := hv
    refine ⟨r.value.sum (.integer n), rfl, ?_⟩
    rw [hv]
    by_cases hrange : Cell.InRange (v + n)
    · exact .inl ⟨Cell.sum_eq_integer_iff.2 ⟨hrange, rfl⟩, fun _ => hrange⟩
    · refine .inr ⟨hrange, ?_⟩
      rw [Cell.integer?_sum, if_neg hrange]

end Reading

namespace Waits

variable {s : Store} {key : String} {f p : Int}

theorem buffersOf_eq (h : s.Waits key f p) : s.buffersOf key = ⟨key, .integer p, .integer f⟩ := by
  have hkey := s.key_buffersOf key
  have hf := flushed_eq_ok_iff.1 h.flushed_eq
  have hp := pending_eq_ok_iff.1 h.pending_eq
  cases hrow : s.buffersOf key with
  | mk key' pending flushed =>
    rw [hrow] at hkey hf hp
    obtain rfl : key' = key := hkey
    obtain rfl : flushed = .integer f := hf
    obtain rfl : pending = .integer p := hp
    rfl

theorem of_buffersOf (h : s.buffersOf key = ⟨key, .integer p, .integer f⟩) : s.Waits key f p :=
  ⟨flushed_eq_ok_iff.2 (by rw [h]), pending_eq_ok_iff.2 (by rw [h])⟩

/-- **Stealing moves all of the pending buffer into the flushed one**, whatever the value of the
counter is. -/
theorem stealIncrements (h : s.Waits key f p) :
    (s.stealIncrements key).1 = .ok (f + p) ∧ (s.stealIncrements key).2.Waits key (f + p) 0 ∧
        Cell.InRange (f + p) ∨
      ¬Cell.InRange (f + p) ∧ s.stealIncrements key = (.error .flushedUnreadable, s) := by
  have hmoved : (s.movePending key).buffersOf key =
      ⟨key, .integer 0, (Cell.integer f).sum (.integer p)⟩ := by
    refine (buffersOf_changeBuffer ?_ ?_).trans ?_
    · intro r
      rfl
    · rfl
    · rw [h.buffersOf_eq]
  unfold Store.stealIncrements
  simp only
  cases hread : (s.movePending key).flushed key with
  | error e =>
    right
    refine ⟨fun hrange => ?_, ?_⟩
    · have hsum := Cell.sum_eq_integer_iff.2 ⟨hrange, rfl⟩
      rw [hsum] at hmoved
      rw [flushed_eq_ok_iff.2 (congrArg BufferRow.flushed hmoved)] at hread
      cases hread
    · rw [readCell_eq_error hread]
  | ok n =>
    left
    have hflushed := flushed_eq_ok_iff.1 hread
    rw [hmoved] at hflushed
    obtain ⟨hrange, hn⟩ := Cell.sum_eq_integer_iff.1 hflushed
    simp only
    split
    · rename_i hzero
      -- Empty buffers are removed, and read as empty again.
      rw [← hn, hzero]
      refine ⟨rfl, of_buffersOf ?_, by decide⟩
      rw [buffersOf, buffer?_removed]
      rfl
    · rw [← hn] at hrange ⊢
      refine ⟨rfl, of_buffersOf ?_, hrange⟩
      rw [hmoved]
      exact congrArg (BufferRow.mk key (.integer 0)) hflushed

end Waits

namespace Holds

variable {s s' : Store} {k k' : CounterName} {v f p m n : Int}

/-- A counter without a row in either table holds nothing. -/
theorem of_absent (hc : s.counter? k.record k.quantity = none) (hb : s.buffer? k.key = none) :
    s.Holds k 0 0 0 := by
  refine ⟨counterValue_eq_ok_iff.2 ?_, flushed_eq_ok_iff.2 ?_, pending_eq_ok_iff.2 ?_⟩
  · rw [counterOf, hc]
    rfl
  · rw [buffersOf, hb]
    rfl
  · rw [buffersOf, hb]
    rfl

/-- What a counter holds is found in its two rows. -/
theorem congr (h : s.Holds k v f p)
    (hc : s'.counter? k.record k.quantity = s.counter? k.record k.quantity)
    (hb : s'.buffer? k.key = s.buffer? k.key) : s'.Holds k v f p := by
  refine ⟨?_, ?_, ?_⟩
  · rw [counterValue, hc]
    exact h.value_eq
  · rw [flushed, hb]
    exact h.flushed_eq
  · rw [pending, hb]
    exact h.pending_eq

/-- A call that makes other buffers of a counter. -/
theorem withBuffers (h : s.Holds k v f p) (hc : s'.counters = s.counters)
    (hb : s'.buffersOf k.key = ⟨k.key, .integer n, .integer m⟩) : s'.Holds k v m n := by
  refine ⟨?_, flushed_eq_ok_iff.2 (by rw [hb]), pending_eq_ok_iff.2 (by rw [hb])⟩
  rw [counterValue, counter?, hc]
  exact h.value_eq

theorem waits (h : s.Holds k v f p) : s.Waits k.key f p := ⟨h.flushed_eq, h.pending_eq⟩

theorem buffersOf_eq (h : s.Holds k v f p) :
    s.buffersOf k.key = ⟨k.key, .integer p, .integer f⟩ := h.waits.buffersOf_eq

/-! ### The pending buffer -/

/-- **Incrementing adds to the pending buffer**, when it answers. -/
theorem incrementPending (h : s.Holds k v f p) (hok : (s.incrementPending k.key n).1 = .ok m) :
    m = p + n ∧ (s.incrementPending k.key n).2.Holds k v f m := by
  change m = p + n ∧ (s.addPending k.key n).Holds k v f m
  have hcounters : (s.addPending k.key n).counters = s.counters := by
    rw [addPending]
    split <;> rfl
  have hm : ((s.addPending k.key n).buffersOf k.key).pending = .integer m :=
    pending_eq_ok_iff.1 hok
  have hbefore := h.buffersOf_eq
  have hafter := s.buffer?_addPending k.key n
  rw [buffersOf] at hbefore
  cases hb : s.buffer? k.key with
  | none =>
    rw [hb] at hbefore hafter
    have hnew : (s.addPending k.key n).buffersOf k.key = ⟨k.key, .integer n, .integer 0⟩ := by
      rw [buffersOf, hafter]
      rfl
    rw [hnew] at hm
    cases hm
    cases hbefore
    exact ⟨(Int.zero_add m).symm, h.withBuffers hcounters hnew⟩
  | some r =>
    rw [hb] at hbefore hafter
    obtain rfl : r = ⟨k.key, .integer p, .integer f⟩ := hbefore
    have hnew : (s.addPending k.key n).buffersOf k.key =
        ⟨k.key, (Cell.integer p).sum (.integer n), .integer f⟩ := by
      rw [buffersOf, hafter]
      rfl
    rw [hnew] at hm
    have hm : (Cell.integer p).sum (.integer n) = .integer m := hm
    rw [hm] at hnew
    exact ⟨(Cell.sum_eq_integer_iff.1 hm).2, h.withBuffers hcounters hnew⟩

/-- Incrementing fails only when the sum is out of range. -/
theorem incrementPending_eq_error (h : s.Holds k v f p) {e : Fault}
    (herror : (s.incrementPending k.key n).1 = .error e) : ¬Cell.InRange (p + n) := by
  intro hrange
  have hbefore := h.buffersOf_eq
  have hpending : ∃ m, ((s.addPending k.key n).buffersOf k.key).pending = .integer m := by
    rw [buffersOf, s.buffer?_addPending k.key n]
    rw [buffersOf] at hbefore
    cases hb : s.buffer? k.key with
    | none => exact ⟨n, rfl⟩
    | some r =>
      rw [hb] at hbefore
      obtain rfl : r = ⟨k.key, .integer p, .integer f⟩ := hbefore
      exact ⟨p + n, Cell.sum_eq_integer_iff.2 ⟨hrange, rfl⟩⟩
  obtain ⟨m, hm⟩ := hpending
  have hok : (s.incrementPending k.key n).1 = .ok m := pending_eq_ok_iff.2 hm
  rw [hok] at herror
  cases herror

/-- **Clearing empties the pending buffer.** -/
theorem clearPending (h : s.Holds k v f p) : (s.clearPending k.key).Holds k v f 0 := by
  refine h.withBuffers rfl ?_
  refine (buffersOf_changeBuffer ?_ ?_).trans ?_
  · intro r
    rfl
  · rfl
  · rw [h.buffersOf_eq]

/-! ### Flushing -/

/-- **Stealing moves all of the pending buffer into the flushed one**, unless the sum is out of
range; then nothing has changed. -/
theorem stealIncrements (h : s.Holds k v f p) :
    (s.stealIncrements k.key).1 = .ok (f + p) ∧
        (s.stealIncrements k.key).2.Holds k v (f + p) 0 ∨
      ¬Cell.InRange (f + p) ∧ s.stealIncrements k.key = (.error .flushedUnreadable, s) := by
  rcases h.waits.stealIncrements with ⟨hanswer, hwaits, -⟩ | herror
  · refine .inl ⟨hanswer, ?_, hwaits.flushed_eq, hwaits.pending_eq⟩
    rw [counterValue, counter?, s.counters_stealIncrements k.key]
    exact h.value_eq
  · exact .inr herror

/-- Committing, and what a success says about the new value. -/
theorem commitFlushed_inRange (h : s.Holds k v f p) :
    (s.commitFlushed k.record k.quantity k.key).1 = .ok ⟨f, v, v + f⟩ ∧
        (s.commitFlushed k.record k.quantity k.key).2.Holds k (v + f) 0 p ∧
        (Cell.InRange f → Cell.InRange (v + f)) ∨
      ¬Cell.InRange (v + f) ∧
        s.commitFlushed k.record k.quantity k.key = (.error .newValueUnreadable, s) := by
  rw [Store.commitFlushed]
  rw [h.flushed_eq, h.value_eq]
  simp only
  generalize hafter : (s.addToCounter k.record k.quantity f).changeBuffer k.key _ = after
  have hbuffers : after.buffersOf k.key = ⟨k.key, .integer p, .integer 0⟩ := by
    rw [← hafter]
    refine (buffersOf_changeBuffer ?_ ?_).trans ?_
    · intro r
      rfl
    · rfl
    · rw [buffersOf, buffer?, buffers_addToCounter]
      exact congrArg (fun r : BufferRow => { r with flushed := .integer 0 }) h.buffersOf_eq
  have hsame : (after.counter? k.record k.quantity).map CounterRow.value =
      ((s.addToCounter k.record k.quantity f).counter? k.record k.quantity).map
        CounterRow.value := by
    rw [← hafter]
    rfl
  obtain ⟨c, hc, hcase⟩ := value_addToCounter h.value_eq f
  rw [hsame, hc]
  rcases hcase with ⟨rfl, hnew⟩ | ⟨hrange, hnone⟩
  · have hvalue : after.counterValue k.record k.quantity = .ok (v + f) := by
      rw [counterValue, hsame, hc]
      rfl
    have hflushed := flushed_eq_ok_iff.2 (congrArg BufferRow.flushed hbuffers)
    have hpending := pending_eq_ok_iff.2 (congrArg BufferRow.pending hbuffers)
    exact .inl ⟨rfl, ⟨hvalue, hflushed, hpending⟩, hnew⟩
  · refine .inr ⟨hrange, ?_⟩
    rw [readCell]
    split
    · rename_i hread
      rw [hnone] at hread
      cases hread
      rfl
    · rename_i hread
      rw [hnone] at hread
      cases hread

/-- **Committing moves all of the flushed buffer into the value** and reports the value before and
after, unless the new value is out of range; then nothing has changed. -/
theorem commitFlushed (h : s.Holds k v f p) :
    (s.commitFlushed k.record k.quantity k.key).1 = .ok ⟨f, v, v + f⟩ ∧
        (s.commitFlushed k.record k.quantity k.key).2.Holds k (v + f) 0 p ∨
      ¬Cell.InRange (v + f) ∧
        s.commitFlushed k.record k.quantity k.key = (.error .newValueUnreadable, s) :=
  h.commitFlushed_inRange.imp_left fun hdone => ⟨hdone.1, hdone.2.1⟩

/-! ### The calls on other counters -/

section Others

variable (h : s.Holds k v f p) (hk : k.key ≠ k'.key)

include h hk

theorem incrementPending_of_ne (n : Int) : (s.incrementPending k'.key n).2.Holds k v f p := by
  refine h.congr ?_ (buffer?_addPending_of_ne n hk)
  exact congrArg (List.find? _) (s.counters_addPending k'.key n)

theorem clearPending_of_ne : (s.clearPending k'.key).Holds k v f p :=
  h.congr rfl (buffer?_changeBuffer_of_ne (fun _ => rfl) hk)

theorem stealIncrements_of_ne : (s.stealIncrements k'.key).2.Holds k v f p := by
  have hmoved : (s.movePending k'.key).buffer? k.key = s.buffer? k.key :=
    buffer?_changeBuffer_of_ne (fun _ => rfl) hk
  unfold Store.stealIncrements
  simp only
  split
  · exact h
  · split
    · exact h.congr rfl ((buffer?_removed_of_ne hk).trans hmoved)
    · exact h.congr rfl hmoved

theorem commitFlushed_of_ne :
    (s.commitFlushed k'.record k'.quantity k'.key).2.Holds k v f p := by
  have hname : (k.record, k.quantity) ≠ (k'.record, k'.quantity) := by
    intro hname
    exact hk (congrArg (fun n : String × String => Counters.bufferKey n.1 n.2) hname)
  rw [Store.commitFlushed]
  split
  · exact h
  · exact h
  · simp only
    split
    · exact h
    · refine h.congr (counter?_addToCounter_of_ne _ hname) ?_
      refine (buffer?_changeBuffer_of_ne ?_ hk).trans ?_
      · intro r
        rfl
      · exact congrArg (List.find? _) (s.buffers_addToCounter _ _ _)

end Others

end Holds

/-! ### Calls that fail -/

/-- **Stealing that fails changes nothing.** -/
theorem stealIncrements_of_error {s : Store} {key : String} {e : Fault}
    (h : (s.stealIncrements key).1 = .error e) : (s.stealIncrements key).2 = s := by
  unfold stealIncrements at h ⊢
  simp only at h ⊢
  split
  · rfl
  · rename_i n hn
    rw [hn] at h
    simp only at h
    split at h <;> cases h

/-- **Committing that fails changes nothing.** -/
theorem commitFlushed_of_error {s : Store} {record quantity key : String} {e : Fault}
    (h : (s.commitFlushed record quantity key).1 = .error e) :
    (s.commitFlushed record quantity key).2 = s := by
  unfold commitFlushed at h ⊢
  split
  · rfl
  · rfl
  · rename_i increment previous hi hp
    rw [hi, hp] at h
    simp only at h ⊢
    split
    · rfl
    · rename_i current hcurrent
      rw [hcurrent] at h
      cases h

end Store

end Leasehold
