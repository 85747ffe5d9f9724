import Leasehold.Proofs.Counter.Holdings
import Leasehold.Proofs.World.Actions

/-!
# Calls on counters that fail

A sum out of range is no integer, and a call that reads it fails. What it leaves behind depends on
when it reads. Stealing and committing read before their transaction ends, so they change nothing
when they fail. Incrementing reads too late: the sum stays in the pending buffer
(`Leasehold.Overflowed`), and from then on that buffer cannot be read.

The damage goes no further than this one cell. Two stores that are the same once a buffer is
cleared answer every call alike that does not look into that buffer
(`Leasehold.CounterCall.run_clearPending`), and a clear makes them the same again
(`Leasehold.CounterCall.answers_eq_of_clearPending_eq`). So the calls on other counters, and the
commits of this one, answer as if the failed increment had never been made; after a clear all do.

The results for every state of the tables are in `Leasehold.left_by_failure`.
-/

namespace Leasehold

namespace Store

/-! ### Changes of buffers, one after another -/

section Changes

variable {s : Store} {key key' : String} {f g : BufferRow → BufferRow}

/-- Two changes of buffers that get along on every row can be made in either order. -/
theorem changeBuffer_comm (hf : ∀ r, (f r).key = r.key) (hg : ∀ r, (g r).key = r.key)
    (hfg : key = key' → ∀ r, g (f r) = f (g r)) :
    (s.changeBuffer key f).changeBuffer key' g = (s.changeBuffer key' g).changeBuffer key f := by
  simp only [changeBuffer, List.map_map]
  congr 1
  refine List.map_congr_left fun r _ => ?_
  simp only [Function.comp]
  by_cases h : r.key = key <;> by_cases h' : r.key = key'
  · have hkey : key = key' := h.symm.trans h'
    rw [if_pos h, if_pos h', if_pos ((hf r).trans h'), if_pos ((hg r).trans h)]
    exact hfg hkey r
  · have hfr : (f r).key ≠ key' := fun hr => h' ((hf r).symm.trans hr)
    rw [if_pos h, if_neg h', if_neg hfr, if_pos h]
  · have hgr : (g r).key ≠ key := fun hr => h ((hg r).symm.trans hr)
    rw [if_neg h, if_pos h', if_neg hgr]
  · rw [if_neg h, if_neg h', if_neg h]

/-- What was changed in the pending buffer does not survive clearing it. -/
theorem clearPending_changeBuffer
    (hf : ∀ r, ({ f r with pending := .integer 0 } : BufferRow) = { r with pending := .integer 0 }) :
    (s.changeBuffer key f).clearPending key = s.clearPending key := by
  have hkey : ∀ r, (f r).key = r.key := by
    intro r
    have hr := congrArg BufferRow.key (hf r)
    exact hr
  simp only [clearPending, changeBuffer, List.map_map]
  congr 1
  refine List.map_congr_left fun r _ => ?_
  simp only [Function.comp]
  by_cases h : r.key = key
  · rw [if_pos h, if_pos ((hkey r).trans h), if_pos h]
    exact hf r
  · rw [if_neg h]

end Changes
/-! ### Incrementing out of range -/

section Incrementing

variable {s : Store} {key key' : String} {n p : Int} {e : Fault}

/-- **An increment that fails** has changed the pending cell of buffers that were there, and what
is in that cell cannot be read. -/
theorem incrementPending_of_error (h : (s.incrementPending key n).1 = .error e) :
    e = .pendingUnreadable ∧
      (s.incrementPending key n).2.pending key = .error .pendingUnreadable ∧
      (s.incrementPending key n).2.clearPending key = s.clearPending key := by
  have hread : (s.addPending key n).pending key = .error e := h
  have he : e = .pendingUnreadable := readCell_eq_error hread
  refine ⟨he, he ▸ hread, ?_⟩
  change (s.addPending key n).clearPending key = s.clearPending key
  rw [addPending]
  cases hb : s.buffer? key with
  | none =>
    -- New buffers hold the increment itself, and that is an integer.
    rw [pending, s.buffer?_addPending key n, hb] at hread
    cases hread
  | some r => exact clearPending_changeBuffer fun _ => rfl

/-- **An increment of what can be read** fails just when the sum is out of range. -/
theorem incrementPending_eq_error_iff (hn : Cell.InRange n) (hp : s.pending key = .ok p) :
    (s.incrementPending key n).1 = .error .pendingUnreadable ↔ ¬Cell.InRange (p + n) := by
  change (s.addPending key n).pending key = .error .pendingUnreadable ↔ _
  have hcell := pending_eq_ok_iff.1 hp
  rw [buffersOf] at hcell
  rw [pending, s.buffer?_addPending key n]
  cases hb : s.buffer? key with
  | none =>
    rw [hb] at hcell
    cases hcell
    rw [Int.zero_add]
    constructor
    · intro h
      cases h
    · exact fun h => absurd hn h
  | some r =>
    rw [hb] at hcell
    have hr : r.pending = .integer p := hcell
    simp only [Option.map_some, Option.getD_some, readCell, hr, Cell.integer?_sum]
    by_cases hrange : Cell.InRange (p + n)
    · simp [hrange]
    · simp [hrange]

end Incrementing

end Store

/-! ### Calls and their answers -/

/-- **What a call on a counter answers.** -/
inductive CounterAnswer where
  /-- A number, or why there is none. -/
  | number (r : Except Store.Fault Int)
  /-- What a commit did, or why it did nothing. -/
  | flushed (r : Except Store.Fault FlushedCounter)
  /-- Nothing can go wrong. -/
  | done

/-- **One call of the store on a counter.** -/
inductive CounterCall where
  /-- Adds to the pending buffer. -/
  | increment (k : CounterName) (n : Int)
  /-- Drops what waits. -/
  | clear (k : CounterName)
  /-- Moves the pending buffer into the flushed one. -/
  | steal (k : CounterName)
  /-- Moves the flushed buffer into the value. -/
  | commit (k : CounterName)
  /-- Asks what waits. -/
  | pending (k : CounterName)
  /-- Asks for the value. -/
  | value (k : CounterName)

namespace CounterCall

/-- **What a call does**: its answer, and the store that it leaves. -/
def run (s : Store) : CounterCall → CounterAnswer × Store
  | increment k n =>
    (.number (s.incrementPending k.key n).1, (s.incrementPending k.key n).2)
  | clear k => (.done, s.clearPending k.key)
  | steal k => (.number (s.stealIncrements k.key).1, (s.stealIncrements k.key).2)
  | commit k =>
    (.flushed (s.commitFlushed k.record k.quantity k.key).1,
      (s.commitFlushed k.record k.quantity k.key).2)
  | pending k => (.number (s.pending k.key), s)
  | value k => (.number (s.counterValue k.record k.quantity), s)

/-- **The answers to calls**, one after another. -/
def answers (s : Store) : List CounterCall → List CounterAnswer
  | [] => []
  | c :: cs => (c.run s).1 :: answers (c.run s).2 cs

/-- Whether a call does not look into the pending buffer of a key. -/
def Spares (key : String) : CounterCall → Prop
  | increment k _ => k.key ≠ key
  | clear _ => True
  | steal k => k.key ≠ key
  | commit _ => True
  | pending k => k.key ≠ key
  | value _ => True

end CounterCall

namespace Store

variable {s s' : Store} {key key' : String}

theorem buffer?_clearPending_of_ne (h : key' ≠ key) :
    (s.clearPending key).buffer? key' = s.buffer? key' :=
  buffer?_changeBuffer_of_ne (fun _ => rfl) h

theorem flushed_clearPending (s : Store) (key key' : String) :
    (s.clearPending key).flushed key' = s.flushed key' := by
  rw [flushed, flushed]
  by_cases h : key' = key
  · rw [h, clearPending, buffer?_changeBuffer]
    · cases s.buffer? key <;> rfl
    · intro r
      rfl
  · rw [buffer?_clearPending_of_ne h]

theorem addPending_clearPending (h : key' ≠ key) (n : Int) :
    (s.clearPending key).addPending key' n = (s.addPending key' n).clearPending key := by
  rw [addPending, buffer?_clearPending_of_ne h, addPending]
  split
  · exact changeBuffer_comm (fun _ => rfl) (fun _ => rfl) fun hkey => absurd hkey.symm h
  · simp only [clearPending, changeBuffer, List.map_append, List.map_singleton, if_neg h]

theorem incrementPending_clearPending (h : key' ≠ key) (n : Int) :
    (s.clearPending key).incrementPending key' n =
      ((s.incrementPending key' n).1, (s.incrementPending key' n).2.clearPending key) := by
  rw [incrementPending, addPending_clearPending h, incrementPending]
  refine Prod.ext ?_ rfl
  change pending _ key' = pending _ key'
  rw [pending, pending, buffer?_clearPending_of_ne h]

theorem stealIncrements_clearPending (h : key' ≠ key) :
    (s.clearPending key).stealIncrements key' =
      ((s.stealIncrements key').1, (s.stealIncrements key').2.clearPending key) := by
  have hmoved : (s.clearPending key).movePending key' = (s.movePending key').clearPending key :=
    changeBuffer_comm (fun _ => rfl) (fun _ => rfl) fun hkey => absurd hkey.symm h
  simp only [stealIncrements, hmoved, flushed_clearPending]
  cases (s.movePending key').flushed key' with
  | error e => rfl
  | ok n =>
    simp only
    split
    · have hkeep : ∀ rows : List BufferRow,
          (rows.map fun r => if r.key = key then { r with pending := .integer 0 } else r).filter
              (·.key ≠ key') =
            (rows.filter (·.key ≠ key')).map fun r =>
              if r.key = key then { r with pending := .integer 0 } else r := by
        intro rows
        rw [List.filter_map]
        congr 2
        funext r
        simp only [Function.comp]
        split <;> rfl
      simp only [clearPending, changeBuffer, hkeep]
    · rfl

theorem commitFlushed_clearPending (s : Store) (key record quantity key' : String) :
    (s.clearPending key).commitFlushed record quantity key' =
      ((s.commitFlushed record quantity key').1,
        (s.commitFlushed record quantity key').2.clearPending key) := by
  have hvalue : (s.clearPending key).counterValue record quantity =
      s.counterValue record quantity := rfl
  have hadd : ∀ n, (s.clearPending key).addToCounter record quantity n =
      (s.addToCounter record quantity n).clearPending key := by
    intro n
    change (if (s.counter? record quantity).isSome then _ else _) = _
    rw [addToCounter]
    split <;> rfl
  rw [commitFlushed, commitFlushed, flushed_clearPending, hvalue]
  cases s.flushed key' with
  | error e => rfl
  | ok increment =>
    cases s.counterValue record quantity with
    | error e => rfl
    | ok previous =>
      have hafter : ((s.addToCounter record quantity increment).clearPending key).changeBuffer key'
          (fun r => { r with flushed := .integer 0 }) =
          ((s.addToCounter record quantity increment).changeBuffer key'
            fun r => { r with flushed := .integer 0 }).clearPending key :=
        changeBuffer_comm (fun _ => rfl) (fun _ => rfl) fun _ _ => rfl
      simp only [hadd, hafter]
      generalize (s.addToCounter record quantity increment).changeBuffer key' _ = after
      have hcounter : (after.clearPending key).counter? record quantity =
          after.counter? record quantity := rfl
      rw [hcounter]
      cases readCell .newValueUnreadable ((after.counter? record quantity).map CounterRow.value) <;>
        rfl

end Store

namespace CounterCall

variable {s s' : Store} {key : String}

/-- **A call that does not look into a pending buffer** does the same before and after that buffer
is cleared. -/
theorem run_clearPending (c : CounterCall) (h : c.Spares key) :
    c.run (s.clearPending key) = ((c.run s).1, (c.run s).2.clearPending key) := by
  cases c with
  | increment k n => simp only [run, Store.incrementPending_clearPending h]
  | clear k =>
    refine Prod.ext rfl ?_
    exact Store.changeBuffer_comm (fun _ => rfl) (fun _ => rfl) fun _ _ => rfl
  | steal k => simp only [run, Store.stealIncrements_clearPending h]
  | commit k => simp only [run, Store.commitFlushed_clearPending]
  | pending k =>
    refine Prod.ext ?_ rfl
    simp only [run, Store.pending, Store.buffer?_clearPending_of_ne h]
  | value k => rfl

/-- **What differs in one pending buffer only** answers alike until somebody looks into it, and
after a clear to the end. -/
theorem answers_eq_of_clearPending_eq (h : s'.clearPending key = s.clearPending key)
    {k : CounterName} (hk : k.key = key) (between later : List CounterCall)
    (hspares : ∀ c ∈ between, c.Spares key) :
    answers s' (between ++ .clear k :: later) = answers s (between ++ .clear k :: later) := by
  induction between generalizing s s' with
  | nil =>
    rw [List.nil_append, answers, answers]
    simp only [run, hk, h]
  | cons c between ih =>
    have hc := hspares c List.mem_cons_self
    have hrun : ((c.run s').1, (c.run s').2.clearPending key) =
        ((c.run s).1, (c.run s).2.clearPending key) := by
      rw [← run_clearPending c hc, ← run_clearPending c hc, h]
    obtain ⟨hanswer, hstore⟩ := Prod.mk.inj hrun
    rw [List.cons_append, answers, answers, hanswer]
    exact congrArg _ (ih hstore fun c' hc' => hspares c' (List.mem_cons_of_mem c hc'))

end CounterCall

/-! ### What a call that fails leaves behind -/

/-- **What an increment out of range leaves** of a store. -/
structure Overflowed (s s' : Store) (k : CounterName) : Prop where
  /-- What waits can no longer be read. -/
  unreadable : s'.pending k.key = .error .pendingUnreadable
  /-- Nothing else has changed. -/
  clear_eq : s'.clearPending k.key = s.clearPending k.key
  /-- The calls that do not look into the buffer answer as before, and after a clear all do. -/
  answers_eq : ∀ between later, (∀ c ∈ between, CounterCall.Spares k.key c) →
    CounterCall.answers s' (between ++ .clear k :: later) =
      CounterCall.answers s (between ++ .clear k :: later)

theorem Overflowed.of_error {s : Store} {k : CounterName} {n : Int} {e : Store.Fault}
    (h : (s.incrementPending k.key n).1 = .error e) :
    Overflowed s (s.incrementPending k.key n).2 k := by
  obtain ⟨-, hunreadable, hclear⟩ := Store.incrementPending_of_error h
  exact ⟨hunreadable, hclear, CounterCall.answers_eq_of_clearPending_eq hclear rfl⟩

namespace Counters

variable {c : Counters} {record quantity : String} {n : Int} {w : World}

/-- What comes to the store of an increment. -/
theorem increment_of_counts (hcounts : c.counts quantity = true) (hn : n ≠ 0)
    (hw : w.database.isPoisoned = false) {answer : Except Store.Fault Int} {s : Store}
    (h : w.store.incrementPending (bufferKey record quantity) n = (answer, s)) :
    c.increment record quantity n w =
      ((answer.bind fun m => (s.counterValue record quantity).map fun _ => some m).mapError
        CounterError.store, w.withStore s) := by
  unfold increment requireCounted
  rw [if_pos hcounts, Action.bind_of_ok (Action.pure_apply () w), if_neg hn]
  generalize hcall : edit _ = call
  have hanswer := hcall ▸ Action.edit_of_sound hw _
  rw [h] at hanswer
  cases answer with
  | error e => exact Action.bind_of_error (Action.mapFault_of_error hanswer _) _
  | ok m =>
    cases hvalue : s.counterValue record quantity with
    | error e =>
      simp only [hvalue] at hanswer
      exact Action.bind_of_error (Action.mapFault_of_error hanswer _) _
    | ok v =>
      simp only [hvalue] at hanswer
      exact Action.bind_of_ok (Action.mapFault_of_ok hanswer _) _

/-- Any other fault than that of a poisoned database comes from the tables. -/
theorem counts_of_fault {e : Store.Fault} (he : e ≠ .poisoned)
    (h : (c.increment record quantity n w).1 = .error (.store e)) :
    c.counts quantity = true ∧ n ≠ 0 ∧ w.database.isPoisoned = false := by
  unfold increment requireCounted at h
  by_cases hcounts : c.counts quantity = true
  · rw [if_pos hcounts, Action.bind_of_ok (Action.pure_apply () w)] at h
    by_cases hn : n = 0
    · rw [if_pos hn] at h
      cases h
    · rw [if_neg hn] at h
      refine ⟨hcounts, hn, Bool.eq_false_iff.2 fun hw => ?_⟩
      rw [Action.bind_of_error (Action.mapFault_of_error (Action.edit_of_poisoned hw _) _)] at h
      cases h
      exact he rfl
  · rw [if_neg hcounts, Action.bind_of_error (Action.throw_apply _ w)] at h
    cases h

/-- **An increment whose sum cannot be read** leaves the store as the call on it does. -/
theorem increment_of_unreadable
    (h : (c.increment record quantity n w).1 = .error (.store .pendingUnreadable)) :
    (w.store.incrementPending (bufferKey record quantity) n).1 = .error .pendingUnreadable ∧
      (c.increment record quantity n w).2 =
        w.withStore (w.store.incrementPending (bufferKey record quantity) n).2 := by
  obtain ⟨hcounts, hn, hw⟩ := counts_of_fault (by decide) h
  cases hcall : w.store.incrementPending (bufferKey record quantity) n with
  | mk answer s =>
    rw [increment_of_counts hcounts hn hw hcall] at h ⊢
    cases answer with
    | error e =>
      cases h
      exact ⟨rfl, rfl⟩
    | ok m =>
      -- The value has words of its own for what cannot be read.
      cases hvalue : s.counterValue record quantity with
      | ok v =>
        rw [hvalue] at h
        cases h
      | error e =>
        obtain rfl := Store.readCell_eq_error hvalue
        rw [hvalue] at h
        cases h

end Counters

/-- **What a call on a counter that fails leaves behind**, in every state of the tables. Stealing
and committing leave the store as it was. An increment of what could be read fails just when the
sum is out of range, and then the sum stays in the pending buffer, which cannot be read from then
on; nothing else has changed, and clearing that buffer undoes it. It is the same for an increment
by way of the service, which leaves the rest of the world as it was. -/
theorem left_by_failure (w : World) (c : Counters) (k : CounterName) (n : Int) :
    (∀ e, (w.store.stealIncrements k.key).1 = .error e →
      (w.store.stealIncrements k.key).2 = w.store) ∧
    (∀ e, (w.store.commitFlushed k.record k.quantity k.key).1 = .error e →
      (w.store.commitFlushed k.record k.quantity k.key).2 = w.store) ∧
    (∀ p, Cell.InRange n → w.store.pending k.key = .ok p →
      ((w.store.incrementPending k.key n).1 = .error .pendingUnreadable ↔
        ¬Cell.InRange (p + n))) ∧
    (∀ e, (w.store.incrementPending k.key n).1 = .error e →
      Overflowed w.store (w.store.incrementPending k.key n).2 k) ∧
    ((c.increment k.record k.quantity n w).1 = .error (.store .pendingUnreadable) →
      ∃ s, (c.increment k.record k.quantity n w).2 = w.withStore s ∧ Overflowed w.store s k) := by
  refine ⟨?_, ?_, ?_, ?_, ?_⟩
  · intro e h
    exact Store.stealIncrements_of_error h
  · intro e h
    exact Store.commitFlushed_of_error h
  · intro p hn hp
    exact Store.incrementPending_eq_error_iff hn hp
  · intro e h
    exact Overflowed.of_error h
  · intro h
    obtain ⟨herror, hworld⟩ := Counters.increment_of_unreadable h
    exact ⟨_, hworld, Overflowed.of_error herror⟩

/-! A counter is incremented by the greatest integer, and then by one. -/

/-- A counter. -/
def fullCounter : CounterName := ⟨"project:1", "size"⟩

/-- The world of a counter whose pending buffer is full. -/
def fullWorld : World :=
  { clock := { wall := .epoch }
    database := { store := (({} : Store).incrementPending fullCounter.key Cell.greatest).2 } }

/-- The counters that are counted there. -/
def fullCounters : Counters := { quantities := ["size"] }

/-- **The full buffer overflows**, and a clear repairs it. -/
theorem left_by_failure_full :
    (fullCounters.increment fullCounter.record fullCounter.quantity 1 fullWorld).1 =
        .error (.store .pendingUnreadable) ∧
      ∃ s, (fullCounters.increment fullCounter.record fullCounter.quantity 1 fullWorld).2 =
          fullWorld.withStore s ∧ Overflowed fullWorld.store s fullCounter :=
  have h : (fullCounters.increment fullCounter.record fullCounter.quantity 1 fullWorld).1 =
      .error (.store .pendingUnreadable) := rfl
  ⟨h, (left_by_failure fullWorld fullCounters fullCounter 1).2.2.2.2 h⟩

/-- **An increment that fails has changed the tables**: what waited could be read before and
cannot be read afterwards. -/
theorem not_unchanged_full :
    (fullWorld.store.incrementPending fullCounter.key 1).1 = .error .pendingUnreadable ∧
      fullWorld.store.pending fullCounter.key = .ok Cell.greatest ∧
      (fullWorld.store.incrementPending fullCounter.key 1).2.pending fullCounter.key =
        .error .pendingUnreadable ∧
      (fullCounters.increment fullCounter.record fullCounter.quantity 1 fullWorld).1 =
        .error (.store .pendingUnreadable) ∧
      (fullCounters.increment fullCounter.record fullCounter.quantity 1 fullWorld).2.store ≠
        fullWorld.store := by
  refine ⟨rfl, rfl, rfl, rfl, ?_⟩
  intro hstore
  have hpending := congrArg (fun s => Store.pending s fullCounter.key) hstore
  cases hpending

end Leasehold
