import Leasehold.Proofs.Counter.Holdings
import Leasehold.Proofs.Lease.Quiet
import Mathlib.Control.Monad.Basic

/-!
# A flush, from end to end

What one flush does to a counter when nothing interferes, whatever is in the tables
(`Leasehold.Flushed`, `Leasehold.Counters.flushed_flush`). The increments that wait and those that
an earlier flush left behind go into the value together, and what becomes of them is for their sum
to say:

* the sum is zero: the buffers are emptied, and nothing else happens;
* the sum, and the value that it makes, are in range: the value is that one, the buffers are empty,
  and every listener is told, once and in order;
* one of the two is out of range: the flush fails, and neither the value nor the sum has changed,
  though the increments may have gone from one buffer to the other.

A value that is no integer makes no value that is in range.

In all three cases the lease is given back. When it could not be had, nothing happens at all.
-/

namespace Leasehold

/-- **What a flush does to a counter** with some increments in its two buffers, by its answer. -/
inductive Moves (q : Counters) (k : CounterName) (f p : Int) (w w' : World) :
    Except CounterError (Option FlushedCounter) → Prop
  /-- The increments cancel out. -/
  | nothing (hsum : f + p = 0) (hcounters : w'.store.counters = w.store.counters)
      (hbuffers : w'.store.Waits k.key 0 0) (hnotices : w'.notices = w.notices) :
      Moves q k f p w w' (.ok none)
  /-- They all go into the value. -/
  | all {v : Int} (hsum : f + p ≠ 0) (hrange : Cell.InRange (f + p))
      (hvalue : w.store.counterValue k.record k.quantity = .ok v)
      (hnew : Cell.InRange (v + (f + p))) (hholds : w'.store.Holds k (v + (f + p)) 0 0)
      (hnotices : w'.notices = w.notices ++ q.listeners.map fun n =>
        ⟨n, k.record, k.quantity, f + p, v, v + (f + p)⟩) :
      Moves q k f p w w' (.ok (some ⟨f + p, v, v + (f + p)⟩))
  /-- Their sum is out of range, or the value that it makes. -/
  | outOfRange {fault : Store.Fault} {f' p' : Int} (hsum : f + p ≠ 0)
      (hrange : Cell.InRange (f + p) → ∀ v, w.store.counterValue k.record k.quantity = .ok v →
        ¬Cell.InRange (v + (f + p)))
      (hcounters : w'.store.counters = w.store.counters) (hbuffers : w'.store.Waits k.key f' p')
      (htotal : f' + p' = f + p) (hnotices : w'.notices = w.notices) :
      Moves q k f p w w' (.error (.store fault))

/-- **How a flush ends**: with its answer, and the world that it leaves. -/
inductive Flushed (q : Counters) (k : CounterName) (f p : Int) (w : World) :
    Except CounterError (Option FlushedCounter) × World → Prop
  /-- The lease is not to be had at any attempt. -/
  | busy {v : World}
      (hrefused : Lease.Refused (Counters.leaseKey k.record k.quantity) q.lock w q.lock.attempts v)
      (honly : w.OnlyTimes v) (hnotices : v.notices = w.notices) :
      Flushed q k f p w (.ok none, v)
  /-- The lease is had, and given back. -/
  | held {guard : LeaseGuard} {isRetry : Bool} {v w' : World}
      {answer : Except CounterError (Option FlushedCounter)}
      (hobtain : Lease.obtain (Counters.leaseKey k.record k.quantity) q.lock w =
        (.ok (guard, isRetry), v))
      (hmoves : Moves q k f p w w' answer)
      (hreleased : w'.lease? (Counters.leaseKey k.record k.quantity) = none)
      (hothers : ∀ key ≠ Counters.leaseKey k.record k.quantity, w'.lease? key = w.lease? key) :
      Flushed q k f p w (answer, w')

variable {q : Counters} {k : CounterName} {f p : Int} {w w' u u' : World}
  {answer : Except CounterError (Option FlushedCounter)}

/-! ### Under the lease -/

namespace Store

variable {s : Store} {record quantity key : String}

/-- Committing to a value that is no integer changes nothing. -/
theorem commitFlushed_of_value_error {e : Fault} (hf : s.flushed key = .ok f)
    (hv : s.counterValue record quantity = .error e) :
    s.commitFlushed record quantity key = (.error e, s) := by
  rw [commitFlushed, hf, hv]

end Store

/-- The part under the lease, in a database that is not poisoned. -/
theorem flushHeld_eq (hw : w.database.isPoisoned = false) :
    q.flushHeld k.record k.quantity w =
      match w.store.stealIncrements k.key with
      | (.error e, s) => (.error (.store e), w.withStore s)
      | (.ok n, s) =>
        if n = 0 then (.ok none, w.withStore s)
        else
          match s.commitFlushed k.record k.quantity k.key with
          | (.error e, s) => (.error (.store e), w.withStore s)
          | (.ok flushed, s) =>
            (.ok (some flushed), { w.withStore s with
              notices := w.notices ++ q.listeners.map fun n =>
                ⟨n, k.record, k.quantity, flushed⟩ }) := by
  have hsteal := Action.edit_of_sound hw fun s => s.stealIncrements k.key
  rw [Counters.flushHeld, show Counters.bufferKey k.record k.quantity = k.key from rfl]
  dsimp only
  cases hstolen : w.store.stealIncrements k.key with
  | mk answer s =>
    rw [hstolen] at hsteal
    cases answer with
    | error e => exact Action.bind_of_error (Action.mapFault_of_error hsteal _) _
    | ok n =>
      rw [Action.bind_of_ok (Action.mapFault_of_ok hsteal _)]
      dsimp only
      split
      · rfl
      · have hcommit := Action.edit_of_sound (w := w.withStore s) hw
          fun s => s.commitFlushed k.record k.quantity k.key
        rw [World.store_withStore] at hcommit
        cases hcommitted : s.commitFlushed k.record k.quantity k.key with
        | mk answer s' =>
          rw [hcommitted] at hcommit
          cases answer with
          | error e => exact Action.bind_of_error (Action.mapFault_of_error hcommit _) _
          | ok flushed => exact Action.bind_of_ok (Action.mapFault_of_ok hcommit _) _

/-- **The part under the lease** does to the counter what a flush does. -/
theorem moves_flushHeld (hw : w.database.isPoisoned = false) (hwaits : w.store.Waits k.key f p) :
    Moves q k f p w (q.flushHeld k.record k.quantity w).2
      (q.flushHeld k.record k.quantity w).1 := by
  have hcounters := w.store.counters_stealIncrements k.key
  have hsteal := hwaits.stealIncrements
  rw [flushHeld_eq hw]
  cases hstolen : w.store.stealIncrements k.key with
  | mk answer s =>
    rw [hstolen] at hcounters hsteal
    rcases hsteal with ⟨rfl, hs, hrange⟩ | ⟨hrange, herror⟩
    · dsimp only at hcounters hs ⊢
      split
      · rename_i hsum
        rw [hsum] at hs
        exact .nothing hsum hcounters hs rfl
      · rename_i hsum
        have hvalue : s.counterValue k.record k.quantity =
            w.store.counterValue k.record k.quantity := by
          rw [Store.counterValue, Store.counter?, hcounters, Store.counterValue, Store.counter?]
        cases hread : w.store.counterValue k.record k.quantity with
        | error e =>
          rw [Store.commitFlushed_of_value_error hs.flushed_eq (hvalue.trans hread)]
          exact .outOfRange hsum (fun _ v hv => by rw [hread] at hv; cases hv) hcounters hs
            (Int.add_zero _) rfl
        | ok v =>
          have hholds : s.Holds k v (f + p) 0 := ⟨hvalue.trans hread, hs.flushed_eq, hs.pending_eq⟩
          have hcommit := hholds.commitFlushed_inRange
          cases hcommitted : s.commitFlushed k.record k.quantity k.key with
          | mk answer s' =>
            rw [hcommitted] at hcommit
            rcases hcommit with ⟨rfl, hs', hnew⟩ | ⟨hnew, herror⟩
            · exact .all hsum hrange hread (hnew hrange) hs' rfl
            · cases herror
              exact .outOfRange hsum (fun _ v' hv' => by rw [hread] at hv'; cases hv'; exact hnew)
                hcounters hs (Int.add_zero _) rfl
    · cases herror
      have hsum : f + p ≠ 0 := fun hzero => hrange (by rw [hzero]; decide)
      exact .outOfRange hsum (fun h => absurd h hrange) rfl hwaits rfl rfl

/-! ### The lease -/

/-- Leases and times are nothing about counters and listeners. -/
theorem Moves.onlyLeases (h : Moves q k f p w w' answer) (hu : u.OnlyLeases w)
    (hnotices : w.notices = u.notices) (hu' : w'.OnlyLeases u')
    (hnotices' : u'.notices = w'.notices) : Moves q k f p u u' answer := by
  have hcounters : w.store.counters = u.store.counters :=
    hu.find_eq (f := Store.counters) fun _ _ => rfl
  have hcounters' : u'.store.counters = w'.store.counters :=
    hu'.find_eq (f := Store.counters) fun _ _ => rfl
  have hvalue : w.store.counterValue k.record k.quantity =
      u.store.counterValue k.record k.quantity :=
    hu.find_eq (f := (·.counterValue k.record k.quantity)) fun _ _ => rfl
  have hvalue' : u'.store.counterValue k.record k.quantity =
      w'.store.counterValue k.record k.quantity :=
    hu'.find_eq (f := (·.counterValue k.record k.quantity)) fun _ _ => rfl
  have hflushed : u'.store.flushed k.key = w'.store.flushed k.key :=
    hu'.find_eq (f := (·.flushed k.key)) fun _ _ => rfl
  have hpending : u'.store.pending k.key = w'.store.pending k.key :=
    hu'.find_eq (f := (·.pending k.key)) fun _ _ => rfl
  have hwaits : ∀ {m n}, w'.store.Waits k.key m n → u'.store.Waits k.key m n := fun h =>
    ⟨hflushed.trans h.flushed_eq, hpending.trans h.pending_eq⟩
  cases h with
  | nothing hsum hsame hbuffers htold =>
    exact .nothing hsum (hcounters'.trans (hsame.trans hcounters)) (hwaits hbuffers)
      (hnotices'.trans (htold.trans hnotices))
  | all hsum hrange hv hnew hholds htold =>
    refine .all hsum hrange (hvalue.symm.trans hv) hnew
      ⟨hvalue'.trans hholds.value_eq, hflushed.trans hholds.flushed_eq,
        hpending.trans hholds.pending_eq⟩ ?_
    rw [hnotices', htold, hnotices]
  | outOfRange hsum hrange hsame hbuffers htotal htold =>
    exact .outOfRange hsum (fun h v hv => hrange h v (hvalue.trans hv))
      (hcounters'.trans (hsame.trans hcounters)) (hwaits hbuffers) htotal
      (hnotices'.trans (htold.trans hnotices))

/-- The leases, and what may make a call on them fail. -/
def leasing (w : World) : Bool × LeaseService × Ledger Int :=
  (w.database.isPoisoned, w.leases, w.store.leases)

/-- **The part under the lease** does nothing to leases. -/
theorem leasing_flushHeld (q : Counters) (record quantity : String) :
    Action.Keeps leasing (q.flushHeld record quantity) := by
  have hedit : ∀ {α : Type} {call : Store → Except Store.Fault α × Store},
      (∀ s, (call s).2.leases = s.leases) → Action.Keeps leasing (edit call) :=
    fun hcall => Action.keeps_edit fun w => congrArg (fun l => (_, _, l)) (hcall w.store)
  have hnotify : ∀ flushed, Action.Keeps leasing (q.notify record quantity flushed) :=
    fun _ _ => rfl
  refine ((hedit fun s => Store.leases_stealIncrements s _).mapFault _).bind fun stolen => ?_
  split
  · exact Action.keeps_pure none
  · refine ((hedit fun s => Store.leases_commitFlushed s _ _ _).mapFault _).bind fun flushed => ?_
    exact (hnotify flushed).bind fun _ => Action.keeps_pure (some flushed)

theorem lease?_eq_of_leasing_eq (h : leasing w' = leasing w) (key : String) :
    w'.lease? key = w.lease? key := by
  obtain ⟨-, hrest⟩ := Prod.mk.inj h
  obtain ⟨hleases, hstore⟩ := Prod.mk.inj hrest
  rw [World.lease?, World.lease?, hleases, hstore]

theorem World.IsQuiet.of_leasing_eq (hw : w.IsQuiet) (h : leasing w' = leasing w) :
    w'.IsQuiet := by
  obtain ⟨hpoisoned, hrest⟩ := Prod.mk.inj h
  exact hw.of_hazards_eq (Prod.ext hpoisoned (congrArg LeaseService.faults (Prod.mk.inj hrest).1))

/-! ### The whole of it -/

namespace Counters

variable {guard : LeaseGuard} {isRetry : Bool} {v : World} {key record quantity : String}
  {attempts : Nat}

/-- A flush that has the lease. -/
theorem flush_of_obtain (hcounts : q.counts quantity = true)
    (hobtain : Lease.obtain (leaseKey record quantity) q.lock w = (.ok (guard, isRetry), v)) :
    q.flush record quantity w =
      ((q.flushHeld record quantity v).1,
        Lease.release guard (q.flushHeld record quantity v).2) := by
  rw [flush, requireCounted, if_pos hcounts, Action.bind_of_ok (Action.pure_apply () w),
    Lease.inLock_of_obtain hobtain]
  cases q.flushHeld record quantity v with
  | mk answer v' =>
    cases answer with
    | error e => rfl
    | ok flushed => rfl

/-- A flush that cannot have it. -/
theorem flush_of_notObtained (hcounts : q.counts quantity = true)
    (hobtain : Lease.obtain (leaseKey record quantity) q.lock w =
      (.error (.notObtained key attempts), v)) :
    q.flush record quantity w = (.ok none, v) := by
  rw [flush, requireCounted, if_pos hcounts, Action.bind_of_ok (Action.pure_apply () w),
    Lease.inLock, hobtain]

/-- **How a flush ends** when nothing interferes. -/
theorem flushed_flush (hw : w.IsQuiet) (hcounts : q.counts k.quantity = true)
    (hwaits : w.store.Waits k.key f p) :
    Flushed q k f p w (q.flush k.record k.quantity w) := by
  have hcalled := Lease.called_obtain (leaseKey k.record k.quantity) q.lock w
  have hquiet := hw.obtain (leaseKey k.record k.quantity) q.lock
  have honly := Lease.onlyLeases_obtain (leaseKey k.record k.quantity) q.lock w
  have hnotices := Lease.notices_obtain (leaseKey k.record k.quantity) q.lock w
  have hfault := hw.obtain_ne_fault (leaseKey k.record k.quantity) q.lock
  cases hobtain : Lease.obtain (leaseKey k.record k.quantity) q.lock w with
  | mk answer v =>
    rw [hobtain] at hcalled hquiet honly hnotices hfault
    cases hcalled with
    | fails => exact absurd rfl (hfault _)
    | refused hrefused =>
      rw [flush_of_notObtained hcounts hobtain]
      exact .busy hrefused hrefused.onlyTimes hnotices
    | @takes n guard u _ hn hrefused hcall =>
      have htaken := Lease.taken_of_call hcall
      obtain ⟨expiry, hself⟩ := htaken.lease_self
      have hu := hrefused.onlyTimes.trans (Lease.onlyTimes_rested q.lock (0 < n) u)
      have hwaits' : v.store.Waits k.key f p :=
        ⟨(honly.find_eq (f := (·.flushed k.key)) fun _ _ => rfl).trans hwaits.flushed_eq,
          (honly.find_eq (f := (·.pending k.key)) fun _ _ => rfl).trans hwaits.pending_eq⟩
      have hleasing := leasing_flushHeld q k.record k.quantity v
      have hsame := lease?_eq_of_leasing_eq hleasing
      have hkey := htaken.key_eq
      rw [flush_of_obtain hcounts hobtain]
      refine .held hobtain ((moves_flushHeld hquiet.isSound hwaits').onlyLeases honly hnotices
        (Lease.onlyLeases_release guard _) ?_) ?_ fun key hne => ?_
      · exact congrArg Journal.notices (Lease.journal_cancel guard _)
      · rw [← hkey] at hself ⊢
        exact (hquiet.of_leasing_eq hleasing).lease?_release ((hsame _).trans hself) rfl
      · calc (Lease.release guard (q.flushHeld k.record k.quantity v).2).lease? key
            = (q.flushHeld k.record k.quantity v).2.lease? key :=
              Lease.lease?_cancel_of_ne (hkey.symm ▸ hne) _
          _ = v.lease? key := hsame key
          _ = (Lease.rested q.lock (0 < n) u).lease? key := htaken.lease_of_ne key hne
          _ = w.lease? key := hu.lease key

/-- A flush keeps the world quiet. -/
theorem isQuiet_flush (hw : w.IsQuiet) (hcounts : q.counts quantity = true) :
    (q.flush record quantity w).2.IsQuiet := by
  have hheld : ∀ (_ : Bool) (u : World), u.IsQuiet → (q.flushHeld record quantity u).2.IsQuiet :=
    fun _ u hu => hu.of_leasing_eq (leasing_flushHeld q record quantity u)
  have hlock := hw.inLock (leaseKey record quantity) q.lock hheld
  rw [flush, requireCounted, if_pos hcounts, Action.bind_of_ok (Action.pure_apply () w)]
  split <;> rename_i hinLock <;> rw [hinLock] at hlock <;> exact hlock

/-- **One flush, and another right after it.** Where nothing interferes, whatever is in the tables
and whoever has the lease, a flush does one of the things that it can do, and when it moved anything
another one right after it finds nothing to move. -/
theorem flush_settles (q : Counters) (k : CounterName) (f p : Int) (w : World) (hw : w.IsQuiet)
    (hcounts : q.counts k.quantity = true) (hwaits : w.store.Waits k.key f p) :
    Flushed q k f p w (q.flush k.record k.quantity w) ∧
      ∀ moved, (q.flush k.record k.quantity w).1 = .ok (some moved) →
        (q.flush k.record k.quantity (q.flush k.record k.quantity w).2).1 = .ok none := by
  have hfirst := flushed_flush hw hcounts hwaits
  refine ⟨hfirst, fun moved hmoved => ?_⟩
  have hquiet : (q.flush k.record k.quantity w).2.IsQuiet := isQuiet_flush hw hcounts
  generalize q.flush k.record k.quantity w = outcome at hfirst hmoved hquiet
  cases hfirst with
  | busy => cases hmoved
  | held hobtain hmoves hreleased hothers =>
    cases hmoves with
    | nothing => cases hmoved
    | outOfRange => cases hmoved
    | all hsum hrange hvalue hnew hholds hnotices =>
      -- Both buffers are empty now.
      have hsecond := flushed_flush hquiet hcounts hholds.waits
      generalize q.flush k.record k.quantity _ = outcome at hsecond
      cases hsecond with
      | busy => rfl
      | held _ hmoves =>
        cases hmoves with
        | nothing => rfl
        | all hsum => exact absurd rfl hsum
        | outOfRange hsum => exact absurd rfl hsum

/-! A flush takes along what an earlier one left between the two calls on the store. -/

/-- The counter of the sizes of a project. -/
def projectSize : CounterName := ⟨"project:1", "size"⟩

/-- A world in which the value is ten, three are left behind, and four more wait. -/
def leftoverWorld : World :=
  { clock := { wall := .epoch }
    database :=
      { store :=
          { counters := [⟨"project:1", "size", .integer 10⟩]
            buffers := [⟨projectSize.key, .integer 4, .integer 3⟩] } } }

/-- Sizes are counted, and two listeners are told. -/
def sizes : Counters := { quantities := ["size"], listeners := [1, 2] }

theorem flush_settles_leftover :
    leftoverWorld.IsQuiet ∧ leftoverWorld.store.Waits projectSize.key 3 4 ∧
      Flushed sizes projectSize 3 4 leftoverWorld (sizes.flush "project:1" "size" leftoverWorld) ∧
      (sizes.flush "project:1" "size" leftoverWorld).1 = .ok (some ⟨7, 10, 17⟩) ∧
      (sizes.flush "project:1" "size"
        (sizes.flush "project:1" "size" leftoverWorld).2).1 = .ok none := by
  have hquiet : leftoverWorld.IsQuiet := ⟨rfl, List.not_mem_nil, List.not_mem_nil⟩
  have hwaits : leftoverWorld.store.Waits projectSize.key 3 4 :=
    ⟨by decide +kernel, by decide +kernel⟩
  have hmoved : (sizes.flush "project:1" "size" leftoverWorld).1 = .ok (some ⟨7, 10, 17⟩) := by
    decide +kernel
  obtain ⟨hflushed, hagain⟩ :=
    flush_settles sizes projectSize 3 4 leftoverWorld hquiet (by decide) hwaits
  exact ⟨hquiet, hwaits, hflushed, hmoved, hagain _ hmoved⟩

end Counters

end Leasehold
