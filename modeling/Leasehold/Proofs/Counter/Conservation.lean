import Leasehold.Proofs.Counter.Holdings
import Leasehold.Proofs.Lease.Lock
import Mathlib.Algebra.BigOperators.Group.List.Basic
import Mathlib.Algebra.Ring.Int.Defs
import Mathlib.Logic.Function.Basic

/-!
# Increments are neither lost nor counted twice

Increments, clears and flushes of many counters reach the store in any order. A flush makes two
calls, and between them anything may happen: other flushes of the same counter may steal and
commit, or the flush may crash and leave the flushed buffer to the next one.

What happened is a list of calls with their answers (`Leasehold.Happening`), and
`Leasehold.Flushers.Run` says that the store answered so. From that list alone one can tell what a
counter was given (`Leasehold.Flushers.added`), what was dropped by clearing it
(`Leasehold.Flushers.dropped`) and what its flushes reported (`Leasehold.Flushers.commits`). The
books balance after every call (`Leasehold.Flushers.Balanced`): what the counter holds in its
three places, with what was dropped, is what it was given, and each commit goes on from the value
at which the last one stopped (`Leasehold.Flushers.conserved`).

A flush that nobody disturbs is a run, too (`Leasehold.Flushers.run_flush`).
-/

namespace Leasehold

/-! ### What happens -/

/-- **One call on the store**, with its answer. -/
inductive Happening (ι : Type) where
  /-- A counter was incremented. -/
  | incremented (k : CounterName) (n : Int) (answer : Except Store.Fault Int)
  /-- A counter was cleared, and this was in its pending buffer. -/
  | cleared (k : CounterName) (dropped : Except Store.Fault Int)
  /-- A flush has stolen what waited. -/
  | stole (i : ι) (k : CounterName) (answer : Except Store.Fault Int)
  /-- A flush has committed what it found flushed. -/
  | committed (i : ι) (k : CounterName) (answer : Except Store.Fault FlushedCounter)
  /-- A flush crashed. -/
  | crashed (i : ι)
  /-- Something else in the store has changed. -/
  | elsewhere

namespace Happening

variable {ι : Type}

/-- The counter that a call was made for. -/
def counter? : Happening ι → Option CounterName
  | incremented k _ _ => some k
  | cleared k _ => some k
  | stole _ k _ => some k
  | committed _ k _ => some k
  | crashed _ => none
  | elsewhere => none

/-- What a call gives to a counter. -/
def adds (k : CounterName) : Happening ι → Int
  | incremented k' n _ => if k' = k then n else 0
  | _ => 0

/-- What a call drops of a counter. -/
def drops (k : CounterName) : Happening ι → Int
  | cleared k' (.ok n) => if k' = k then n else 0
  | _ => 0

/-- What a call reports to have been flushed of a counter. -/
def commit? (k : CounterName) : Happening ι → Option FlushedCounter
  | committed _ k' (.ok c) => if k' = k then some c else none
  | _ => none

/-- The calls for other counters are no entries in the books of a counter. -/
theorem no_entries {x : Happening ι} {k : CounterName} (h : x.counter? ≠ some k) :
    x.adds k = 0 ∧ x.drops k = 0 ∧ x.commit? k = none := by
  have hne : ∀ k', x.counter? = some k' → k' ≠ k := by
    rintro k' hk rfl
    exact h hk
  cases x with
  | incremented k' n answer => exact ⟨if_neg (hne k' rfl), rfl, rfl⟩
  | cleared k' dropped =>
    cases dropped with
    | error e => exact ⟨rfl, rfl, rfl⟩
    | ok n => exact ⟨rfl, if_neg (hne k' rfl), rfl⟩
  | stole i k' answer => exact ⟨rfl, rfl, rfl⟩
  | committed i k' answer =>
    cases answer with
    | error e => exact ⟨rfl, rfl, rfl⟩
    | ok c => exact ⟨rfl, rfl, if_neg (hne k' rfl)⟩
  | crashed i => exact ⟨rfl, rfl, rfl⟩
  | elsewhere => exact ⟨rfl, rfl, rfl⟩

end Happening

/-! ### Flushes between their two calls -/

/-- **The store and the flushes under way**, each between its two calls. -/
structure Flushers (ι : Type) where
  /-- The store they share. -/
  store : Store := {}
  /-- The counter of each flush that has stolen something and not committed yet. -/
  midway : ι → Option CounterName := fun _ => none

namespace Flushers

variable {ι : Type} [DecidableEq ι]

/-- A flush goes on to its second call unless there was nothing to steal. -/
def afterSteal (k : CounterName) : Except Store.Fault Int → Option CounterName
  | .error _ => none
  | .ok n => if n = 0 then none else some k

/-- **The store answers one call.** -/
inductive Step : Flushers ι → Happening ι → Flushers ι → Prop
  /-- A counter is incremented. -/
  | increment (c : Flushers ι) (k : CounterName) (n : Int) :
      Step c (.incremented k n (c.store.incrementPending k.key n).1)
        { c with store := (c.store.incrementPending k.key n).2 }
  /-- A counter is cleared. -/
  | clear (c : Flushers ι) (k : CounterName) :
      Step c (.cleared k (c.store.pending k.key)) { c with store := c.store.clearPending k.key }
  /-- A flush begins and steals. -/
  | steal (c : Flushers ι) (i : ι) (k : CounterName) (hi : c.midway i = none) :
      Step c (.stole i k (c.store.stealIncrements k.key).1)
        { store := (c.store.stealIncrements k.key).2
          midway := Function.update c.midway i
            (afterSteal k (c.store.stealIncrements k.key).1) }
  /-- A flush commits and ends. -/
  | commit (c : Flushers ι) (i : ι) (k : CounterName) (hi : c.midway i = some k) :
      Step c (.committed i k (c.store.commitFlushed k.record k.quantity k.key).1)
        { store := (c.store.commitFlushed k.record k.quantity k.key).2
          midway := Function.update c.midway i none }
  /-- A flush crashes. -/
  | crash (c : Flushers ι) (i : ι) :
      Step c (.crashed i) { c with midway := Function.update c.midway i none }
  /-- Something else in the store changes. -/
  | elsewhere (c : Flushers ι) (s : Store) (hcounters : s.counters = c.store.counters)
      (hbuffers : s.buffers = c.store.buffers) : Step c .elsewhere { c with store := s }

theorem Step.of_incremented {c c' : Flushers ι} {k : CounterName} {n : Int}
    {answer : Except Store.Fault Int} (h : Step c (.incremented k n answer) c') :
    (c.store.incrementPending k.key n).1 = answer := by
  generalize hx : Happening.incremented k n answer = x at h
  cases h with
  | increment k' n' =>
    injection hx with hk hn hanswer
    rw [hk, hn, hanswer]
  | _ => cases hx

theorem Step.of_stole {c c' : Flushers ι} {i : ι} {k : CounterName}
    {answer : Except Store.Fault Int} (h : Step c (.stole i k answer) c') :
    (c.store.stealIncrements k.key).1 = answer ∧
      c'.store = (c.store.stealIncrements k.key).2 := by
  generalize hx : Happening.stole i k answer = x at h
  cases h with
  | steal i' k' hi =>
    injection hx with hi hk hanswer
    rw [hk, hanswer]
    exact ⟨rfl, rfl⟩
  | _ => cases hx

theorem Step.of_committed {c c' : Flushers ι} {i : ι} {k : CounterName}
    {answer : Except Store.Fault FlushedCounter} (h : Step c (.committed i k answer) c') :
    (c.store.commitFlushed k.record k.quantity k.key).1 = answer ∧
      c'.store = (c.store.commitFlushed k.record k.quantity k.key).2 := by
  generalize hx : Happening.committed i k answer = x at h
  cases h with
  | commit i' k' hi =>
    injection hx with hi hk hanswer
    rw [hk, hanswer]
    exact ⟨rfl, rfl⟩
  | _ => cases hx

/-- **The store answers some calls**, one after another. -/
inductive Run : Flushers ι → List (Happening ι) → Flushers ι → Prop
  /-- No call was made. -/
  | nil (c : Flushers ι) : Run c [] c
  /-- One more call was made. -/
  | snoc {c c' c'' : Flushers ι} {hs : List (Happening ι)} {x : Happening ι}
      (h : Run c hs c') (hstep : Step c' x c'') : Run c (hs ++ [x]) c''

theorem Run.trans {c c' c'' : Flushers ι} {hs hs' : List (Happening ι)} (h : Run c hs c')
    (h' : Run c' hs' c'') : Run c (hs ++ hs') c'' := by
  induction h' with
  | nil =>
    rw [List.append_nil]
    exact h
  | snoc _ hstep ih =>
    rw [← List.append_assoc]
    exact ih.snoc hstep

/-! ### The books of a counter -/

section Books

variable (k : CounterName) (hs : List (Happening ι))

/-- All that a counter was given. -/
def added : Int := (hs.map (Happening.adds k)).sum

/-- All that was dropped by clearing a counter. -/
def dropped : Int := (hs.map (Happening.drops k)).sum

/-- What the flushes of a counter reported, in the order of their commits. -/
def commits : List FlushedCounter := hs.filterMap (Happening.commit? k)

variable (x : Happening ι)

omit [DecidableEq ι]

theorem added_snoc : added k (hs ++ [x]) = added k hs + x.adds k := by
  simp [added]

theorem dropped_snoc : dropped k (hs ++ [x]) = dropped k hs + x.drops k := by
  simp [dropped]

theorem commits_snoc : commits k (hs ++ [x]) = commits k hs ++ (x.commit? k).toList := by
  unfold commits
  rw [List.filterMap_append]
  cases hx : x.commit? k <;> simp [hx]

end Books

/-- **Reports that go on from each other**, from a first value to a last one: each begins with the
value at which the one before ended, and ends with its increment added. -/
def Chain (first : Int) : List FlushedCounter → Int → Prop
  | [], last => last = first
  | c :: cs, last =>
    c.previous = first ∧ c.current = c.previous + c.increment ∧ Chain c.current cs last

theorem Chain.snoc {first last n : Int} {cs : List FlushedCounter} (h : Chain first cs last) :
    Chain first (cs ++ [⟨n, last, last + n⟩]) (last + n) := by
  induction cs generalizing first with
  | nil => exact ⟨h, rfl, rfl⟩
  | cons c cs ih => exact ⟨h.1, h.2.1, ih h.2.2⟩

/-- **The books balance**: with what was dropped, the counter holds what it was given, and the
reports of its flushes lead from zero to its value. -/
structure Balanced (k : CounterName) (hs : List (Happening ι)) (s : Store) (v f p : Int) :
    Prop where
  /-- What the counter holds. -/
  holds : s.Holds k v f p
  /-- Nothing is lost or counted twice. -/
  sum_eq : v + f + p + dropped k hs = added k hs
  /-- Each commit goes on where the last one stopped. -/
  chain : Chain 0 (commits k hs) v

variable {c c' : Flushers ι} {k : CounterName} {hs : List (Happening ι)} {x : Happening ι}

namespace Balanced

variable {s s' : Store} {v f p : Int}

omit [DecidableEq ι] in
/-- A call that commits nothing and moves increments as it says. -/
theorem move (hb : Balanced k hs s v f p) {f' p' : Int} (hh : s'.Holds k v f' p')
    (hsum : f' + p' + x.drops k = f + p + x.adds k) (hx : x.commit? k = none) :
    Balanced k (hs ++ [x]) s' v f' p' := by
  have hbalance := hb.sum_eq
  refine ⟨hh, ?_, ?_⟩
  · rw [added_snoc, dropped_snoc]
    omega
  · rw [commits_snoc, hx, Option.toList_none, List.append_nil]
    exact hb.chain

omit [DecidableEq ι] in
/-- A call that is no entry in the books. -/
theorem other (hb : Balanced k hs s v f p) (hh : s'.Holds k v f p) (hx : x.counter? ≠ some k) :
    Balanced k (hs ++ [x]) s' v f p := by
  obtain ⟨hadds, hdrops, hcommit⟩ := Happening.no_entries hx
  refine hb.move hh ?_ hcommit
  rw [hadds, hdrops]

omit [DecidableEq ι] in
/-- A commit that reports what it did. -/
theorem commit (hb : Balanced k hs s v f p) (hh : s'.Holds k (v + f) 0 p) (i : ι) :
    Balanced k (hs ++ [.committed i k (.ok ⟨f, v, v + f⟩)]) s' (v + f) 0 p := by
  have hbalance := hb.sum_eq
  have hentry : Happening.commit? k (.committed i k (.ok ⟨f, v, v + f⟩)) = some ⟨f, v, v + f⟩ :=
    if_pos rfl
  refine ⟨hh, ?_, ?_⟩
  · rw [added_snoc, dropped_snoc]
    simp only [Happening.adds, Happening.drops]
    omega
  · rw [commits_snoc, hentry]
    exact hb.chain.snoc

end Balanced

/-- **Every call keeps the books balanced**, as long as no increment of the counter fails and no
other counter has its key. -/
theorem Balanced.step {v f p : Int} (hb : Balanced k hs c.store v f p) (h : Step c x c')
    (hkey : ∀ k' ∈ x.counter?, k'.key = k.key → k' = k)
    (hpending : ∀ n e, x ≠ .incremented k n (.error e)) :
    ∃ v' f' p', Balanced k (hs ++ [x]) c'.store v' f' p' := by
  by_cases hx : x.counter? = some k
  · cases h with
    | increment k' n =>
      obtain rfl : k' = k := Option.some.inj hx
      cases hm : (c.store.incrementPending k'.key n).1 with
      | error e => exact absurd (congrArg (Happening.incremented k' n) hm) (hpending n e)
      | ok m =>
        obtain ⟨hsum, hh⟩ := hb.holds.incrementPending hm
        refine ⟨v, f, m, hb.move hh ?_ rfl⟩
        simp only [Happening.adds, Happening.drops, if_pos]
        omega
    | clear k' =>
      obtain rfl : k' = k := Option.some.inj hx
      refine ⟨v, f, 0, hb.move hb.holds.clearPending ?_ ?_⟩
      · rw [hb.holds.pending_eq]
        simp only [Happening.adds, Happening.drops, if_pos]
        omega
      · rfl
    | steal i k' hi =>
      obtain rfl : k' = k := Option.some.inj hx
      rcases hb.holds.stealIncrements with ⟨-, hh⟩ | ⟨-, herror⟩
      · refine ⟨v, f + p, 0, hb.move hh ?_ rfl⟩
        simp only [Happening.adds, Happening.drops]
        omega
      · rw [herror]
        exact ⟨v, f, p, hb.move hb.holds rfl rfl⟩
    | commit i k' hi =>
      obtain rfl : k' = k := Option.some.inj hx
      rcases hb.holds.commitFlushed with ⟨hok, hh⟩ | ⟨-, herror⟩
      · rw [hok]
        exact ⟨v + f, 0, p, hb.commit hh i⟩
      · rw [herror]
        exact ⟨v, f, p, hb.move hb.holds rfl rfl⟩
    | crash i => cases hx
    | elsewhere s hcounters hbuffers => cases hx
  · refine ⟨v, f, p, hb.other ?_ hx⟩
    have hne : ∀ k', x.counter? = some k' → k.key ≠ k'.key := by
      intro k' hk' heq
      obtain rfl := hkey k' hk' heq.symm
      exact hx hk'
    cases h with
    | increment k' n => exact hb.holds.incrementPending_of_ne (hne k' rfl) n
    | clear k' => exact hb.holds.clearPending_of_ne (hne k' rfl)
    | steal i k' hi => exact hb.holds.stealIncrements_of_ne (hne k' rfl)
    | commit i k' hi => exact hb.holds.commitFlushed_of_ne (hne k' rfl)
    | crash i => exact hb.holds
    | elsewhere s hcounters hbuffers =>
      refine hb.holds.congr ?_ ?_
      · rw [Store.counter?, hcounters]
        rfl
      · rw [Store.buffer?, hbuffers]
        rfl

/-- **Every run keeps the books balanced.** -/
theorem Run.balanced (h : Run c hs c') (hcounter : c.store.counter? k.record k.quantity = none)
    (hbuffer : c.store.buffer? k.key = none)
    (hkey : ∀ x ∈ hs, ∀ k' ∈ x.counter?, k'.key = k.key → k' = k)
    (hpending : ∀ n e, .incremented k n (.error e) ∉ hs) :
    ∃ v f p, Balanced k hs c'.store v f p := by
  induction h with
  | nil => exact ⟨0, 0, 0, .of_absent hcounter hbuffer, rfl, rfl⟩
  | @snoc c' c'' hs x h hstep ih =>
    obtain ⟨v, f, p, hb⟩ := ih (fun y hy => hkey y (List.mem_append_left _ hy))
      (fun n e he => hpending n e (List.mem_append_left _ he))
    have hx : x ∈ hs ++ [x] := List.mem_append_right _ List.mem_cons_self
    refine hb.step hstep (hkey x hx) ?_
    rintro n e rfl
    exact hpending n e hx

/-! ### A flush that nobody disturbs -/

section Undisturbed

variable {i : ι} {w : World}

/-- The two calls of a flush, when nobody comes between them. -/
theorem run_flushHeld (q : Counters) (hstore : c.store = w.store) (hi : c.midway i = none)
    (k : CounterName) :
    ∃ hs c', Run c hs c' ∧ c'.midway i = none ∧
      c'.store = (q.flushHeld k.record k.quantity w).2.store := by
  have hkey : Counters.bufferKey k.record k.quantity = k.key := rfl
  rw [Counters.flushHeld]
  simp only [hkey]
  cases hw : w.database.isPoisoned with
  | true =>
    rw [Action.bind_of_error (Action.mapFault_of_error (Action.edit_of_poisoned hw _) _)]
    exact ⟨[], c, .nil c, hi, hstore⟩
  | false =>
    have hsteal := (Run.nil c).snoc (.steal c i k hi)
    rw [hstore] at hsteal
    have hedit := Action.edit_of_sound hw fun s => s.stealIncrements k.key
    generalize hstolen : w.store.stealIncrements k.key = stolen at hsteal hedit
    obtain ⟨answer, s⟩ := stolen
    cases answer with
    | error e =>
      rw [Action.bind_of_error (Action.mapFault_of_error hedit _)]
      exact ⟨_, _, hsteal, Function.update_self _ _ _, rfl⟩
    | ok n =>
      rw [Action.bind_of_ok (Action.mapFault_of_ok hedit _)]
      by_cases hn : n = 0
      · rw [if_pos hn]
        exact ⟨_, _, hsteal, (Function.update_self _ _ _).trans (if_pos hn), rfl⟩
      · have hmidway : afterSteal k (.ok n) = some k := if_neg hn
        have hcommit := Step.commit ⟨s, Function.update c.midway i (afterSteal k (.ok n))⟩ i k
          ((Function.update_self _ _ _).trans hmidway)
        have hedit' := Action.edit_of_sound (w := w.withStore s) hw
          fun s => s.commitFlushed k.record k.quantity k.key
        rw [World.store_withStore] at hedit'
        have hrun := hsteal.snoc hcommit
        rw [if_neg hn]
        generalize s.commitFlushed k.record k.quantity k.key = committed at hedit' hrun
        obtain ⟨answer, s'⟩ := committed
        refine ⟨_, _, hrun, Function.update_self _ _ _, ?_⟩
        cases answer with
        | error e =>
          rw [Action.bind_of_error (Action.mapFault_of_error hedit' _)]
          rfl
        | ok flushed =>
          rw [Action.bind_of_ok (Action.mapFault_of_ok hedit' _)]
          rfl

/-- Calls on the lease service are nothing to counters. -/
theorem run_onlyLeases {w' : World} (hstore : c.store = w.store) (h : w.OnlyLeases w') :
    Run c [.elsewhere] { c with store := w'.store } := by
  have hcounters := congrArg Store.counters h.store
  have hbuffers := congrArg Store.buffers h.store
  rw [← hstore] at hcounters hbuffers
  exact (Run.nil c).snoc (.elsewhere c w'.store hcounters hbuffers)

/-- A flush leaves the world as its work under the lease does. -/
theorem flush_world (q : Counters) (record quantity : String) (w : World) :
    (q.flush record quantity w).2 =
      if q.counts quantity then
        (Lease.inLock (Counters.leaseKey record quantity) q.lock
          (fun _ => q.flushHeld record quantity) w).2
      else w := by
  unfold Counters.flush Counters.requireCounted
  by_cases hcounts : q.counts quantity = true
  · rw [if_pos hcounts, if_pos hcounts, Action.bind_of_ok (Action.pure_apply () w)]
    split <;> rename_i hlock <;> rw [hlock]
  · rw [if_neg hcounts, if_neg hcounts, Action.bind_of_error (Action.throw_apply _ w)]

/-- **A flush that nobody disturbs** is a run: it leaves the store as `Leasehold.Counters.flush`
does, however it ends. -/
theorem run_flush (q : Counters) (hstore : c.store = w.store) (hi : c.midway i = none)
    (k : CounterName) :
    ∃ hs c', Run c hs c' ∧ c'.midway i = none ∧
      c'.store = (q.flush k.record k.quantity w).2.store := by
  rw [flush_world]
  split
  · have htake := run_onlyLeases hstore
      (Lease.onlyLeases_obtain (Counters.leaseKey k.record k.quantity) q.lock w)
    rcases Lease.inLock_cases (Counters.leaseKey k.record k.quantity) q.lock
      (fun _ => q.flushHeld k.record k.quantity) w with ⟨guard, isRetry, -, hworld⟩ | ⟨-, hworld⟩
    · obtain ⟨hs, c', hwork, hi', hstore'⟩ := run_flushHeld (c := { c with store := _ }) q rfl hi k
      have hgive := run_onlyLeases hstore' (Lease.onlyLeases_release guard _)
      rw [hworld]
      exact ⟨_, _, (htake.trans hwork).trans hgive, hi', rfl⟩
    · rw [hworld]
      exact ⟨_, _, htake, hi, rfl⟩
  · exact ⟨[], c, .nil c, hi, hstore⟩

end Undisturbed

/-! ### Nothing is lost or counted twice -/

/-- **Increments are neither lost nor counted twice.** Take a counter that has no rows at first,
and whose key no other counter has that is called for; and any calls among which no increment of
it has failed, which one only does when its pending buffer would leave the range. Then, with what
was dropped, it holds what it was given; its commits lead from zero to its value, each from where
the last one stopped; and a steal or commit that fails now changes nothing, and does so for this
counter only where the sum is out of range. -/
theorem conserved (h : Run c hs c') (hcounter : c.store.counter? k.record k.quantity = none)
    (hbuffer : c.store.buffer? k.key = none)
    (hkey : ∀ x ∈ hs, ∀ k' ∈ x.counter?, k'.key = k.key → k' = k)
    (hpending : ∀ n e, .incremented k n (.error e) ∉ hs) :
    ∃ v f p, c'.store.Holds k v f p ∧ v + f + p + dropped k hs = added k hs ∧
      Chain 0 (commits k hs) v ∧
      (∀ n e c'', Step c' (.incremented k n (.error e)) c'' → ¬Cell.InRange (p + n)) ∧
      (∀ i k' e c'', Step c' (.stole i k' (.error e)) c'' →
        c''.store = c'.store ∧ (k' = k → ¬Cell.InRange (f + p))) ∧
      ∀ i k' e c'', Step c' (.committed i k' (.error e)) c'' →
        c''.store = c'.store ∧ (k' = k → ¬Cell.InRange (v + f)) := by
  obtain ⟨v, f, p, hb⟩ := h.balanced hcounter hbuffer hkey hpending
  refine ⟨v, f, p, hb.holds, hb.sum_eq, hb.chain, ?_, ?_, ?_⟩
  · intro n e c'' hstep
    exact hb.holds.incrementPending_eq_error hstep.of_incremented
  · intro i k' e c'' hstep
    obtain ⟨herror, hstore⟩ := hstep.of_stole
    refine ⟨hstore.trans (Store.stealIncrements_of_error herror), ?_⟩
    rintro rfl
    rcases hb.holds.stealIncrements with ⟨hok, -⟩ | ⟨hrange, -⟩
    · rw [hok] at herror
      cases herror
    · exact hrange
  · intro i k' e c'' hstep
    obtain ⟨herror, hstore⟩ := hstep.of_committed
    refine ⟨hstore.trans (Store.commitFlushed_of_error herror), ?_⟩
    rintro rfl
    rcases hb.holds.commitFlushed with ⟨hok, -⟩ | ⟨hrange, -⟩
    · rw [hok] at herror
      cases herror
    · exact hrange

/-! Two flushes overlap: both steal before either commits, so the first one commits what both have
stolen and the second one nothing. What waits then is cleared, another counter of the record is
incremented, and a third flush crashes between its two calls. -/

/-- A counter. -/
def sizeCounter : CounterName := ⟨"project:1", "size"⟩

/-- Another counter of the record. -/
def countCounter : CounterName := ⟨"project:1", "count"⟩

/-- The calls. -/
def overlap : List (Happening Bool) :=
  [.incremented sizeCounter 5 (.ok 5), .stole false sizeCounter (.ok 5),
    .incremented sizeCounter (-2) (.ok (-2)), .stole true sizeCounter (.ok 3),
    .committed false sizeCounter (.ok ⟨3, 0, 3⟩), .committed true sizeCounter (.ok ⟨0, 3, 3⟩),
    .incremented sizeCounter 7 (.ok 7), .cleared sizeCounter (.ok 7),
    .incremented countCounter 1 (.ok 1), .incremented sizeCounter 4 (.ok 4),
    .stole false sizeCounter (.ok 4), .crashed false]

theorem run_overlap : ∃ c, Run ({} : Flushers Bool) overlap c := by
  have h₁ := (Run.nil ({} : Flushers Bool)).snoc (.increment _ sizeCounter 5)
  have h₂ := h₁.snoc (.steal _ false sizeCounter rfl)
  have h₃ := h₂.snoc (.increment _ sizeCounter (-2))
  have h₄ := h₃.snoc (.steal _ true sizeCounter rfl)
  have h₅ := h₄.snoc (.commit _ false sizeCounter rfl)
  have h₆ := h₅.snoc (.commit _ true sizeCounter rfl)
  have h₇ := h₆.snoc (.increment _ sizeCounter 7)
  have h₈ := h₇.snoc (.clear _ sizeCounter)
  have h₉ := h₈.snoc (.increment _ countCounter 1)
  have h₁₀ := h₉.snoc (.increment _ sizeCounter 4)
  have h₁₁ := h₁₀.snoc (.steal _ false sizeCounter rfl)
  exact ⟨_, h₁₁.snoc (.crash _ false)⟩

theorem conserved_overlap :
    ∃ c, Run ({} : Flushers Bool) overlap c ∧
      commits sizeCounter overlap = [⟨3, 0, 3⟩, ⟨0, 3, 3⟩] ∧ added sizeCounter overlap = 14 ∧
      dropped sizeCounter overlap = 7 ∧
      ∃ v f p, c.store.Holds sizeCounter v f p ∧
        v + f + p + dropped sizeCounter overlap = added sizeCounter overlap ∧
        Chain 0 (commits sizeCounter overlap) v := by
  obtain ⟨c, h⟩ := run_overlap
  obtain ⟨v, f, p, hholds, hsum, hchain, -⟩ := conserved (k := sizeCounter) h rfl rfl
    (by decide) (by simp [overlap])
  exact ⟨c, h, rfl, rfl, rfl, v, f, p, hholds, hsum, hchain⟩

end Flushers

end Leasehold
