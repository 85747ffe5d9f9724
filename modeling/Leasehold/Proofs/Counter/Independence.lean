import Leasehold.Proofs.Counter.Conservation
import Leasehold.Proofs.Counter.Names
import Leasehold.Proofs.Lease.Sight

/-!
# Counters do not disturb each other, unless their names run into one another

The buffers and the lease of a counter have a key, which is put together from the two names of the
counter; its value is kept under the two names. A call on a counter looks at what is kept under its
key and under its names, and at nothing else (`Leasehold.Counters.alikeOn_serve`), and a call on a
counter of another key shows nothing there (`Leasehold.Counters.keeps_serve`). So the calls on a
counter get the replies that they would get if the calls on counters of other keys had never been
made, and leave it the same lease (`Leasehold.Counters.independent`).

Two counters have one key when one of them runs into the other. Such counters have one buffer and
one lease between them, but a value each, and what waits for the one is flushed into the other
(`Leasehold.Counters.not_independent_nested`).
-/

namespace Leasehold

namespace CounterName

variable {k k' : CounterName}

/-! ### The rows of a counter -/

/-- **The rows of a counter**: the one of its buffers, and the one of its value. -/
def rows (k : CounterName) (s : Store) : Option Store.BufferRow × Option Store.CounterRow :=
  (s.buffer? k.key, s.counter? k.record k.quantity)

/-- **A call on the store stays with a counter**: it leaves the leases, and what it answers and the
rows that it leaves to the counter are for the rows to say that the counter has. -/
structure Owns (k : CounterName) {α : Type} (f : Store → Except Store.Fault α × Store) : Prop where
  /-- The leases are left. -/
  leases : ∀ s, (f s).2.leases = s.leases
  /-- It answers by the rows. -/
  answer : ∀ s s', k.rows s = k.rows s' → (f s).1 = (f s').1
  /-- It leaves rows that depend on the rows. -/
  rows : ∀ s s', k.rows s = k.rows s' → k.rows (f s).2 = k.rows (f s').2

section Rows

variable {s s' : Store} (h : k.rows s = k.rows s')

include h

theorem buffer?_eq_of_rows_eq : s.buffer? k.key = s'.buffer? k.key := congrArg Prod.fst h

theorem counter?_eq_of_rows_eq :
    s.counter? k.record k.quantity = s'.counter? k.record k.quantity := congrArg Prod.snd h

theorem pending_eq_of_rows_eq : s.pending k.key = s'.pending k.key := by
  rw [Store.pending, Store.pending, buffer?_eq_of_rows_eq h]

theorem flushed_eq_of_rows_eq : s.flushed k.key = s'.flushed k.key := by
  rw [Store.flushed, Store.flushed, buffer?_eq_of_rows_eq h]

theorem counterValue_eq_of_rows_eq :
    s.counterValue k.record k.quantity = s'.counterValue k.record k.quantity := by
  rw [Store.counterValue, Store.counterValue, counter?_eq_of_rows_eq h]

theorem rows_changeBuffer {f : Store.BufferRow → Store.BufferRow}
    (hf : ∀ r, (f r).key = r.key) :
    k.rows (s.changeBuffer k.key f) = k.rows (s'.changeBuffer k.key f) := by
  rw [CounterName.rows, CounterName.rows, Store.buffer?_changeBuffer hf,
    Store.buffer?_changeBuffer hf, buffer?_eq_of_rows_eq h]
  have hcounter := counter?_eq_of_rows_eq h
  exact Prod.ext rfl hcounter

theorem rows_addPending (n : Int) :
    k.rows (s.addPending k.key n) = k.rows (s'.addPending k.key n) := by
  refine Prod.ext ?_ ?_
  · change (s.addPending k.key n).buffer? k.key = (s'.addPending k.key n).buffer? k.key
    rw [Store.buffer?_addPending, Store.buffer?_addPending, buffer?_eq_of_rows_eq h]
  · change (s.addPending k.key n).counter? k.record k.quantity =
      (s'.addPending k.key n).counter? k.record k.quantity
    rw [Store.counter?, Store.counter?, Store.counters_addPending, Store.counters_addPending]
    exact counter?_eq_of_rows_eq h

theorem rows_addToCounter (n : Int) :
    k.rows (s.addToCounter k.record k.quantity n) =
      k.rows (s'.addToCounter k.record k.quantity n) := by
  refine Prod.ext ?_ ?_
  · change (s.addToCounter k.record k.quantity n).buffer? k.key =
      (s'.addToCounter k.record k.quantity n).buffer? k.key
    rw [Store.buffer?, Store.buffer?, Store.buffers_addToCounter, Store.buffers_addToCounter]
    exact buffer?_eq_of_rows_eq h
  · change (s.addToCounter k.record k.quantity n).counter? k.record k.quantity =
      (s'.addToCounter k.record k.quantity n).counter? k.record k.quantity
    rw [Store.counter?_addToCounter, Store.counter?_addToCounter, counter?_eq_of_rows_eq h]

end Rows

/-- **Clearing** stays with the counter. -/
theorem owns_clearPending (k : CounterName) :
    k.Owns fun s => (.ok (), s.clearPending k.key) where
  leases _ := rfl
  answer _ _ _ := rfl
  rows _ _ h := rows_changeBuffer h fun _ => rfl

/-- What an increment by way of the service does to the store. -/
def addAndRead (k : CounterName) (n : Int) (s : Store) : Except Store.Fault Int × Store :=
  match s.incrementPending k.key n with
  | (.error e, s) => (.error e, s)
  | (.ok m, s) => ((s.counterValue k.record k.quantity).map fun _ => m, s)

theorem store_addAndRead (k : CounterName) (n : Int) (s : Store) :
    (k.addAndRead n s).2 = s.addPending k.key n := by
  unfold addAndRead
  split <;> rename_i h <;> exact (congrArg Prod.snd h).symm

/-- **Incrementing** stays with the counter. -/
theorem owns_addAndRead (k : CounterName) (n : Int) : k.Owns (k.addAndRead n) where
  leases s := by rw [store_addAndRead, Store.leases_addPending]
  answer s s' h := by
    have hrows := rows_addPending h n
    simp only [addAndRead, Store.incrementPending, pending_eq_of_rows_eq hrows]
    cases (s'.addPending k.key n).pending k.key with
    | error e => rfl
    | ok m => simp only [counterValue_eq_of_rows_eq hrows]
  rows s s' h := by
    rw [store_addAndRead, store_addAndRead]
    exact rows_addPending h n

/-- **Stealing** stays with the counter. -/
theorem owns_stealIncrements (k : CounterName) : k.Owns fun s => s.stealIncrements k.key := by
  have hmove {s s' : Store} (h : k.rows s = k.rows s') :
      k.rows (s.movePending k.key) = k.rows (s'.movePending k.key) :=
    rows_changeBuffer h fun _ => rfl
  refine ⟨fun s => Store.leases_stealIncrements s k.key, fun s s' h => ?_, fun s s' h => ?_⟩
  · simp only [Store.stealIncrements, flushed_eq_of_rows_eq (hmove h)]
    split
    · rfl
    · split <;> rfl
  · simp only [Store.stealIncrements, flushed_eq_of_rows_eq (hmove h)]
    split
    · exact h
    · split
      · have hcounter := counter?_eq_of_rows_eq (hmove h)
        refine Prod.ext ?_ hcounter
        exact (Store.buffer?_removed _ _).trans (Store.buffer?_removed _ _).symm
      · exact hmove h

/-- **Committing** stays with the counter. -/
theorem owns_commitFlushed (k : CounterName) :
    k.Owns fun s => s.commitFlushed k.record k.quantity k.key := by
  have hboth {s s' : Store} (h : k.rows s = k.rows s') :
      (s.commitFlushed k.record k.quantity k.key).1 =
          (s'.commitFlushed k.record k.quantity k.key).1 ∧
        k.rows (s.commitFlushed k.record k.quantity k.key).2 =
          k.rows (s'.commitFlushed k.record k.quantity k.key).2 := by
    rw [Store.commitFlushed, Store.commitFlushed, flushed_eq_of_rows_eq h,
      counterValue_eq_of_rows_eq h]
    split
    · exact ⟨rfl, h⟩
    · exact ⟨rfl, h⟩
    · rename_i increment previous _ _
      have hafter : k.rows ((s.addToCounter k.record k.quantity increment).changeBuffer k.key
            fun r => { r with flushed := .integer 0 }) =
          k.rows ((s'.addToCounter k.record k.quantity increment).changeBuffer k.key
            fun r => { r with flushed := .integer 0 }) :=
        rows_changeBuffer (rows_addToCounter h increment) fun _ => rfl
      dsimp only
      rw [counter?_eq_of_rows_eq hafter]
      split
      · exact ⟨rfl, h⟩
      · exact ⟨rfl, hafter⟩
  exact ⟨fun s => Store.leases_commitFlushed s _ _ _, fun s s' h => (hboth h).1,
    fun s s' h => (hboth h).2⟩

/-! ### The rows of other counters -/

/-- **A call on the store spares a counter**: it leaves its rows and the leases. -/
structure SparedBy (k : CounterName) {α : Type} (f : Store → Except Store.Fault α × Store) :
    Prop where
  /-- The leases are left. -/
  leases : ∀ s, (f s).2.leases = s.leases
  /-- The rows are left. -/
  rows : ∀ s, k.rows (f s).2 = k.rows s

section Others

variable (hk : k.key ≠ k'.key)

include hk

theorem names_ne_of_key_ne : (k.record, k.quantity) ≠ (k'.record, k'.quantity) := by
  intro h
  exact hk (congrArg (fun n : String × String => Counters.bufferKey n.1 n.2) h)

theorem rows_changeBuffer_of_ne (s : Store) {f : Store.BufferRow → Store.BufferRow}
    (hf : ∀ r, (f r).key = r.key) : k.rows (s.changeBuffer k'.key f) = k.rows s :=
  Prod.ext (Store.buffer?_changeBuffer_of_ne hf hk) rfl

theorem sparedBy_clearPending : k.SparedBy fun s => (.ok (), s.clearPending k'.key) where
  leases _ := rfl
  rows s := rows_changeBuffer_of_ne hk s fun _ => rfl

theorem sparedBy_addAndRead (n : Int) : k.SparedBy (k'.addAndRead n) where
  leases := (owns_addAndRead k' n).leases
  rows s := by
    rw [store_addAndRead]
    refine Prod.ext (Store.buffer?_addPending_of_ne n hk) ?_
    exact congrArg (List.find? _) (s.counters_addPending k'.key n)

theorem sparedBy_stealIncrements : k.SparedBy fun s => s.stealIncrements k'.key := by
  refine ⟨fun s => Store.leases_stealIncrements s k'.key, fun s => ?_⟩
  have hmove : k.rows (s.movePending k'.key) = k.rows s :=
    rows_changeBuffer_of_ne hk s fun _ => rfl
  simp only [Store.stealIncrements]
  split
  · rfl
  · split
    · have hcounter := counter?_eq_of_rows_eq hmove
      refine Prod.ext ?_ hcounter
      exact (Store.buffer?_removed_of_ne hk).trans (buffer?_eq_of_rows_eq hmove)
    · exact hmove

theorem sparedBy_commitFlushed :
    k.SparedBy fun s => s.commitFlushed k'.record k'.quantity k'.key := by
  refine ⟨fun s => Store.leases_commitFlushed s _ _ _, fun s => ?_⟩
  have hadd : ∀ n, k.rows (s.addToCounter k'.record k'.quantity n) = k.rows s := by
    intro n
    refine Prod.ext ?_ (Store.counter?_addToCounter_of_ne n (names_ne_of_key_ne hk))
    exact congrArg (List.find? _) (s.buffers_addToCounter _ _ _)
  rw [Store.commitFlushed]
  split
  · rfl
  · rfl
  · dsimp only
    split
    · rfl
    · refine (rows_changeBuffer_of_ne hk _ ?_).trans (hadd _)
      exact fun _ => rfl

end Others

end CounterName

/-! ### Requests and replies -/

/-- **What is asked of a counter.** -/
inductive CounterQuery where
  /-- To let an increment wait. -/
  | increment (n : Int)
  /-- To move what waits into the value. -/
  | flush
  /-- To drop what waits. -/
  | clear
  /-- What waits. -/
  | pending
  /-- The value. -/
  | value

/-- **What a counter replies.** -/
inductive CounterReply where
  /-- What waits after an increment, unless that was nothing. -/
  | waiting (n : Option Int)
  /-- What a flush did, if it did anything. -/
  | flushed (f : Option FlushedCounter)
  /-- What waited was dropped. -/
  | cleared
  /-- A number. -/
  | number (n : Int)
deriving DecidableEq

/-- **A request**: something is asked of a counter on some occasion. -/
structure CounterRequest where
  /-- The counter. -/
  counter : CounterName
  /-- What is asked. -/
  query : CounterQuery
  /-- The occasion. -/
  occasion : Occasion

namespace Counters

/-- **One query.** -/
def serve (c : Counters) (k : CounterName) : CounterQuery → Action CounterError CounterReply
  | .increment n => do
    let n ← c.increment k.record k.quantity n
    pure (.waiting n)
  | .flush => do
    let flushed ← c.flush k.record k.quantity
    pure (.flushed flushed)
  | .clear => do
    c.clear k.record k.quantity
    pure .cleared
  | .pending => do
    let n ← c.pending k.record k.quantity
    pure (.number n)
  | .value => do
    let n ← c.value k.record k.quantity
    pure (.number n)

/-- **Requests, one after another**, each on its occasion, and the replies of the counters. -/
def serveAll (c : Counters) :
    List CounterRequest → World → List (CounterName × Except CounterError CounterReply) × World
  | [], w => ([], w)
  | q :: qs, w =>
    let (reply, w) := c.serve q.counter q.query (w.meet q.occasion)
    let (replies, w) := c.serveAll qs w
    ((q.counter, reply) :: replies, w)

theorem serveAll_cons (c : Counters) (q : CounterRequest) (qs : List CounterRequest) (w : World) :
    c.serveAll (q :: qs) w =
      let served := c.serve q.counter q.query (w.meet q.occasion)
      let rest := c.serveAll qs served.2
      ((q.counter, served.1) :: rest.1, rest.2) := rfl

/-! ### What a query looks at, and what it leaves alone -/

open Leasehold.Action (Keeps AlikeOn)

variable {α : Type} {c : Counters} {k k' : CounterName}
  {f : Store → Except Store.Fault α × Store}

theorem alikeOn_edit (h : k.Owns f) :
    AlikeOn (World.scene k.leaseKey k.rows) (edit f) (edit f) := by
  refine Action.alikeOn_edit (fun w w' => World.isPoisoned_eq_of_scene_eq) fun w w' hw => ?_
  obtain ⟨hsight, hoccasion⟩ := Prod.mk.inj hw
  have hrows := congrArg Sight.rows hsight
  refine ⟨h.answer _ _ hrows, Prod.ext ?_ hoccasion⟩
  change World.sight k.leaseKey k.rows _ = World.sight k.leaseKey k.rows _
  rw [World.sight_withStore, World.sight_withStore, hsight, h.leases, h.leases,
    h.rows _ _ hrows, show w.store.leases.find? k.leaseKey = w'.store.leases.find? k.leaseKey from
      congrArg Sight.inStore hsight]

theorem keeps_edit (h : k.SparedBy f) : Keeps (World.sight k.leaseKey k.rows) (edit f) := by
  refine Action.keeps_edit fun w => ?_
  rw [World.sight_withStore, h.leases, h.rows]
  rfl

/-- A call on the store that only reads the rows of a counter. -/
theorem alikeOn_look {f : Store → Except Store.Fault α}
    (hf : ∀ s s', k.rows s = k.rows s' → f s = f s') :
    AlikeOn (World.scene k.leaseKey k.rows) (look f) (look f) :=
  Action.alikeOn_look (fun _ _ => World.isPoisoned_eq_of_scene_eq)
    fun _ _ hw => hf _ _ (congrArg (fun s => s.1.rows) hw)

theorem alikeOn_requireCounted {σ : Type} {v : World → σ} (c : Counters) (quantity : String) :
    AlikeOn v (c.requireCounted quantity) (c.requireCounted quantity) := by
  rw [requireCounted]
  split
  · exact Action.alikeOn_pure ()
  · exact Action.alikeOn_throw _

theorem keeps_requireCounted {σ : Type} {v : World → σ} (c : Counters) (quantity : String) :
    Keeps v (c.requireCounted quantity) := by
  rw [requireCounted]
  split
  · exact Action.keeps_pure ()
  · exact Action.keeps_throw _

theorem alikeOn_notify (c : Counters) (record quantity : String) (f : FlushedCounter) :
    AlikeOn (World.scene k.leaseKey k.rows) (c.notify record quantity f)
      (c.notify record quantity f) :=
  fun _ _ h => ⟨rfl, h⟩

theorem keeps_notify (c : Counters) (record quantity : String) (f : FlushedCounter) :
    Keeps (World.sight k.leaseKey k.rows) (c.notify record quantity f) :=
  fun _ => rfl

/-- The part of a flush under the lease. -/
theorem alikeOn_flushHeld (c : Counters) (k : CounterName) :
    AlikeOn (World.scene k.leaseKey k.rows) (c.flushHeld k.record k.quantity)
      (c.flushHeld k.record k.quantity) := by
  refine ((alikeOn_edit k.owns_stealIncrements).mapFault _).bind fun stolen => ?_
  split
  · exact Action.alikeOn_pure none
  · exact ((alikeOn_edit k.owns_commitFlushed).mapFault _).bind fun flushed =>
      (alikeOn_notify c _ _ flushed).bind fun _ => Action.alikeOn_pure (some flushed)

theorem keeps_flushHeld (hk : k.key ≠ k'.key) :
    Keeps (World.sight k.leaseKey k.rows) (c.flushHeld k'.record k'.quantity) := by
  refine ((keeps_edit (CounterName.sparedBy_stealIncrements hk)).mapFault _).bind fun stolen => ?_
  split
  · exact Action.keeps_pure none
  · exact ((keeps_edit (CounterName.sparedBy_commitFlushed hk)).mapFault _).bind fun flushed =>
      (keeps_notify c _ _ flushed).bind fun _ => Action.keeps_pure (some flushed)

theorem alikeOn_flush (c : Counters) (k : CounterName) :
    AlikeOn (World.scene k.leaseKey k.rows) (c.flush k.record k.quantity)
      (c.flush k.record k.quantity) := by
  refine (alikeOn_requireCounted c k.quantity).bind fun _ w w' hw => ?_
  have hlock := Lease.alikeOn_inLock (fun _ _ => rfl) k.leaseKey c.lock
    (fun _ => alikeOn_flushHeld c k) w w' hw
  rw [show k.leaseKey = leaseKey k.record k.quantity from rfl] at hlock ⊢
  generalize Lease.inLock (leaseKey k.record k.quantity) c.lock
    (fun _ => c.flushHeld k.record k.quantity) w = r at hlock ⊢
  generalize Lease.inLock (leaseKey k.record k.quantity) c.lock
    (fun _ => c.flushHeld k.record k.quantity) w' = r' at hlock ⊢
  obtain ⟨answer, u⟩ := r
  obtain ⟨answer', u'⟩ := r'
  -- What is left of the flush only says in other words how the work under the lease ended.
  obtain ⟨rfl, hview⟩ : answer = answer' ∧ _ := hlock
  split <;> rename_i heq <;> cases heq <;> exact ⟨rfl, hview⟩

theorem keeps_flush (hk : k.key ≠ k'.key) :
    Keeps (World.sight k.leaseKey k.rows) (c.flush k'.record k'.quantity) := by
  intro w
  rw [Flushers.flush_world]
  split
  · have hkeys : k.leaseKey ≠ k'.leaseKey := fun h => hk (CounterName.leaseKey_inj.1 h)
    exact Lease.keeps_inLock (fun _ _ => rfl) hkeys c.lock (fun _ => keeps_flushHeld hk) w
  · rfl

/-- **What a counter replies, and what it leaves**, depends on what can be seen under its key, on
its rows, and on the occasion. -/
theorem alikeOn_serve (c : Counters) (k : CounterName) (q : CounterQuery) :
    AlikeOn (World.scene k.leaseKey k.rows) (c.serve k q) (c.serve k q) := by
  have hcounted := alikeOn_requireCounted (v := World.scene k.leaseKey k.rows) c k.quantity
  cases q with
  | increment n =>
    refine Action.AlikeOn.bind (hcounted.bind fun _ => ?_) fun _ => Action.alikeOn_pure _
    split
    · exact Action.alikeOn_pure none
    · exact ((alikeOn_edit (k.owns_addAndRead n)).mapFault _).bind fun m =>
        Action.alikeOn_pure (some m)
  | flush => exact (alikeOn_flush c k).bind fun _ => Action.alikeOn_pure _
  | clear =>
    have hclear := (alikeOn_edit k.owns_clearPending).mapFault CounterError.store
    exact (hcounted.bind fun _ => hclear).bind fun _ => Action.alikeOn_pure _
  | pending =>
    have hlook := (alikeOn_look fun s s' => k.pending_eq_of_rows_eq).mapFault CounterError.store
    exact (hcounted.bind fun _ => hlook).bind fun _ => Action.alikeOn_pure _
  | value =>
    have hlook := (alikeOn_look fun s s' => k.counterValue_eq_of_rows_eq).mapFault
      CounterError.store
    exact (hcounted.bind fun _ => hlook).bind fun _ => Action.alikeOn_pure _

/-- **What a counter of another key does** is not seen. -/
theorem keeps_serve (hk : k.key ≠ k'.key) (q : CounterQuery) :
    Keeps (World.sight k.leaseKey k.rows) (c.serve k' q) := by
  have hcounted := keeps_requireCounted (v := World.sight k.leaseKey k.rows) c k'.quantity
  cases q with
  | increment n =>
    refine Action.Keeps.bind (hcounted.bind fun _ => ?_) fun _ => Action.keeps_pure _
    split
    · exact Action.keeps_pure none
    · exact ((keeps_edit (CounterName.sparedBy_addAndRead hk n)).mapFault _).bind fun m =>
        Action.keeps_pure (some m)
  | flush => exact (keeps_flush hk).bind fun _ => Action.keeps_pure _
  | clear =>
    have hclear := (keeps_edit (CounterName.sparedBy_clearPending hk)).mapFault CounterError.store
    exact (hcounted.bind fun _ => hclear).bind fun _ => Action.keeps_pure _
  | pending | value =>
    exact (hcounted.bind fun _ => (Action.keeps_look _).mapFault _).bind fun _ =>
      Action.keeps_pure _

/-! ### Runs -/

/-- **The calls on a counter among calls on others**, from worlds that look alike to it: the replies
of the counter are those to its own calls alone, and what can be seen of it at the end is the
same. -/
theorem serveAll_of_sight_eq {qs : List CounterRequest}
    (hqs : ∀ q ∈ qs, q.counter ≠ k → k.key ≠ q.counter.key) {w w' : World}
    (hw : w.sight k.leaseKey k.rows = w'.sight k.leaseKey k.rows) :
    (c.serveAll qs w).1.filter (·.1 = k) = (c.serveAll (qs.filter (·.counter = k)) w').1 ∧
      (c.serveAll qs w).2.sight k.leaseKey k.rows =
        (c.serveAll (qs.filter (·.counter = k)) w').2.sight k.leaseKey k.rows := by
  induction qs generalizing w w' with
  | nil => exact ⟨rfl, hw⟩
  | cons q qs ih =>
    have hqs' := fun q' hq' => hqs q' (List.mem_cons_of_mem q hq')
    by_cases hown : q.counter = k
    · -- A call of its own is made in both runs, on the same occasion.
      obtain ⟨hreply, hview⟩ := alikeOn_serve c k q.query _ _ (World.scene_meet hw q.occasion)
      obtain ⟨hreplies, hend⟩ := ih hqs' (congrArg Prod.fst hview)
      rw [List.filter_cons_of_pos (by simpa using hown), serveAll_cons, serveAll_cons, hown]
      refine ⟨?_, hend⟩
      dsimp only
      rw [List.filter_cons_of_pos (by simp), hreply, hreplies]
    · -- A call on another counter is made in one run only, and not seen.
      have hkeep := keeps_serve (c := c) (hqs q List.mem_cons_self hown) q.query (w.meet q.occasion)
      obtain ⟨hreplies, hend⟩ := ih hqs' (hkeep.trans hw)
      rw [List.filter_cons_of_neg (by simpa using hown), serveAll_cons]
      refine ⟨?_, hend⟩
      dsimp only
      rw [List.filter_cons_of_neg (by simpa using hown), hreplies]

/-- **Counters do not disturb each other.** Take any counter and any sequence of calls on it and on
others that are apart from it, each on any occasion. The calls on the counter get the replies that
they would get without the others, and at the end it has the same lease, the same buffers and the
same value. Only counters one of which runs into the other are not independent, and they never are:
they have one lease, and what waits for the one waits for the other. -/
theorem independent (c : Counters) (k : CounterName) (qs : List CounterRequest)
    (hqs : ∀ q ∈ qs, q.counter ≠ k → k.Apart q.counter) (w : World) :
    let all := c.serveAll qs w
    let own := c.serveAll (qs.filter (·.counter = k)) w
    all.1.filter (·.1 = k) = own.1 ∧ all.2.lease? k.leaseKey = own.2.lease? k.leaseKey ∧
      k.rows all.2.store = k.rows own.2.store ∧
      ∀ k', ¬k.Apart k' → c.counts k.quantity = true → c.counts k'.quantity = true →
        k'.leaseKey = k.leaseKey ∧
        ∀ w, c.pending k'.record k'.quantity w = c.pending k.record k.quantity w := by
  have hkeys : ∀ q ∈ qs, q.counter ≠ k → k.key ≠ q.counter.key := by
    intro q hq hne hkey
    obtain ⟨hnot, hnot'⟩ := hqs q hq hne
    rcases CounterName.key_eq_iff.1 hkey with heq | hruns | hruns
    · exact hne heq.symm
    · exact hnot hruns
    · exact hnot' hruns
  have hsame : w.sight k.leaseKey k.rows = w.sight k.leaseKey k.rows := rfl
  obtain ⟨hreplies, hend⟩ := serveAll_of_sight_eq (c := c) hkeys hsame
  refine ⟨hreplies, World.lease?_eq_of_sight_eq hend, congrArg Sight.rows hend, ?_⟩
  intro k' hnear hcounts hcounts'
  have hkey : k'.key = k.key := by
    rw [CounterName.Apart, not_and_or, not_not, not_not] at hnear
    exact (CounterName.key_eq_iff.2 (.inr hnear)).symm
  refine ⟨CounterName.leaseKey_inj.2 hkey, fun w => ?_⟩
  have hbuffer : bufferKey k'.record k'.quantity = bufferKey k.record k.quantity := hkey
  rw [pending, pending, requireCounted, requireCounted, if_pos hcounts, if_pos hcounts', hbuffer]

/-! Two counters whose names look alike: one is of the record that the other's key begins with. -/

/-- A counter. -/
def plainCounter : CounterName := ⟨"a:counters:b", "c"⟩

/-- A counter of a record whose name ends like the beginning of a key. -/
def likeCounter : CounterName := ⟨"a:counters:b:counters", "c"⟩

/-- An hour after the epoch. -/
def hourLater : Occasion := { clock := { wall := Instant.epoch + Span.ofSeconds 3600 } }

/-- Calls on both. -/
def mixedCalls : List CounterRequest :=
  [⟨likeCounter, .increment 5, hourLater⟩, ⟨plainCounter, .increment 2, hourLater⟩,
    ⟨likeCounter, .flush, hourLater⟩, ⟨plainCounter, .pending, hourLater⟩,
    ⟨likeCounter, .clear, hourLater⟩, ⟨plainCounter, .flush, hourLater⟩]

theorem independent_mixedCalls :
    (∀ q ∈ mixedCalls, q.counter ≠ plainCounter → plainCounter.Apart q.counter) ∧
      ((Counters.mk ["c"] {} []).serveAll mixedCalls { clock := { wall := .epoch } }).1.filter
          (·.1 = plainCounter) =
        ((Counters.mk ["c"] {} []).serveAll (mixedCalls.filter (·.counter = plainCounter))
          { clock := { wall := .epoch } }).1 := by
  have hapart : ∀ q ∈ mixedCalls, q.counter ≠ plainCounter → plainCounter.Apart q.counter := by
    intro q hq _
    have hcolon : ':' ∉ q.counter.quantity.toList := by
      revert q
      decide
    exact ⟨CounterName.not_runsInto_of_colon (by decide), CounterName.not_runsInto_of_colon hcolon⟩
  exact ⟨hapart, (independent _ plainCounter mixedCalls hapart _).1⟩

/-- A counter that runs into the one above. -/
def nestedCounter : CounterName := ⟨"a", "b:counters:c"⟩

/-- **Counters whose names run into one another are not independent**, although both are counted:
what one is incremented by waits for the other, and is flushed into its value. -/
theorem not_independent_nested :
    let c : Counters := { quantities := ["b:counters:c", "c"] }
    let w : World := { clock := { wall := .epoch } }
    nestedCounter ≠ plainCounter ∧ c.counts nestedCounter.quantity = true ∧
      c.counts plainCounter.quantity = true ∧
      (c.serveAll [⟨plainCounter, .pending, hourLater⟩] w).1 =
        [(plainCounter, .ok (.number 0))] ∧
      (c.serveAll [⟨nestedCounter, .increment 5, hourLater⟩, ⟨plainCounter, .pending, hourLater⟩]
          w).1 =
        [(nestedCounter, .ok (.waiting (some 5))), (plainCounter, .ok (.number 5))] ∧
      (c.serveAll [⟨nestedCounter, .increment 5, hourLater⟩, ⟨plainCounter, .flush, hourLater⟩,
          ⟨nestedCounter, .value, hourLater⟩, ⟨plainCounter, .value, hourLater⟩] w).1 =
        [(nestedCounter, .ok (.waiting (some 5))), (plainCounter, .ok (.flushed (some ⟨5, 0, 5⟩))),
          (nestedCounter, .ok (.number 0)), (plainCounter, .ok (.number 5))] := by
  refine ⟨by decide, by decide, by decide, rfl, rfl, rfl⟩

end Counters

end Leasehold
