import Leasehold.Proofs.Lease.Calls
import Leasehold.Proofs.Time.Readings
import Mathlib.Data.Option.Basic

/-!
# The two lease services agree

One service keeps its leases in memory, with deadlines on the elapsed time; the other keeps them in
the store, with deadlines on the wall time, in whole milliseconds. Asked the same, they answer the
same (`Leasehold.Lease.serveAll_agree`), as long as nothing makes a difference between the two
times: everybody counts in whole milliseconds, nobody sets the wall clock, and no deadline lies
beyond the last instant.

What carries the proof is that the two deadlines of a lease are the same moment
(`Leasehold.SameHold`). The wall time may reach the last instant and stay there, while the elapsed
time goes on. From then on no lease is live in either ledger, and none can be taken for any time at
all; so deadlines that are over need not be the same moment any more.
-/

namespace Leasehold

/-! ### Requests and answers -/

/-- **What is asked of a lease service**, or happens in between. -/
inductive LeaseRequest where
  /-- To take a key, in one attempt. -/
  | obtain (key : String) (ttl : Span)
  /-- To give a lease back. -/
  | cancel (guard : LeaseGuard)
  /-- To move the deadline of a lease. -/
  | renew (guard : LeaseGuard) (ttl : Span)
  /-- Who holds a key. -/
  | holder (key : String)
  /-- Whether anybody holds a key. -/
  | isHeld (key : String)
  /-- Nothing is asked, but time passes. -/
  | advance (d : Span)

/-- **What a lease service answers.** -/
inductive LeaseAnswer where
  /-- The guard, if the key was taken. -/
  | taken (guard : Option LeaseGuard)
  /-- Whether the guard was its holder's. -/
  | done (isDone : Bool)
  /-- The token of the holder, if there is one. -/
  | holder (token : Option Token)
  /-- Whether there is a holder. -/
  | held (isHeld : Bool)
  /-- Nothing was asked. -/
  | passed

namespace Lease

/-- **One request.** -/
def serve : LeaseRequest → Action LeaseError LeaseAnswer
  | .obtain key ttl => do
    let guard ← tryObtain key ttl
    pure (.taken guard)
  | .cancel guard => do
    let isDone ← cancel guard
    pure (.done isDone)
  | .renew guard ttl => do
    let isDone ← renew guard ttl
    pure (.done isDone)
  | .holder key => do
    let token ← holder key
    pure (.holder token)
  | .isHeld key => do
    let held ← isHeld key
    pure (.held held)
  | .advance d => do
    pass d
    pure .passed

/-- **Requests, one after another**, and the answers to them. -/
def serveAll : List LeaseRequest → World → List (Except LeaseError LeaseAnswer) × World
  | [], w => ([], w)
  | q :: qs, w =>
    let (answer, w) := serve q w
    let (answers, w) := serveAll qs w
    (answer :: answers, w)

end Lease

namespace LeaseRequest

/-- The clock after a request. -/
def clock (c : Clock) : LeaseRequest → Clock
  | advance d => c.advance d
  | _ => c

/-- **A request fits**: it counts in whole milliseconds, and no deadline that it writes lies beyond
the last instant. -/
def Fits (w : World) : LeaseRequest → Prop
  | obtain key ttl => ttl.nanos % 1000000 = 0 ∧
      ((∀ h, w.lease? key = some h → w.HasReached h.expiry) →
        w.now.nanos + ttl.nanos ≤ Instant.last.nanos)
  | renew guard ttl => ttl.nanos % 1000000 = 0 ∧
      ((∃ expiry, w.lease? guard.key = some ⟨guard.token, expiry⟩ ∧ ¬w.HasReached expiry) →
        w.now.nanos + ttl.nanos ≤ Instant.last.nanos)
  | advance d => d.nanos % 1000000 = 0
  | _ => True

/-- **All requests fit**, one after another. -/
def FitAll : List LeaseRequest → World → Prop
  | [], _ => True
  | q :: qs, w => q.Fits w ∧ FitAll qs (Lease.serve q w).2

end LeaseRequest

/-! ### The two times of a clock -/

/-- **A clock that nobody has touched** since it showed some wall time: the wall time has moved with
the elapsed time, up to the last instant, and both in whole milliseconds. -/
structure Clock.KeepsStep (start : Instant) (c : Clock) : Prop where
  /-- The wall clock was not set. -/
  offset : c.offset = 0
  /-- Readings cost nothing. -/
  costs : c.costs = []
  /-- Nor will they. -/
  tick : c.tick = Span.zero
  /-- The wall time has moved with the elapsed time. -/
  wall : c.wall.nanos = min (start.nanos + c.elapsed.nanos) Instant.last.nanos
  /-- It is a whole millisecond, unless time is over. -/
  whole : c.wall.nanos % 1000000 = 0 ∨ c.wall.nanos = Instant.last.nanos

namespace Clock

variable {start : Instant} {c : Clock}

theorem KeepsStep.now (h : c.KeepsStep start) : c.now = c.wall := by
  have hle := c.wall.nanos_le
  have hge := c.wall.le_nanos
  rw [Clock.now, h.offset, Instant.shift, Instant.ofNanos?]
  rw [dif_pos (by omega)]
  ext
  simp only [Option.getD_some]
  omega

theorem keepsStep_start (hstart : start.nanos % 1000000 = 0) :
    KeepsStep start { wall := start } := by
  have hle := start.nanos_le
  refine ⟨rfl, rfl, rfl, ?_, .inl hstart⟩
  simp only [Span.zero, Instant.last]
  omega

theorem KeepsStep.advance (h : c.KeepsStep start) {d : Span} (hd : d.nanos % 1000000 = 0) :
    (c.advance d).KeepsStep start := by
  have hwall := h.wall
  have hwhole := h.whole
  have hlt := d.nanos_lt
  have hge := start.le_nanos
  simp only [Instant.last] at hwall hwhole
  refine ⟨h.offset, h.costs, h.tick, ?_, ?_⟩
  · simp only [Clock.advance, Instant.nanos_add, Span.nanos_add, Span.longest, Instant.last]
    omega
  · simp only [Clock.advance, Instant.nanos_add, Instant.last]
    omega

end Clock

/-! ### The two deadlines of a lease -/

/-- **The same lease in both ledgers**, or none in either: until the same moment, or over by now. -/
inductive SameHold (start : Instant) (c : Clock) : Option (Hold Span) → Option (Hold Int) → Prop
  /-- Neither has one. -/
  | absent : SameHold start c none none
  /-- Both have it until the same moment. -/
  | together {token : Token} {expiry : Span} {ms : Int}
      (hsame : start.nanos + expiry.nanos = ms * 1000000)
      (hle : ms * 1000000 ≤ Instant.last.nanos) :
      SameHold start c (some ⟨token, expiry⟩) (some ⟨token, ms⟩)
  /-- Both have it, and it is over. -/
  | ended {token : Token} {expiry : Span} {ms : Int} (helapsed : ¬c.elapsed < expiry)
      (hwall : ¬c.now.millis < ms) : SameHold start c (some ⟨token, expiry⟩) (some ⟨token, ms⟩)

namespace SameHold

variable {start : Instant} {c c' : Clock} {x : Option (Hold Span)} {y : Option (Hold Int)}

/-- It stays the same lease as time goes by. -/
theorem mono (h : SameHold start c x y) (helapsed : c.elapsed ≤ c'.elapsed)
    (hnow : c.now.millis ≤ c'.now.millis) : SameHold start c' x y := by
  cases h with
  | absent => exact .absent
  | together hsame hle => exact .together hsame hle
  | ended hover hover' =>
    rw [Span.lt_def] at hover
    rw [Span.le_def] at helapsed
    refine .ended ?_ ?_
    · rw [Span.lt_def]
      omega
    · omega

/-- The same token holds it. -/
theorem token_eq (h : SameHold start c x y) : x.map Hold.token = y.map Hold.token := by
  cases h <;> rfl

/-- **It is live in both ledgers or in neither**, and the same token holds it. -/
theorem live (hc : c.KeepsStep start) (h : SameHold start c x y) :
    (x.filter fun h => c.elapsed < h.expiry).map Hold.token =
      (y.filter fun h => c.now.millis < h.expiry).map Hold.token := by
  cases h with
  | absent => rfl
  | @together token expiry ms hsame hle =>
    -- A wall time that has stopped at the last instant has no deadline ahead, and then the elapsed
    -- time has passed them all.
    have hlive : c.elapsed < expiry ↔ c.now.millis < ms := by
      have hwall := hc.wall
      rw [hc.now, Span.lt_def, Instant.millis]
      omega
    simp only [Option.filter_some, hlive]
    split <;> rfl
  | ended helapsed hwall => simp only [Option.filter_some, helapsed, hwall, decide_false, if_neg,
      Bool.false_eq_true, not_false_eq_true, Option.map_none]

/-- **A deadline that fits is the same moment in both ledgers**, or over at once. -/
theorem deadline (hc : c.KeepsStep start) {ttl : Span} (httl : ttl.nanos % 1000000 = 0)
    (hfits : c.now.nanos + ttl.nanos ≤ Instant.last.nanos) (token : Token) :
    SameHold start c (some ⟨token, c.elapsed + ttl⟩) (some ⟨token, (c.now + ttl).millis⟩) := by
  have hge := start.le_nanos
  have hwall := hc.wall
  rw [hc.now] at *
  have hdeadline : (c.wall + ttl).nanos = c.wall.nanos + ttl.nanos := by
    rw [Instant.nanos_add]
    omega
  have hle := c.wall.nanos_le
  by_cases hlast : c.wall.nanos = Instant.last.nanos
  · -- Time is over, so the lease was taken for no time at all.
    refine .ended ?_ ?_
    · rw [Span.lt_def, Span.nanos_add]
      omega
    · rw [hc.now, Instant.millis, Instant.millis, hdeadline]
      omega
  · have hwhole := hc.whole.resolve_right hlast
    have hexpiry : (c.elapsed + ttl).nanos = c.elapsed.nanos + ttl.nanos := by
      rw [Span.nanos_add]
      simp only [Instant.last, Span.longest] at *
      omega
    refine .together ?_ ?_
    · rw [Instant.millis, hdeadline, hexpiry]
      omega
    · rw [Instant.millis, hdeadline]
      omega

/-- The deadline of a live lease in the store can be read. -/
theorem exists_instant {y : Hold Int} (h : SameHold start c x (some y))
    (hlive : c.now.millis < y.expiry) : ∃ t, Store.instant y.expiry = .ok t := by
  cases h with
  | @together token expiry ms hsame hle =>
    have hge := start.le_nanos
    have hline : -8334601228800000000000 ≤ ms * 1000000 := by omega
    refine ⟨⟨ms * 1000000, hline, hle⟩, ?_⟩
    rw [Store.instant, Instant.ofMillis?, Instant.ofNanos?]
    rw [dif_pos ⟨hline, hle⟩]
  | ended _ hwall => exact absurd hlive hwall

end SameHold

/-! ### The two ledgers -/

/-- **Two ledgers with the same leases**, one for each time. -/
def SameLedger (start : Instant) (c : Clock) (holds : Ledger Span) (leases : Ledger Int) : Prop :=
  ∀ key, SameHold start c (holds.find? key) (leases.find? key)

namespace SameLedger

variable {start : Instant} {c : Clock} {holds : Ledger Span} {leases : Ledger Int} {key : String}
  {token : Token} {ttl : Span}

theorem put (h : SameLedger start c holds leases) {x : Hold Span} {y : Hold Int}
    (hxy : SameHold start c (some x) (some y)) :
    SameLedger start c (holds.put key x) (leases.put key y) := by
  intro key'
  by_cases hk : key' = key
  · rw [hk, Ledger.find?_put_self, Ledger.find?_put_self]
    exact hxy
  · rw [Ledger.find?_put_of_ne hk, Ledger.find?_put_of_ne hk]
    exact h key'

theorem drop (h : SameLedger start c holds leases) :
    SameLedger start c (holds.drop key) (leases.drop key) := by
  intro key'
  by_cases hk : key' = key
  · rw [hk, Ledger.find?_drop_self, Ledger.find?_drop_self]
    exact .absent
  · rw [Ledger.find?_drop_of_ne hk, Ledger.find?_drop_of_ne hk]
    exact h key'

/-- **The same token holds a key.** -/
theorem live (h : SameLedger start c holds leases) (hc : c.KeepsStep start) (key : String) :
    (holds.live? key c.elapsed).map Hold.token = (leases.live? key c.now.millis).map Hold.token :=
  (h key).live hc

/-- **A key can be taken from both ledgers or from neither.** -/
theorem take (h : SameLedger start c holds leases) (hc : c.KeepsStep start)
    (httl : ttl.nanos % 1000000 = 0)
    (hfits : holds.live? key c.elapsed = none → c.now.nanos + ttl.nanos ≤ Instant.last.nanos) :
    Option.Rel (SameLedger start c) (holds.take? key token c.elapsed (c.elapsed + ttl))
      (leases.take? key token c.now.millis (c.now + ttl).millis) := by
  have hlive := congrArg Option.isSome (h.live hc key)
  rw [Option.isSome_map, Option.isSome_map] at hlive
  rw [Ledger.take?, Ledger.take?, ← hlive]
  split
  · exact .none
  · rename_i hfree
    exact .some (h.put (.deadline hc httl (hfits (Option.not_isSome_iff_eq_none.1 hfree)) token))

/-- **A lease can be renewed in both ledgers or in neither.** -/
theorem renew (h : SameLedger start c holds leases) (hc : c.KeepsStep start)
    (httl : ttl.nanos % 1000000 = 0)
    (hfits : ∀ expiry, holds.live? key c.elapsed = some ⟨token, expiry⟩ →
      c.now.nanos + ttl.nanos ≤ Instant.last.nanos) :
    Option.Rel (SameLedger start c) (holds.renew? key token c.elapsed (c.elapsed + ttl))
      (leases.renew? key token c.now.millis (c.now + ttl).millis) := by
  have hlive := h.live hc key
  rw [Ledger.renew?, Ledger.renew?]
  cases hx : holds.live? key c.elapsed <;> cases hy : leases.live? key c.now.millis <;>
    simp only [hx, hy, Option.map_none, Option.map_some, reduceCtorEq, Option.some.injEq] at hlive
  · exact .none
  · rename_i x y
    simp only [← hlive]
    split
    · rename_i htoken
      rw [← htoken] at hfits ⊢
      exact .some (h.put (.deadline hc httl (hfits x.expiry hx) x.token))
    · exact .none

/-- **A lease can be given back in both ledgers or in neither**, also one that is over. -/
theorem cancel (h : SameLedger start c holds leases) :
    Option.Rel (SameLedger start c) (holds.cancel? key token) (leases.cancel? key token) := by
  have htoken := (h key).token_eq
  rw [Ledger.cancel?, Ledger.cancel?]
  cases hx : holds.find? key <;> cases hy : leases.find? key <;>
    simp only [hx, hy, Option.map_none, Option.map_some, reduceCtorEq, Option.some.injEq] at htoken
  · exact .none
  · simp only [htoken]
    split
    · exact .some h.drop
    · exact .none

/-- **The lease of a key in the store can be read**, and has the token that is in memory. -/
theorem holder (h : SameLedger start c holds leases) (hc : c.KeepsStep start) (key : String) :
    ∃ held, Store.leaseHolder? { leases } key c.now = .ok held ∧
      held.map (·.1) = (holds.live? key c.elapsed).map Hold.token := by
  rw [h.live hc, Store.leaseHolder?]
  cases hlive : leases.live? key c.now.millis with
  | none => exact ⟨none, rfl, rfl⟩
  | some y =>
    obtain ⟨hy, hnow⟩ := Ledger.live?_eq_some.1 hlive
    have hread := h key
    rw [hy] at hread
    obtain ⟨t, ht⟩ := hread.exists_instant hnow
    dsimp only
    rw [ht]
    exact ⟨some (y.token, t), rfl, rfl⟩

theorem advance (h : SameLedger start c holds leases) (hc : c.KeepsStep start) {d : Span}
    (hd : d.nanos % 1000000 = 0) : SameLedger start (c.advance d) holds leases := by
  intro key
  refine (h key).mono (c.elapsed_le_elapsed_advance d) (Instant.millis_le_millis ?_)
  rw [hc.now, (hc.advance hd).now, Instant.le_def]
  have hle := c.wall.nanos_le
  simp only [Clock.advance, Instant.nanos_add, Instant.last]
  omega

end SameLedger

/-! ### The two services -/

namespace World

/-- **A world with a service that keeps its leases in memory**, after some attempts and tokens. -/
def inMemory (c : Clock) (holds : Ledger Span) (tries issued : Nat) : World where
  clock := c
  leases := { backend := .memory holds, tries, issued }

/-- **A world with a service that keeps its leases in the store**, after some attempts and
tokens. -/
def inStore (c : Clock) (leases : Ledger Int) (tries issued : Nat) : World where
  clock := c
  database := { store := { leases } }
  leases := { tries, issued }

/-- **Two worlds that differ in their ledgers.** -/
inductive Apart (c : Clock) (holds : Ledger Span) (leases : Ledger Int) : World → World → Prop
  | intro (tries issued : Nat) :
      Apart c holds leases (inMemory c holds tries issued) (inStore c leases tries issued)

/-- **Two worlds that differ in their ledgers**, which have the same leases. -/
def Alike (start : Instant) (c : Clock) (w w' : World) : Prop :=
  ∃ holds leases, SameLedger start c holds leases ∧ Apart c holds leases w w'

/-- The key of an attempt is free. -/
theorem hasReached_of_live?_eq_none {c : Clock} {holds : Ledger Span} {tries issued : Nat}
    {key : String} (hlive : holds.live? key c.elapsed = none) (h : Hold Deadline)
    (hh : (inMemory c holds tries issued).lease? key = some h) :
    (inMemory c holds tries issued).HasReached h.expiry := by
  rw [lease?_of_memory rfl, Option.map_eq_some_iff] at hh
  obtain ⟨h, hfind, rfl⟩ := hh
  intro hlt
  cases hlive.symm.trans (Ledger.live?_eq_some.2 ⟨hfind, hlt⟩)

/-- The guard of a renewal is its holder's. -/
theorem exists_of_live?_eq_some {c : Clock} {holds : Ledger Span} {tries issued : Nat}
    {key : String} {token : Token} {expiry : Span}
    (hlive : holds.live? key c.elapsed = some ⟨token, expiry⟩) :
    ∃ expiry, (inMemory c holds tries issued).lease? key = some ⟨token, expiry⟩ ∧
      ¬(inMemory c holds tries issued).HasReached expiry := by
  obtain ⟨hfind, hlt⟩ := Ledger.live?_eq_some.1 hlive
  refine ⟨.elapsed expiry, ?_, fun hreached => hreached hlt⟩
  rw [lease?_of_memory rfl, hfind]
  rfl

end World

namespace Lease

open World (inMemory inStore Apart Alike)

variable {start : Instant} {c : Clock} {holds : Ledger Span} {leases : Ledger Int} {α β : Type}
  {R R' R'' : World → World → Prop}

/-- **Two actions agree** from related worlds: they answer the same, and the worlds that they leave
are related. -/
def Agree (R R' : World → World → Prop) (a b : Action LeaseError α) : Prop :=
  ∀ ⦃w w'⦄, R w w' → ∃ answer v v', a w = (.ok answer, v) ∧ b w' = (.ok answer, v') ∧ R' v v'

theorem agree_pure (x : α) : Agree R R (pure x) (pure x) :=
  fun w w' h => ⟨x, w, w', rfl, rfl, h⟩

theorem Agree.bind {a b : Action LeaseError α} (h : Agree R R' a b)
    {f g : α → Action LeaseError β} (hfg : ∀ x, Agree R' R'' (f x) (g x)) :
    Agree R R'' (a >>= f) (b >>= g) := by
  intro w w' hw
  obtain ⟨x, v, v', ha, hb, hv⟩ := h hw
  rw [Action.bind_of_ok ha, Action.bind_of_ok hb]
  exact hfg x hv

/-! #### Parts of calls -/

theorem agree_countTry : Agree (Apart c holds leases) (Apart c holds leases) countTry countTry := by
  rintro _ _ ⟨tries, issued⟩
  exact ⟨_, _, _, rfl, rfl, ⟨tries + 1, issued⟩⟩

theorem agree_meetFault (call : LeaseCall) :
    Agree (Apart c holds leases) (Apart c holds leases) (meetFault call) (meetFault call) := by
  rintro _ _ ⟨tries, issued⟩
  exact ⟨_, _, _, rfl, rfl, ⟨tries, issued⟩⟩

theorem agree_issueToken :
    Agree (Apart c holds leases) (Apart c holds leases) issueToken issueToken := by
  rintro _ _ ⟨tries, issued⟩
  exact ⟨_, _, _, rfl, rfl, ⟨tries, issued + 1⟩⟩

/-- Finding a lease taken takes no time. -/
theorem agree_meetContention : Agree (Alike start c) (Alike start c) meetContention
    meetContention := by
  rintro _ _ ⟨holds, leases, hsame, ⟨tries, issued⟩⟩
  refine ⟨(), _, _, rfl, rfl, holds, leases, hsame, ?_⟩
  change Apart c holds leases { inMemory c holds tries issued with clock := c.advance Span.zero }
    { inStore c leases tries issued with clock := c.advance Span.zero }
  rw [c.advance_zero]
  exact ⟨tries, issued⟩

/-- **The services part ways** where they ask which ledger they keep. -/
theorem agree_backend {f g : LeaseBackend → Action LeaseError α}
    (hfg : Agree (Apart c holds leases) R (f (.memory holds)) (g .shared)) :
    Agree (Apart c holds leases) R (backend >>= f) (backend >>= g) := by
  rintro _ _ ⟨tries, issued⟩
  exact hfg ⟨tries, issued⟩

/-- One reads the elapsed time, which takes no time. -/
theorem agree_readElapsed (hc : c.KeepsStep start) {f : Span → Action LeaseError α}
    {b : Action LeaseError α} (hf : Agree (Apart c holds leases) R (f c.elapsed) b) :
    Agree (Apart c holds leases) R (readElapsed >>= f) b := by
  rintro _ _ ⟨tries, issued⟩
  have hread : (readElapsed : Action LeaseError Span) (inMemory c holds tries issued) =
      (.ok c.elapsed, inMemory c holds tries issued) := by
    change (Except.ok c.read.1, { inMemory c holds tries issued with clock := c.read.2 }) = _
    rw [Clock.read_of_idle hc.costs hc.tick]
    rfl
  rw [Action.bind_of_ok hread]
  exact hf ⟨tries, issued⟩

/-- The other reads the wall time. -/
theorem agree_wallTime {a : Action LeaseError α} {g : Instant → Action LeaseError α}
    (hg : Agree (Apart c holds leases) R a (g c.now)) :
    Agree (Apart c holds leases) R a (wallTime >>= g) := by
  rintro _ _ ⟨tries, issued⟩
  exact hg ⟨tries, issued⟩

/-- **They come together again** where both ledgers have changed, or neither has. -/
theorem agree_edit {f : Ledger Span → Option (Ledger Span)} {g : Ledger Int → Option (Ledger Int)}
    (hsame : SameLedger start c holds leases)
    (hfg : Option.Rel (SameLedger start c) (f holds) (g leases)) :
    Agree (Apart c holds leases) (Alike start c) (editMemory holds f)
      (editShared fun s => s.replaceLeases (g s.leases)) := by
  rintro _ _ ⟨tries, issued⟩
  have hedit := Action.edit_of_sound (w := inStore c leases tries issued) rfl fun s =>
    (Except.ok (s.replaceLeases (g s.leases)).1, (s.replaceLeases (g s.leases)).2)
  have hg : g (inStore c leases tries issued).store.leases = g leases := rfl
  rw [editMemory, editShared, Action.mapFault_of_ok hedit, hg]
  generalize f holds = x, g leases = y at hfg
  cases hfg with
  | none => exact ⟨false, _, _, rfl, rfl, _, _, hsame, ⟨tries, issued⟩⟩
  | some hsame' => exact ⟨true, _, _, rfl, rfl, _, _, hsame', ⟨tries, issued⟩⟩

/-! #### Calls -/

section Calls

variable {key : String} {ttl : Span} (hc : c.KeepsStep start)
  (hsame : SameLedger start c holds leases)

include hsame

/-- **The services agree whether a guard is its holder's** when it is given back. -/
theorem agree_cancel (guard : LeaseGuard) :
    Agree (Apart c holds leases) (Alike start c) (cancel guard) (cancel guard) :=
  (agree_meetFault .cancel).bind fun _ => agree_backend (agree_edit hsame hsame.cancel)

include hc

/-- **The services agree whether a key can be taken.** -/
theorem agree_tryObtain (httl : ttl.nanos % 1000000 = 0)
    (hfits : holds.live? key c.elapsed = none → c.now.nanos + ttl.nanos ≤ Instant.last.nanos) :
    Agree (Apart c holds leases) (Alike start c) (tryObtain key ttl) (tryObtain key ttl) := by
  refine agree_countTry.bind fun _ => (agree_meetFault .obtain).bind fun _ =>
    agree_issueToken.bind fun token => agree_backend ?_
  refine agree_readElapsed hc (agree_readElapsed hc (agree_wallTime ?_))
  refine (agree_edit hsame (hsame.take hc httl hfits)).bind fun isTaken => ?_
  cases isTaken with
  | true => exact agree_pure _
  | false => exact agree_meetContention.bind fun _ => agree_pure _

/-- **They agree whether a guard is its holder's** when it is renewed. -/
theorem agree_renew (guard : LeaseGuard) (httl : ttl.nanos % 1000000 = 0)
    (hfits : ∀ expiry, holds.live? guard.key c.elapsed = some ⟨guard.token, expiry⟩ →
      c.now.nanos + ttl.nanos ≤ Instant.last.nanos) :
    Agree (Apart c holds leases) (Alike start c) (renew guard ttl) (renew guard ttl) := by
  refine (agree_meetFault .renew).bind fun _ => agree_backend ?_
  refine agree_readElapsed hc (agree_readElapsed hc (agree_wallTime ?_))
  exact agree_edit hsame (hsame.renew hc httl hfits)

/-- **They agree who holds a key.** -/
theorem agree_holder (key : String) :
    Agree (Apart c holds leases) (Alike start c) (holder key) (holder key) := by
  refine (agree_meetFault .holder).bind fun _ => agree_backend ?_
  refine agree_readElapsed hc (agree_wallTime ?_)
  rintro _ _ ⟨tries, issued⟩
  obtain ⟨held, hheld, htoken⟩ := hsame.holder hc key
  have hlook : look (fun s => s.leaseHolder? key c.now) (inStore c leases tries issued) =
      (.ok held, inStore c leases tries issued) :=
    congrArg (·, inStore c leases tries issued) hheld
  rw [Action.bind_of_ok (Action.mapFault_of_ok hlook _), ← htoken]
  exact ⟨_, _, _, rfl, rfl, _, _, hsame, ⟨tries, issued⟩⟩

/-- **They agree on everything that is asked of them.** -/
theorem agree_serve {tries issued : Nat} {q : LeaseRequest}
    (hq : q.Fits (inMemory c holds tries issued)) :
    Agree (Apart c holds leases) (Alike start (q.clock c)) (serve q) (serve q) := by
  cases q with
  | obtain key ttl =>
    have hfits (hlive : holds.live? key c.elapsed = none) :=
      hq.2 (World.hasReached_of_live?_eq_none hlive)
    exact (agree_tryObtain hc hsame hq.1 hfits).bind fun _ => agree_pure _
  | cancel guard => exact (agree_cancel hsame guard).bind fun _ => agree_pure _
  | renew guard ttl =>
    have hfits expiry (hlive : holds.live? guard.key c.elapsed = some ⟨guard.token, expiry⟩) :=
      hq.2 (World.exists_of_live?_eq_some hlive)
    exact (agree_renew hc hsame guard hq.1 hfits).bind fun _ => agree_pure _
  | holder key => exact (agree_holder hc hsame key).bind fun _ => agree_pure _
  | isHeld key =>
    exact ((agree_holder hc hsame key).bind fun _ => agree_pure _).bind fun _ => agree_pure _
  | advance d =>
    rintro _ _ ⟨tries, issued⟩
    exact ⟨_, _, _, rfl, rfl, holds, leases, hsame.advance hc hq, ⟨tries, issued⟩⟩

end Calls

/-! #### Runs -/

theorem keepsStep_clock {w : World} (hc : c.KeepsStep start) {q : LeaseRequest} (hq : q.Fits w) :
    (q.clock c).KeepsStep start := by
  cases q with
  | advance d => exact hc.advance hq
  | obtain _ _ | cancel _ | renew _ _ | holder _ | isHeld _ => exact hc

/-- **Two services with the same leases** answer the same, one request after another. -/
theorem serveAll_of_alike {qs : List LeaseRequest} {w w' : World} (hc : c.KeepsStep start)
    (hqs : LeaseRequest.FitAll qs w) (hw : Alike start c w w') :
    ∃ answers : List LeaseAnswer, (serveAll qs w).1 = answers.map .ok ∧
      (serveAll qs w').1 = answers.map .ok := by
  induction qs generalizing c w w' with
  | nil => exact ⟨[], rfl, rfl⟩
  | cons q qs ih =>
    obtain ⟨hq, hqs⟩ := hqs
    obtain ⟨holds, leases, hsame, ⟨tries, issued⟩⟩ := hw
    obtain ⟨answer, v, v', hmemory, hstore, hv⟩ := agree_serve hc hsame hq ⟨tries, issued⟩
    rw [hmemory] at hqs
    obtain ⟨answers, hmemory', hstore'⟩ := ih (keepsStep_clock hc hq) hqs hv
    refine ⟨answer :: answers, ?_, ?_⟩
    · rw [serveAll, hmemory, List.map_cons, ← hmemory']
    · rw [serveAll, hstore, List.map_cons, ← hstore']

/-- **The two lease services agree.** Both start with no leases, by the same clock, at a whole
millisecond. Whatever is asked of them, with any time passing in between, they give the same
answers; tokens are told apart by the order in which they were issued. Everybody counts in whole
milliseconds, and no deadline lies beyond the last instant. -/
theorem serveAll_agree (start : Instant) (hstart : start.nanos % 1000000 = 0)
    (qs : List LeaseRequest)
    (hqs : LeaseRequest.FitAll qs
      { clock := { wall := start }, leases := { backend := .memory [] } }) :
    ∃ answers : List LeaseAnswer,
      (serveAll qs { clock := { wall := start }, leases := { backend := .memory [] } }).1 =
          answers.map .ok ∧
        (serveAll qs { clock := { wall := start }, leases := { backend := .shared } }).1 =
          answers.map .ok :=
  serveAll_of_alike (Clock.keepsStep_start hstart) hqs ⟨[], [], fun _ => .absent, ⟨0, 0⟩⟩

/-- **A lease is taken over.** Nobody else gets the key while the first lease is live, however long
they want it for. At its deadline it cannot be renewed any more, but it can still be given back; the
second lease is over when the third takes its place, and cannot be given back after that. -/
def takeover : List LeaseRequest :=
  let ms := Span.ofMillis
  [.obtain "a" (ms 1000), .obtain "a" (.ofSeconds 18446744073709551615), .advance (ms 1000),
    .renew ⟨"a", .issued 0, ms 1000⟩ (ms 5), .holder "a", .cancel ⟨"a", .issued 0, ms 1000⟩,
    .obtain "a" (ms 1), .advance (ms 1), .obtain "a" (ms 2), .cancel ⟨"a", .issued 2, ms 1⟩,
    .renew ⟨"a", .issued 3, ms 2⟩ (ms 7), .isHeld "a"]

theorem fitAll_takeover : LeaseRequest.FitAll takeover
    { clock := { wall := .epoch }, leases := { backend := .memory [] } } := by
  have hheld {w : World} {d : Span} (h : w.lease? "a" = some ⟨.issued 0, .elapsed d⟩)
      (hlive : w.clock.elapsed < d) {p : Prop} :
      (∀ h, w.lease? "a" = some h → w.HasReached h.expiry) → p :=
    fun hfree => absurd hlive (hfree _ h)
  exact ⟨⟨rfl, fun _ => by decide⟩, ⟨rfl, hheld rfl (by decide)⟩, rfl, ⟨rfl, fun _ => by decide⟩,
    trivial, trivial, ⟨rfl, fun _ => by decide⟩, rfl, ⟨rfl, fun _ => by decide⟩, trivial,
    ⟨rfl, fun _ => by decide⟩, trivial, trivial⟩

theorem serveAll_agree_takeover :
    ∃ answers : List LeaseAnswer,
      (serveAll takeover { clock := { wall := .epoch }, leases := { backend := .memory [] } }).1 =
          answers.map .ok ∧
        (serveAll takeover { clock := { wall := .epoch }, leases := { backend := .shared } }).1 =
          answers.map .ok :=
  serveAll_agree .epoch (by decide) takeover fitAll_takeover

example : (serveAll takeover { clock := { wall := .epoch } }).1 =
    [.ok (.taken (some ⟨"a", .issued 0, .ofMillis 1000⟩)), .ok (.taken none), .ok .passed,
      .ok (.done false), .ok (.holder none), .ok (.done true),
      .ok (.taken (some ⟨"a", .issued 2, .ofMillis 1⟩)), .ok .passed,
      .ok (.taken (some ⟨"a", .issued 3, .ofMillis 2⟩)), .ok (.done false), .ok (.done true),
      .ok (.held true)] := by
  rfl

end Lease

end Leasehold
