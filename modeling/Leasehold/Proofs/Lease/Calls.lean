import Leasehold.Lease.Service
import Leasehold.Proofs.Lease.Ledger
import Leasehold.Proofs.World.Actions

/-!
# What the calls on the lease service do

The service keeps leases in one of two ledgers, with deadlines on one of two times. The proofs
about leases do not care which: they ask which lease a key has (`Leasehold.World.lease?`) and
whether the clock has reached its deadline (`Leasehold.World.HasReached`), and this file says what
each call does to the answers.

* A lease is taken only where there is none that is live (`Leasehold.Lease.tryObtain_cases`).
* A guard that is given back, or renewed, touches the lease of its own key, and that one only while
  it has the guard's token (`Leasehold.Lease.ownLease_cancel`, `Leasehold.Lease.ownLease_renew`).

No call does anything to the tables of the store beside the one of leases
(`Leasehold.World.OnlyLeases`).
-/

namespace Leasehold

/-- **The deadline of a lease** in either ledger. -/
inductive Deadline where
  /-- On the elapsed time. -/
  | elapsed (d : Span)
  /-- On the wall time, in whole milliseconds. -/
  | wall (ms : Int)
deriving DecidableEq

namespace World

/-- **The lease of a key**, live or not, in the ledger that the service keeps. -/
def lease? (w : World) (key : String) : Option (Hold Deadline) :=
  match w.leases.backend with
  | .memory holds => (holds.find? key).map fun h => ⟨h.token, .elapsed h.expiry⟩
  | .shared => (w.store.leases.find? key).map fun h => ⟨h.token, .wall h.expiry⟩

theorem lease?_of_memory {w : World} {holds : Ledger Span} (hw : w.leases.backend = .memory holds)
    (key : String) :
    w.lease? key = (holds.find? key).map fun h => ⟨h.token, .elapsed h.expiry⟩ := by
  rw [lease?, hw]

theorem lease?_of_shared {w : World} (hw : w.leases.backend = .shared) (key : String) :
    w.lease? key = (w.store.leases.find? key).map fun h => ⟨h.token, .wall h.expiry⟩ := by
  rw [lease?, hw]

/-- **The clock has reached a deadline**, so that a lease until then is not live any more. -/
def HasReached (w : World) : Deadline → Prop
  | .elapsed d => ¬w.clock.elapsed < d
  | .wall ms => ¬w.now.millis < ms

/-- Which deadlines are reached is for the clock to say. -/
theorem HasReached.of_clock_eq {w w' : World} {d : Deadline} (h : w.HasReached d)
    (hclock : w'.clock = w.clock) : w'.HasReached d := by
  cases d with
  | elapsed d =>
    rw [HasReached, hclock]
    exact h
  | wall ms =>
    rw [HasReached, now, hclock]
    exact h

/-- **Only leases and times have changed**: the database is the same but for its table of leases,
and no token was taken back. -/
structure OnlyLeases (w w' : World) : Prop where
  /-- The tables of the store beside the one of leases. -/
  store : { w'.store with leases := w.store.leases } = w.store
  /-- Whether the database is poisoned. -/
  isPoisoned : w'.database.isPoisoned = w.database.isPoisoned
  /-- Tokens are not issued again. -/
  issued : w.leases.issued ≤ w'.leases.issued

/-- **Only times have changed**: every key has the lease that it had. -/
structure OnlyTimes (w w' : World) : Prop extends OnlyLeases w w' where
  /-- The lease of each key. -/
  lease : ∀ key, w'.lease? key = w.lease? key

/-- **Only the lease of one key has changed**, and times. -/
structure OnlyLease (key : String) (w w' : World) : Prop extends OnlyLeases w w' where
  /-- The lease of every other key. -/
  lease_of_ne : ∀ key' ≠ key, w'.lease? key' = w.lease? key'

/-- **The clock and all leases are as they were.** -/
structure KeepsLeases (w w' : World) : Prop where
  /-- The clock. -/
  clock : w'.clock = w.clock
  /-- The lease of each key. -/
  lease : ∀ key, w'.lease? key = w.lease? key
  /-- The tokens that were issued. -/
  issued : w'.leases.issued = w.leases.issued

variable {w w' w'' : World} {key : String}

theorem OnlyLeases.trans (h : OnlyLeases w w') (h' : OnlyLeases w' w'') : OnlyLeases w w'' := by
  refine ⟨?_, h'.isPoisoned.trans h.isPoisoned, Nat.le_trans h.issued h'.issued⟩
  have hstore := congrArg (fun s : Store => { s with leases := w.store.leases }) h'.store
  exact hstore.trans h.store

/-- Whatever is not about leases is found in the store as it was. -/
theorem OnlyLeases.find_eq {β : Type} (h : OnlyLeases w w') {f : Store → β}
    (hf : ∀ (s : Store) (leases : Ledger Int), f { s with leases } = f s) :
    f w'.store = f w.store :=
  (hf w'.store w.store.leases).symm.trans (congrArg f h.store)

theorem OnlyTimes.refl (w : World) : OnlyTimes w w := ⟨⟨rfl, rfl, Nat.le_refl _⟩, fun _ => rfl⟩

theorem onlyTimes_clock (w : World) (clock : Clock) : OnlyTimes w { w with clock } :=
  ⟨⟨rfl, rfl, Nat.le_refl _⟩, fun _ => rfl⟩

theorem OnlyTimes.trans (h : OnlyTimes w w') (h' : OnlyTimes w' w'') : OnlyTimes w w'' :=
  ⟨h.toOnlyLeases.trans h'.toOnlyLeases, fun key => (h'.lease key).trans (h.lease key)⟩

theorem OnlyTimes.onlyLease (h : OnlyTimes w w') (key : String) : OnlyLease key w w' :=
  ⟨h.toOnlyLeases, fun key' _ => h.lease key'⟩

theorem OnlyLease.trans (h : OnlyLease key w w') (h' : OnlyLease key w' w'') :
    OnlyLease key w w'' :=
  ⟨h.toOnlyLeases.trans h'.toOnlyLeases,
    fun key' hk => (h'.lease_of_ne key' hk).trans (h.lease_of_ne key' hk)⟩

/-- Another ledger in memory. -/
theorem onlyLease_memory {holds holds' : Ledger Span} (hw : w.leases.backend = .memory holds)
    (h : ∀ key' ≠ key, holds'.find? key' = holds.find? key') :
    OnlyLease key w { w with leases := { w.leases with backend := .memory holds' } } := by
  refine ⟨⟨rfl, rfl, Nat.le_refl _⟩, fun key' hk => ?_⟩
  rw [lease?_of_memory hw, ← h key' hk]
  rfl

/-- Another ledger in the store. -/
theorem onlyLease_shared {leases : Ledger Int} (hw : w.leases.backend = .shared)
    (h : ∀ key' ≠ key, leases.find? key' = w.store.leases.find? key') :
    OnlyLease key w (w.withStore { w.store with leases }) := by
  refine ⟨⟨rfl, rfl, Nat.le_refl _⟩, fun key' hk => ?_⟩
  rw [lease?_of_shared hw, ← h key' hk]
  exact lease?_of_shared (w := w.withStore { w.store with leases }) hw key'

theorem KeepsLeases.refl (w : World) : w.KeepsLeases w := ⟨rfl, fun _ => rfl, rfl⟩

/-- Another store with the same leases. -/
theorem keepsLeases_withStore {w : World} {s : Store} (hs : s.leases = w.store.leases) :
    w.KeepsLeases (w.withStore s) := by
  refine ⟨rfl, fun key => ?_, rfl⟩
  cases hb : w.leases.backend with
  | memory holds => rw [lease?_of_memory hb, lease?_of_memory (w := w.withStore s) hb]
  | shared =>
    rw [lease?_of_shared hb, lease?_of_shared (w := w.withStore s) hb, store_withStore, hs]

end World

namespace Lease

variable {w w' w'' : World}

/-! ### Parts of calls -/

/-- Meeting a fault takes one of those that wait, and does nothing else. -/
theorem meetFault_cases (call : LeaseCall) (w : World) :
    ∃ w', w.OnlyTimes w' ∧ w'.clock = w.clock ∧ w'.leases.issued = w.leases.issued ∧
      (meetFault call w = (.ok (), w') ∨ ∃ e, meetFault call w = (.error e, w')) := by
  have hfaults : ∀ faults, w.OnlyTimes { w with leases := { w.leases with faults } } :=
    fun faults => ⟨⟨rfl, rfl, Nat.le_refl _⟩, fun _ => rfl⟩
  rw [meetFault]
  split
  · exact ⟨w, .refl w, rfl, rfl, .inl rfl⟩
  · rename_i fails rest _
    refine ⟨_, hfaults fun c => if c = call then rest else w.leases.faults c, rfl, rfl, ?_⟩
    cases fails with
    | true => exact .inr ⟨_, rfl⟩
    | false => exact .inl rfl

/-- A change of the ledger in memory. -/
theorem editMemory_cases (holds : Ledger Span) (f : Ledger Span → Option (Ledger Span))
    (w : World) :
    (∃ holds', f holds = some holds' ∧ editMemory holds f w =
        (.ok true, { w with leases := { w.leases with backend := .memory holds' } })) ∨
      f holds = none ∧ editMemory holds f w = (.ok false, w) := by
  rw [editMemory]
  cases f holds with
  | none => exact .inr ⟨rfl, rfl⟩
  | some holds' => exact .inl ⟨holds', rfl, rfl⟩

/-- A change of the ledger in the store. -/
theorem editShared_cases (f : Ledger Int → Option (Ledger Int)) (w : World) :
    (∃ leases, f w.store.leases = some leases ∧
        editShared (fun s => s.replaceLeases (f s.leases)) w =
          (.ok true, w.withStore { w.store with leases })) ∨
      ∃ answer, answer ≠ .ok true ∧
        editShared (fun s => s.replaceLeases (f s.leases)) w = (answer, w) := by
  rw [editShared]
  cases hw : w.database.isPoisoned with
  | true =>
    rw [Action.mapFault_of_error (Action.edit_of_poisoned hw _)]
    exact .inr ⟨.error _, nofun, rfl⟩
  | false =>
    have hedit := Action.edit_of_sound hw fun s =>
      (Except.ok (s.replaceLeases (f s.leases)).1, (s.replaceLeases (f s.leases)).2)
    rw [Action.mapFault_of_ok hedit]
    cases hf : f w.store.leases with
    | none => exact .inr ⟨.ok false, nofun, rfl⟩
    | some leases => exact .inl ⟨leases, rfl, rfl⟩

/-! ### Taking -/

/-- **A key was taken**: its lease was not live, and it has one now with a token that was never
issued before. -/
structure Taken (key : String) (w w' : World) (guard : LeaseGuard) : Prop
    extends w.OnlyLease key w' where
  /-- The guard is for the key. -/
  key_eq : guard.key = key
  /-- Its token is the next one. -/
  token_eq : guard.token = .issued w.leases.issued
  /-- That token is not issued again. -/
  issued_lt : w.leases.issued < w'.leases.issued
  /-- The key had no live lease. -/
  free : ∀ h, w.lease? key = some h → w.HasReached h.expiry
  /-- It has one with the guard's token. -/
  lease_self : ∃ expiry, w'.lease? key = some ⟨guard.token, expiry⟩

/-- **What an attempt comes to** once its token was issued: the key is taken with that token, or
no lease has changed. -/
def Tried (key : String) (token : Token) (w w' : World) : Bool → Prop
  | true =>
    w.OnlyLease key w' ∧ (∀ h, w.lease? key = some h → w.HasReached h.expiry) ∧
      ∃ expiry, w'.lease? key = some ⟨token, expiry⟩
  | false => w.OnlyTimes w'

section Ledgers

variable {α : Type} {key : String} {token : Token} (ttl : Span) (f : Bool → Action LeaseError α)

/-- An attempt in memory, and what follows it. -/
theorem tried_memory {holds : Ledger Span} (hw : w.leases.backend = .memory holds) :
    ∃ isTaken w', (readElapsed >>= fun now => readElapsed >>= fun start =>
        editMemory holds (Ledger.take? key token now (start + ttl)) >>= f) w = f isTaken w' ∧
      Tried key token w w' isTaken := by
  let w₁ : World := { w with clock := w.clock.read.2 }
  let w₂ : World := { w₁ with clock := w₁.clock.read.2 }
  have hreads : w.OnlyTimes w₂ := w.onlyTimes_clock _
  rw [Action.bind_of_ok (show readElapsed w = (.ok w.clock.elapsed, w₁) from rfl),
    Action.bind_of_ok (show readElapsed w₁ = (.ok w₁.clock.elapsed, w₂) from rfl)]
  rcases editMemory_cases holds (Ledger.take? key token w.clock.elapsed (w₁.clock.elapsed + ttl)) w₂
    with ⟨holds', htake, hedit⟩ | ⟨-, hedit⟩
  · obtain ⟨hfree, hself, hothers⟩ := Ledger.take?_eq_some htake
    rw [Action.bind_of_ok hedit]
    refine ⟨true, _, rfl, (hreads.onlyLease key).trans (World.onlyLease_memory hw hothers),
      fun lease hlease => ?_, .elapsed (w₁.clock.elapsed + ttl), ?_⟩
    · rw [World.lease?_of_memory hw, Option.map_eq_some_iff] at hlease
      obtain ⟨h, hh, rfl⟩ := hlease
      exact hfree h hh
    · rw [World.lease?_of_memory rfl, hself]
      rfl
  · rw [Action.bind_of_ok hedit]
    exact ⟨false, w₂, rfl, hreads⟩

/-- An attempt in the store, and what follows it. -/
theorem tried_shared (hw : w.leases.backend = .shared) :
    (∃ isTaken w', (wallTime >>= fun now =>
        editShared (fun s => s.takeLease key token now (now + ttl)) >>= f) w = f isTaken w' ∧
      Tried key token w w' isTaken) ∨
      ∃ e, (wallTime >>= fun now =>
        editShared (fun s => s.takeLease key token now (now + ttl)) >>= f) w = (.error e, w) := by
  rw [Action.bind_of_ok (show wallTime w = (.ok w.now, w) from rfl)]
  rcases editShared_cases (Ledger.take? key token w.now.millis (w.now + ttl).millis) w with
    ⟨leases, htake, hedit⟩ | ⟨answer, hanswer, hedit⟩
  · obtain ⟨hfree, hself, hothers⟩ := Ledger.take?_eq_some htake
    rw [Action.bind_of_ok (show editShared (fun s => s.takeLease key token w.now (w.now + ttl)) w =
      _ from hedit)]
    refine .inl ⟨true, _, rfl, World.onlyLease_shared hw hothers, fun lease hlease => ?_,
      .wall (w.now + ttl).millis, ?_⟩
    · rw [World.lease?_of_shared hw, Option.map_eq_some_iff] at hlease
      obtain ⟨h, hh, rfl⟩ := hlease
      exact hfree h hh
    · rw [World.lease?_of_shared (w := w.withStore { w.store with leases }) hw,
        World.store_withStore, hself]
      rfl
  · match answer, hanswer with
    | .error e, _ =>
      rw [Action.bind_of_error (show editShared (fun s => s.takeLease key token w.now
        (w.now + ttl)) w = _ from hedit)]
      exact .inr ⟨e, rfl⟩
    | .ok false, _ =>
      rw [Action.bind_of_ok (show editShared (fun s => s.takeLease key token w.now
        (w.now + ttl)) w = _ from hedit)]
      exact .inl ⟨false, w, rfl, .refl w⟩
    | .ok true, hanswer => exact absurd rfl hanswer

end Ledgers

/-- **An attempt to take a key** takes it, or changes no lease. -/
theorem tryObtain_cases (key : String) (ttl : Span) (w : World) :
    (∃ guard, (tryObtain key ttl w).1 = .ok (some guard) ∧
        Taken key w (tryObtain key ttl w).2 guard) ∨
      (∀ guard, (tryObtain key ttl w).1 ≠ .ok (some guard)) ∧
        w.OnlyTimes (tryObtain key ttl w).2 := by
  let w₀ : World := { w with leases := { w.leases with tries := w.leases.tries + 1 } }
  have htry : w.OnlyTimes w₀ := ⟨⟨rfl, rfl, Nat.le_refl _⟩, fun _ => rfl⟩
  rw [tryObtain]
  rw [Action.bind_of_ok (show countTry w = (.ok (), w₀) from rfl)]
  obtain ⟨w₁, hmeet, hclock, hissued, hfault | ⟨e, hfault⟩⟩ := meetFault_cases .obtain w₀
  · rw [Action.bind_of_ok hfault]
    let w₂ : World := { w₁ with leases := { w₁.leases with issued := w₁.leases.issued + 1 } }
    have hissue : w₁.OnlyTimes w₂ := ⟨⟨rfl, rfl, Nat.le_succ _⟩, fun _ => rfl⟩
    have htimes : w.OnlyTimes w₂ := (htry.trans hmeet).trans hissue
    have htoken : Token.issued w₁.leases.issued = .issued w.leases.issued :=
      congrArg Token.issued hissued
    have hlt : w.leases.issued < w₂.leases.issued := by
      change w.leases.issued < w₁.leases.issued + 1
      rw [hissued]
      exact Nat.lt_succ_self _
    -- Until the ledger is asked nothing has happened to leases, and no time has passed.
    have htaken : ∀ w', Tried key (.issued w₁.leases.issued) w₂ w' true →
        Taken key w w' ⟨key, .issued w₁.leases.issued, ttl⟩ := by
      rintro w' ⟨honly, hfree, hself⟩
      exact ⟨(htimes.onlyLease key).trans honly, rfl, htoken, Nat.lt_of_lt_of_le hlt honly.issued,
        fun h hh => (hfree h ((htimes.lease key).trans hh)).of_clock_eq hclock.symm, hself⟩
    rw [Action.bind_of_ok (show issueToken w₁ = (.ok (.issued w₁.leases.issued), w₂) from rfl)]
    rw [Action.bind_of_ok (show backend w₂ = (.ok w₂.leases.backend, w₂) from rfl)]
    cases hb : w₂.leases.backend with
    | memory holds =>
      dsimp only
      obtain ⟨isTaken, w', heq, htried⟩ := tried_memory ttl _ hb
      rw [heq]
      cases isTaken with
      | true => exact .inl ⟨_, rfl, htaken w' htried⟩
      | false => exact .inr ⟨nofun, (htimes.trans htried).trans (w'.onlyTimes_clock _)⟩
    | shared =>
      dsimp only
      rcases tried_shared ttl _ hb with ⟨isTaken, w', heq, htried⟩ | ⟨e, heq⟩
      · rw [heq]
        cases isTaken with
        | true => exact .inl ⟨_, rfl, htaken w' htried⟩
        | false => exact .inr ⟨nofun, (htimes.trans htried).trans (w'.onlyTimes_clock _)⟩
      · rw [heq]
        exact .inr ⟨nofun, htimes⟩
  · rw [Action.bind_of_error hfault]
    exact .inr ⟨nofun, htry.trans hmeet⟩

/-! ### Giving back and renewing -/

/-- **Only times have changed, or the lease of a guard's key**, which had its token and is another
one now. -/
def OwnLease (guard : LeaseGuard) (w w' : World) (after : Option (Hold Deadline) → Prop) : Prop :=
  w.OnlyTimes w' ∨
    w.OnlyLease guard.key w' ∧ (∃ h, w.lease? guard.key = some h ∧ h.token = guard.token) ∧
      after (w'.lease? guard.key)

section Own

variable {guard : LeaseGuard} {after : Option (Hold Deadline) → Prop}

theorem OwnLease.of_onlyTimes (h : w.OnlyTimes w') (h' : OwnLease guard w' w'' after) :
    OwnLease guard w w'' after := by
  rcases h' with h' | ⟨h', ⟨lease, hlease, htoken⟩, hafter⟩
  · exact .inl (h.trans h')
  · refine .inr ⟨(h.onlyLease guard.key).trans h', ⟨lease, ?_, htoken⟩, hafter⟩
    rw [← h.lease]
    exact hlease

/-- **A lease of another key, or with another token, stays as it is.** -/
theorem OwnLease.lease_eq (ho : OwnLease guard w w' after) {key : String} {h : Hold Deadline}
    (hlease : w.lease? key = some h) (hne : key ≠ guard.key ∨ h.token ≠ guard.token) :
    w'.lease? key = some h := by
  rcases ho with ho | ⟨ho, ⟨own, hown, htoken⟩, -⟩
  · rw [ho.lease, hlease]
  · have hkey : key ≠ guard.key := by
      rintro rfl
      rw [hlease] at hown
      cases hown
      rcases hne with hne | hne
      · exact hne rfl
      · exact hne htoken
    rw [ho.lease_of_ne key hkey, hlease]

theorem OwnLease.onlyLeases (ho : OwnLease guard w w' after) : w.OnlyLeases w' := by
  rcases ho with ho | ⟨ho, -⟩
  · exact ho.toOnlyLeases
  · exact ho.toOnlyLeases

/-- A change in memory of a lease that has the guard's token. -/
theorem ownLease_editMemory {holds : Ledger Span} {f : Ledger Span → Option (Ledger Span)}
    {r : Option (Hold Span)} (hw : w.leases.backend = .memory holds)
    (hf : ∀ holds', f holds = some holds' →
      (∃ h, holds.find? guard.key = some h ∧ h.token = guard.token) ∧
        holds'.find? guard.key = r ∧ ∀ key ≠ guard.key, holds'.find? key = holds.find? key)
    (hafter : after (r.map fun h => ⟨h.token, .elapsed h.expiry⟩)) :
    OwnLease guard w (editMemory holds f w).2 after := by
  rcases editMemory_cases holds f w with ⟨holds', hedit, h⟩ | ⟨-, h⟩
  · obtain ⟨⟨lease, hlease, htoken⟩, hself, hothers⟩ := hf holds' hedit
    rw [h]
    refine .inr ⟨World.onlyLease_memory hw hothers, ⟨⟨lease.token, .elapsed lease.expiry⟩, ?_,
      htoken⟩, ?_⟩
    · rw [World.lease?_of_memory hw, hlease]
      rfl
    · rw [World.lease?_of_memory rfl, hself]
      exact hafter
  · rw [h]
    exact .inl (.refl w)

/-- A change in the store of a lease that has the guard's token. -/
theorem ownLease_editShared {f : Ledger Int → Option (Ledger Int)} {r : Option (Hold Int)}
    (hw : w.leases.backend = .shared)
    (hf : ∀ leases, f w.store.leases = some leases →
      (∃ h, w.store.leases.find? guard.key = some h ∧ h.token = guard.token) ∧
        leases.find? guard.key = r ∧ ∀ key ≠ guard.key, leases.find? key = w.store.leases.find? key)
    (hafter : after (r.map fun h => ⟨h.token, .wall h.expiry⟩)) :
    OwnLease guard w (editShared (fun s => s.replaceLeases (f s.leases)) w).2 after := by
  rcases editShared_cases f w with ⟨leases, hedit, h⟩ | ⟨answer, -, h⟩
  · obtain ⟨⟨lease, hlease, htoken⟩, hself, hothers⟩ := hf leases hedit
    rw [h]
    refine .inr ⟨World.onlyLease_shared hw hothers, ⟨⟨lease.token, .wall lease.expiry⟩, ?_,
      htoken⟩, ?_⟩
    · rw [World.lease?_of_shared hw, hlease]
      rfl
    · rw [World.lease?_of_shared (w := w.withStore { w.store with leases }) hw,
        World.store_withStore, hself]
      exact hafter
  · rw [h]
    exact .inl (.refl w)

/-- **A guard given back** leaves every lease as it is, or ends the one of its key, which had its
token. -/
theorem ownLease_cancel (guard : LeaseGuard) (w : World) :
    OwnLease guard w (cancel guard w).2 (· = none) := by
  rw [cancel]
  obtain ⟨w₁, htimes, -, -, hfault | ⟨e, hfault⟩⟩ := meetFault_cases .cancel w
  · rw [Action.bind_of_ok hfault]
    refine .of_onlyTimes htimes ?_
    rw [Action.bind_of_ok (show backend w₁ = (.ok w₁.leases.backend, w₁) from rfl)]
    cases hb : w₁.leases.backend with
    | memory holds => exact ownLease_editMemory hb (fun _ => Ledger.cancel?_eq_some) rfl
    | shared => exact ownLease_editShared hb (fun _ => Ledger.cancel?_eq_some) rfl
  · rw [Action.bind_of_error hfault]
    exact .inl htimes

theorem lease?_cancel_of_ne {key : String} (hne : key ≠ guard.key) (w : World) :
    (cancel guard w).2.lease? key = w.lease? key := by
  rcases ownLease_cancel guard w with htimes | ⟨honly, -⟩
  · exact htimes.lease key
  · exact honly.lease_of_ne key hne

/-- **A guard that is renewed** leaves every lease as it is, or gives another deadline to the one
of its key, which had its token and keeps it. -/
theorem ownLease_renew (guard : LeaseGuard) (ttl : Span) (w : World) :
    OwnLease guard w (renew guard ttl w).2 fun h => ∃ expiry, h = some ⟨guard.token, expiry⟩ := by
  rw [renew]
  obtain ⟨w₁, htimes, -, -, hfault | ⟨e, hfault⟩⟩ := meetFault_cases .renew w
  · rw [Action.bind_of_ok hfault]
    refine .of_onlyTimes htimes ?_
    rw [Action.bind_of_ok (show backend w₁ = (.ok w₁.leases.backend, w₁) from rfl)]
    cases hb : w₁.leases.backend with
    | memory holds =>
      refine .of_onlyTimes (w₁.onlyTimes_clock w₁.clock.read.2.read.2) ?_
      exact ownLease_editMemory (w := { w₁ with clock := w₁.clock.read.2.read.2 }) hb
        (fun _ => Ledger.renew?_eq_some) ⟨_, rfl⟩
    | shared => exact ownLease_editShared hb (fun _ => Ledger.renew?_eq_some) ⟨_, rfl⟩
  · rw [Action.bind_of_error hfault]
    exact .inl htimes

end Own

end Lease

end Leasehold
