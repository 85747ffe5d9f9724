import Leasehold.Proofs.Lease.Tenure

/-!
# How long a lease lives

From the moment that a guard is given its lease, by an attempt or by a renewal, until its time has
run out, the key has that guard's token: whoever asks is told so, and no attempt of anybody gets the
key (`Leasehold.Lease.Grants.lives`). Unlike the bound of `Leasehold.Lease.not_taken_meanwhile` this
one is for any clock that does not go back, with readings at any nanoseconds.

How long that is depends on the ledger (`Leasehold.LeaseBackend.lifetime`). In memory it is the time
that was asked for. In the store a lease ends with the millisecond before the one in which that time
runs out, because its deadline is rounded down and counts as reached within the millisecond that it
names. So it ends early, by less than a millisecond, and a lease for a part of a millisecond may never
live at all (`Leasehold.Lease.not_lives_halfMilli`).
-/

namespace Leasehold

namespace LeaseBackend

/-- **The time that deadlines are on**, in nanoseconds. -/
def reading : LeaseBackend → Clock → Int
  | .memory _, c => c.elapsed.nanos
  | .shared, c => c.now.nanos

/-- **The reading from which a deadline is reckoned**: in memory the second of the two that a call
makes. -/
def start : LeaseBackend → Clock → Int
  | .memory _, c => c.read.2.elapsed.nanos
  | .shared, c => c.now.nanos

/-- **The end of the time that deadlines are on.** -/
def horizon : LeaseBackend → Int
  | .memory _ => Span.longest.nanos
  | .shared => Instant.last.nanos

/-- **For how long a lease lives** that is given for some time, in nanoseconds: in the store it does
not see the millisecond in which that time runs out. -/
def lifetime : LeaseBackend → Int → Span → Int
  | .memory _, _, ttl => ttl.nanos
  | .shared, start, ttl => ttl.nanos - (start + ttl.nanos) % 1000000

end LeaseBackend

namespace World

variable {u w : World} {ttl : Span}

/-- **The service is up** for a call: no fault waits for it, and if leases are kept in the store, the
database is not poisoned. -/
def IsUpFor (w : World) (call : LeaseCall) : Prop :=
  (w.leases.faults call).head? ≠ some true ∧
    (w.leases.backend = .shared → w.database.isPoisoned = false)

/-- **A deadline is not reached** while a lease until then lives. -/
theorem not_hasReached_of_lt_lifetime
    (hrange : u.leases.backend.start u.clock + ttl.nanos ≤ u.leases.backend.horizon)
    (hwithin : u.leases.backend.reading w.clock - u.leases.backend.start u.clock <
      u.leases.backend.lifetime (u.leases.backend.start u.clock) ttl) :
    ¬w.HasReached (u.deadline ttl) := by
  cases hb : u.leases.backend with
  | memory holds =>
    -- The sum is within the range, so the deadline is the exact one.
    rw [hb] at hrange hwithin
    simp only [LeaseBackend.start, LeaseBackend.horizon, LeaseBackend.reading,
      LeaseBackend.lifetime] at hrange hwithin
    rw [deadline, reckoning, hb, HasReached, Span.lt_def, Span.nanos_add]
    dsimp only
    omega
  | shared =>
    rw [hb] at hrange hwithin
    simp only [LeaseBackend.start, LeaseBackend.horizon, LeaseBackend.reading,
      LeaseBackend.lifetime] at hrange hwithin
    rw [deadline, hb, HasReached, now, Instant.millis, Instant.millis, Instant.nanos_add]
    change ¬¬_ < min (u.clock.now.nanos + _) _ / _
    omega

end World

namespace Lease

variable {guard : LeaseGuard} {ttl : Span} {u v w : World} {d : Deadline} {key : String}

/-! ### What gives a guard its lease -/

/-- **A call gives a guard its lease for some time**: an attempt that takes its key, or a renewal. -/
inductive Grants (guard : LeaseGuard) (ttl : Span) (u v : World) : Prop
  /-- An attempt takes the key. -/
  | taken (htake : tryObtain guard.key ttl u = (.ok (some guard), v))
  /-- The lease is renewed. -/
  | renewed (hrenew : renew guard ttl u = (.ok true, v))

/-- **A renewal that succeeds** writes the deadline that an attempt would write, and takes as long
as one. -/
theorem lease?_of_renew (h : renew guard ttl u = (.ok true, v)) :
    v.lease? guard.key = some ⟨guard.token, u.deadline ttl⟩ ∧ v.clock = u.clockAfter := by
  obtain ⟨faults, hmeet⟩ := meetFault_eq .renew u
  rw [renew] at h
  by_cases hfault : (u.leases.faults .renew).head? = some true
  · rw [if_pos hfault] at hmeet
    rw [Action.bind_of_error hmeet] at h
    cases h
  · rw [if_neg hfault] at hmeet
    let u₁ : World := { u with leases := { u.leases with faults } }
    rw [Action.bind_of_ok (show meetFault .renew u = (.ok (), u₁) from hmeet),
      Action.bind_of_ok (show backend u₁ = (.ok u.leases.backend, u₁) from rfl)] at h
    cases hb : u.leases.backend with
    | memory holds =>
      -- As in an attempt, the deadline is reckoned from the second reading.
      let u₂ : World := { u₁ with clock := u₁.clock.read.2 }
      let u₃ : World := { u₂ with clock := u₂.clock.read.2 }
      rw [hb] at h
      dsimp only at h
      rw [Action.bind_of_ok (show readElapsed u₁ = (.ok u.clock.elapsed, u₂) from rfl),
        Action.bind_of_ok (show readElapsed u₂ = (.ok u₂.clock.elapsed, u₃) from rfl)] at h
      rcases editMemory_cases holds
          (Ledger.renew? guard.key guard.token u.clock.elapsed (u₂.clock.elapsed + ttl)) u₃ with
        ⟨holds', hrenew, hedit⟩ | ⟨-, hedit⟩
      · rw [hedit] at h
        cases h
        refine ⟨?_, ?_⟩
        · rw [World.lease?_of_memory rfl, (Ledger.renew?_eq_some hrenew).2.1, World.deadline,
            World.reckoning, hb]
          rfl
        · rw [World.clockAfter, hb]
      · rw [hedit] at h
        cases h
    | shared =>
      rw [hb] at h
      dsimp only at h
      rw [Action.bind_of_ok (show wallTime u₁ = (.ok u.now, u₁) from rfl)] at h
      rcases editShared_cases
          (Ledger.renew? guard.key guard.token u.now.millis (u.now + ttl).millis) u₁ with
        ⟨leases, hrenew, hedit⟩ | ⟨answer, hanswer, hedit⟩
      · obtain rfl : u₁.withStore { u₁.store with leases } = v :=
          congrArg Prod.snd (hedit.symm.trans h)
        refine ⟨?_, ?_⟩
        · rw [World.lease?_of_shared (w := u₁.withStore { u₁.store with leases }) hb,
            World.store_withStore, (Ledger.renew?_eq_some hrenew).2.1, World.deadline, hb]
          rfl
        · rw [World.clockAfter, hb]
          rfl
      · exact absurd (congrArg Prod.fst (hedit.symm.trans h)) hanswer

/-- **The lease that a guard is given.** -/
theorem Grants.lease (h : Grants guard ttl u v) :
    v.lease? guard.key = some ⟨guard.token, u.deadline ttl⟩ := by
  obtain ⟨key, token, asked⟩ := guard
  cases h with
  | taken htake =>
    have hspec := tryObtain_spec key ttl u
    rw [htake] at hspec
    cases hspec with
    | takes hup hfree hlease hclock => exact hlease
  | renewed hrenew => exact (lease?_of_renew hrenew).1

/-! ### What a live lease answers -/

/-- **Asking for the holder** of a key whose lease is live, with a deadline that was once written. -/
theorem holder_of_live (hup : w.IsUpFor .holder)
    (hlease : w.lease? key = some ⟨guard.token, u.deadline ttl⟩)
    (hlive : ¬w.HasReached (u.deadline ttl)) : (holder key w).1 = .ok (some guard.token) := by
  obtain ⟨faults, hmeet⟩ := meetFault_eq .holder w
  rw [if_neg hup.1] at hmeet
  let w₁ : World := { w with leases := { w.leases with faults } }
  rw [holder, Action.bind_of_ok (show meetFault .holder w = (.ok (), w₁) from hmeet),
    Action.bind_of_ok (show backend w₁ = (.ok w.leases.backend, w₁) from rfl)]
  cases hb : w.leases.backend with
  | memory holds =>
    rw [World.lease?_of_memory hb, Option.map_eq_some_iff] at hlease
    obtain ⟨hold, hfind, hhold⟩ := hlease
    obtain ⟨htoken, hdeadline⟩ := Hold.mk.inj hhold
    rw [← hdeadline] at hlive
    have hlt : w.clock.elapsed < hold.expiry := Decidable.not_not.1 hlive
    dsimp only
    rw [Action.bind_of_ok (show readElapsed w₁ =
        (.ok w.clock.elapsed, { w₁ with clock := w.clock.read.2 }) from rfl),
      Ledger.live?_eq_some.2 ⟨hfind, hlt⟩, Option.map_some, htoken]
    rfl
  | shared =>
    rw [World.lease?_of_shared hb, Option.map_eq_some_iff] at hlease
    obtain ⟨hold, hfind, hhold⟩ := hlease
    obtain ⟨htoken, hdeadline⟩ := Hold.mk.inj hhold
    -- The answer tells the deadline, too, so the milliseconds of the row have to be on the line.
    have hread : ∃ t, Store.instant hold.expiry = .ok t := by
      rw [World.deadline] at hdeadline
      split at hdeadline
      · cases hdeadline
      · exact ⟨_, (congrArg Store.instant (Deadline.wall.inj hdeadline)).trans
          (Store.instant_millis _)⟩
    obtain ⟨t, ht⟩ := hread
    rw [← hdeadline] at hlive
    have hlt : w.now.millis < hold.expiry := Decidable.not_not.1 hlive
    have hlook : look (fun s => s.leaseHolder? key w.now) w₁ =
        (.ok (some (hold.token, t)), w₁) := by
      have hanswer : w.store.leaseHolder? key w.now = .ok (some (hold.token, t)) := by
        rw [Store.leaseHolder?, Ledger.live?_eq_some.2 ⟨hfind, hlt⟩]
        dsimp only
        rw [ht]
        rfl
      rw [look, show w₁.database.isPoisoned = false from hup.2 hb,
        show w₁.store.leaseHolder? key w.now = _ from hanswer]
      rfl
    dsimp only
    rw [sharedHolder, Action.bind_of_ok (show wallTime w₁ = (.ok w.now, w₁) from rfl),
      Action.bind_of_ok (Action.mapFault_of_ok hlook _), Option.map_some, htoken]
    rfl

/-- **A lease lives until its time has run out.** Let an attempt that took the key, or a renewal,
give a guard its lease, for a time that does not lead beyond the end of the clock; and let the guard
neither be given back nor renewed afterwards, by a clock that does not go back. As long as less has
passed than the lifetime of the lease, the key has the guard's token for whoever asks, and every
attempt to take it finds it taken. -/
theorem Grants.lives (hgrant : Grants guard ttl u v) (hafter : Afterwards guard v w)
    (hrange : u.leases.backend.start u.clock + ttl.nanos ≤ u.leases.backend.horizon)
    (hwithin : u.leases.backend.reading w.clock - u.leases.backend.start u.clock <
      u.leases.backend.lifetime (u.leases.backend.start u.clock) ttl) :
    (w.IsUpFor .holder → (holder guard.key w).1 = .ok (some guard.token)) ∧
      ∀ ttl', (w.IsUpFor .obtain → (tryObtain guard.key ttl' w).1 = .ok none) ∧
        ∀ other, (tryObtain guard.key ttl' w).1 ≠ .ok (some other) := by
  have hlive := World.not_hasReached_of_lt_lifetime hrange hwithin
  have hlease := hafter.lease hgrant.lease hlive
  refine ⟨fun hup => holder_of_live hup hlease hlive, fun ttl' => ?_⟩
  have htaken : w.IsTaken guard.key := ⟨_, hlease, hlive⟩
  have hspec := tryObtain_spec guard.key ttl' w
  generalize tryObtain guard.key ttl' w = outcome at hspec
  cases hspec with
  | fails hup => exact ⟨fun h => absurd h hup, nofun⟩
  | taken hup _ => exact ⟨fun _ => rfl, nofun⟩
  | takes hup hfree hlease' hclock => exact absurd htaken hfree

/-! A lease from the store is given between two milliseconds, and somebody else asks for the key just
before the millisecond in which its time runs out. -/

/-- A world whose clock shows two and a half milliseconds. -/
def betweenTicks : World := { clock := { wall := Instant.epoch + Span.ofNanos 2500000 } }

/-- The guard that takes its first lease. -/
def tickGuard : LeaseGuard := ⟨"a", .issued 0, .ofNanos 3200000⟩

/-- The world in which the lease was taken. -/
def tickTaken : World := (tryObtain "a" (.ofNanos 3200000) betweenTicks).2

/-- The world 2.4 milliseconds later. -/
def tickLater : World := { tickTaken with clock := tickTaken.clock.advance (.ofNanos 2400000) }

/-- The world after somebody else has asked for the key. -/
def tickAsked : World := (tryObtain "a" (.ofSeconds 1) tickLater).2

theorem lives_tickGuard :
    Grants tickGuard (.ofNanos 3200000) betweenTicks tickTaken ∧
      Afterwards tickGuard tickTaken tickAsked ∧
      (LeaseBackend.shared).lifetime 2500000 (.ofNanos 3200000) = 2500000 ∧
      (holder "a" tickAsked).1 = .ok (some (.issued 0)) ∧
      (tryObtain "a" (.ofSeconds 1) tickAsked).1 = .ok none := by
  have hgrant : Grants tickGuard (.ofNanos 3200000) betweenTicks tickTaken :=
    .taken rfl
  have hafter : Afterwards tickGuard tickTaken tickAsked := by
    refine (Relation.ReflTransGen.single (b := tickLater) ⟨.elsewhere _ _ rfl, ?_⟩).tail
      ⟨.attempt _ _ _, ?_⟩
    · exact ⟨by decide +kernel, by decide +kernel⟩
    · exact ⟨by decide +kernel, by decide +kernel⟩
  have hlives := hgrant.lives hafter (by decide +kernel) (by decide +kernel)
  exact ⟨hgrant, hafter, by decide +kernel, hlives.1 ⟨by decide, fun _ => rfl⟩,
    (hlives.2 _).1 ⟨by decide, fun _ => rfl⟩⟩

/-- **A lease from the store may be over at once**: one for half a millisecond, given at the start of
a millisecond, has no holder at the same reading of the clock, and somebody else takes the key. -/
theorem not_lives_halfMilli :
    let u : World := { clock := { wall := .epoch } }
    let halfMilli : Span := .ofNanos 500000
    let guard : LeaseGuard := ⟨"a", .issued 0, halfMilli⟩
    let v := (tryObtain "a" halfMilli u).2
    (tryObtain "a" halfMilli u).1 = .ok (some guard) ∧ v.now = u.now ∧
      (holder "a" v).1 = .ok none ∧
      (tryObtain "a" halfMilli v).1 = .ok (some ⟨"a", .issued 1, halfMilli⟩) :=
  ⟨rfl, rfl, rfl, rfl⟩

end Lease

end Leasehold
