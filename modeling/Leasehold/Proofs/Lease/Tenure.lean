import Leasehold.Proofs.Lease.Attempts
import Leasehold.Proofs.Time.Readings
import Mathlib.Logic.Relation

/-!
# For how long a lease keeps others out

Once a key is taken, nobody else takes it for as long as it was asked for, whatever happens
meanwhile (`Leasehold.Lease.not_taken_meanwhile`): attempts of anybody on any key, guards given back
and renewed late, leases swept out of the store, and anything at all that happens to the rest of the
world. All that is asked of the others is that they do not have the token of the lease, which cannot
be guessed and is issued once (`Leasehold.Clients.Sound.token_inj`).

How long that is depends on the ledger (`Leasehold.LeaseBackend.coverage`). In memory it is to the
nanosecond the time asked for. The store keeps whole milliseconds, and a part of a millisecond in
the time asked for is lost. And it takes a clock that can be trusted: both times move on together,
by whole milliseconds (`Leasehold.Clock.InStep`), and the one that deadlines are on has not come to
its end (`Leasehold.LeaseBackend.IsBeforeEnd`).
-/

namespace Leasehold

/-! ### A clock that can be trusted -/

/-- **Both times of a clock have moved on together**, by some whole milliseconds. So nobody has set
the wall time, and neither time has stopped at its end. -/
def Clock.InStep (c c' : Clock) : Prop :=
  ∃ ms : Nat, c'.elapsed.nanos = c.elapsed.nanos + ms * 1000000 ∧
    c'.now.nanos = c.now.nanos + ms * 1000000

/-- **Neither time of a clock has gone back.** -/
def Clock.Onward (c c' : Clock) : Prop := c.elapsed ≤ c'.elapsed ∧ c.now ≤ c'.now

namespace Clock

theorem InStep.refl (c : Clock) : c.InStep c := ⟨0, by omega, by omega⟩

theorem InStep.trans {c c' c'' : Clock} (h : c.InStep c') (h' : c'.InStep c'') : c.InStep c'' := by
  obtain ⟨ms, helapsed, hnow⟩ := h
  obtain ⟨ms', helapsed', hnow'⟩ := h'
  exact ⟨ms + ms', by omega, by omega⟩

theorem InStep.onward {c c' : Clock} (h : c.InStep c') : c.Onward c' := by
  obtain ⟨ms, helapsed, hnow⟩ := h
  rw [Onward, Span.le_def, Instant.le_def]
  omega

end Clock

namespace World

variable {w w' : World} {d : Deadline}

/-- **What is reached stays so** by a clock that does not go back. -/
theorem HasReached.of_onward (h : w.HasReached d) (honward : w.clock.Onward w'.clock) :
    w'.HasReached d := by
  obtain ⟨helapsed, hnow⟩ := honward
  cases d with
  | elapsed d =>
    rw [HasReached, Span.lt_def] at *
    rw [Span.le_def] at helapsed
    omega
  | wall d =>
    have hmillis : w.now.millis ≤ w'.now.millis := Instant.millis_le_millis hnow
    rw [HasReached] at *
    omega

end World

/-- **For how long a lease is certain to last**, in nanoseconds, if it was taken for some time: in
the store only the whole milliseconds count. -/
def LeaseBackend.coverage : LeaseBackend → Span → Nat
  | .memory _, ttl => ttl.nanos
  | .shared, ttl => ttl.nanos / 1000000 * 1000000

/-- **The time that deadlines are on has not come to its end**, which for the wall time is its last
millisecond. -/
def LeaseBackend.IsBeforeEnd : LeaseBackend → Clock → Prop
  | .memory _, c => c.elapsed < Span.longest
  | .shared, c => c.now.millis < Instant.last.millis

namespace World

variable {u w : World} {ttl : Span}

/-- **A deadline is not reached** while less than that has passed. -/
theorem not_hasReached_deadline (hstep : u.clockAfter.InStep w.clock)
    (hend : u.leases.backend.IsBeforeEnd w.clock)
    (hwithin : w.clock.elapsed.nanos - u.reckoning.nanos < u.leases.backend.coverage ttl) :
    ¬w.HasReached (u.deadline ttl) := by
  obtain ⟨ms, helapsed, hnow⟩ := hstep
  cases hb : u.leases.backend with
  | memory holds =>
    -- The deadline is the exact sum or the longest span, and the clock has come to neither.
    rw [hb, LeaseBackend.IsBeforeEnd, Span.lt_def] at hend
    rw [hb, LeaseBackend.coverage] at hwithin
    rw [deadline, hb, HasReached, Span.lt_def, Span.nanos_add]
    omega
  | shared =>
    -- Whole milliseconds have passed, so only a part of one is lost when the deadline is rounded.
    rw [hb, LeaseBackend.IsBeforeEnd, Instant.millis, Instant.millis] at hend
    rw [hb, LeaseBackend.coverage, reckoning, hb] at hwithin
    rw [clockAfter, hb] at helapsed hnow
    rw [deadline, hb, HasReached, now, Instant.millis, Instant.millis, Instant.nanos_add]
    change _ = u.now.nanos + _ at hnow
    dsimp only at *
    omega

end World

/-! ### What happens meanwhile -/

/-- Sweeping out what is over leaves a live lease. -/
theorem Ledger.find?_purge {D : Type} [LT D] [DecidableLT D] {l : Ledger D} {key : String} {now : D}
    {h : Hold D} (hlive : l.live? key now = some h) : (l.purge now).2.find? key = some h := by
  obtain ⟨hfind, hlt⟩ := Ledger.live?_eq_some.1 hlive
  obtain ⟨e, he, rfl⟩ := Option.map_eq_some_iff.1 hfind
  obtain ⟨hkey, before, after, hl, hbefore⟩ := List.find?_eq_some_iff_append.1 he
  -- The entries before the one that is found are of other keys, whether they stay or not.
  rw [Ledger.purge, Ledger.find?, List.find?_filter]
  refine congrArg (Option.map _) (List.find?_eq_some_iff_append.2 ⟨?_, before, after, hl, ?_⟩)
  · simpa using ⟨hlt, of_decide_eq_true hkey⟩
  · intro a ha
    have hne := hbefore a ha
    simp_all

namespace Lease

/-- **Something happens while the holder of a guard is at work.** -/
inductive Event (guard : LeaseGuard) : World → World → Prop
  /-- Somebody makes an attempt to take a key, the guard's or another one. -/
  | attempt (w : World) (key : String) (ttl : Span) : Event guard w (tryObtain key ttl w).2
  /-- Somebody gives another guard back. -/
  | cancel (w : World) (other : LeaseGuard) (hne : other.token ≠ guard.token) :
      Event guard w (cancel other w).2
  /-- Somebody renews another guard. -/
  | renew (w : World) (other : LeaseGuard) (ttl : Span) (hne : other.token ≠ guard.token) :
      Event guard w (renew other ttl w).2
  /-- Somebody sweeps out the leases in the store that are over. -/
  | purge (w : World) : Event guard w (w.withStore (w.store.purgeLeases w.now).2)
  /-- Anything else happens that leaves the lease of the key alone: time passes, somebody works on
  the tables, or the holder does. -/
  | elsewhere (w w' : World) (hlease : w'.lease? guard.key = w.lease? guard.key) : Event guard w w'

/-- **What may happen after the holder of a guard got it**, by a clock that does not go back. -/
abbrev Afterwards (guard : LeaseGuard) : World → World → Prop :=
  Relation.ReflTransGen fun w w' => Event guard w w' ∧ w.clock.Onward w'.clock

/-- **What may happen while the holder of a guard is at work**, by a clock that can be trusted. -/
abbrev Meanwhile (guard : LeaseGuard) : World → World → Prop :=
  Relation.ReflTransGen fun w w' => Event guard w w' ∧ w.clock.InStep w'.clock

variable {guard : LeaseGuard} {u v w w' : World} {d : Deadline} {key : String} {ttl : Span}

/-- **A live lease is left alone** by all that happens. -/
theorem Event.lease (h : Event guard w w') (hlease : w.lease? guard.key = some ⟨guard.token, d⟩)
    (hlive : ¬w.HasReached d) : w'.lease? guard.key = some ⟨guard.token, d⟩ := by
  cases h with
  | attempt key ttl =>
    rcases tryObtain_cases key ttl w with ⟨other, -, htaken⟩ | ⟨-, htimes⟩
    · -- A key is taken only where no lease is live, so it was another one.
      have hne : guard.key ≠ key := by
        rintro rfl
        exact hlive (htaken.free _ hlease)
      rw [htaken.lease_of_ne _ hne, hlease]
    · rw [htimes.lease, hlease]
  | cancel other hne => exact (ownLease_cancel other w).lease_eq hlease (.inr hne.symm)
  | renew other ttl hne => exact (ownLease_renew other ttl w).lease_eq hlease (.inr hne.symm)
  | purge =>
    let s := (w.store.purgeLeases w.now).2
    cases hb : w.leases.backend with
    | memory holds =>
      rw [World.lease?_of_memory hb] at hlease
      exact (World.lease?_of_memory (w := w.withStore s) hb _).trans hlease
    | shared =>
      rw [World.lease?_of_shared hb, Option.map_eq_some_iff] at hlease
      obtain ⟨hold, hfind, hhold⟩ := hlease
      obtain ⟨token, expiry⟩ := hold
      obtain ⟨rfl, rfl⟩ := Hold.mk.inj hhold
      have hlt := Decidable.not_not.1 hlive
      refine (World.lease?_of_shared (w := w.withStore s) hb _).trans ?_
      exact congrArg (Option.map _) (Ledger.find?_purge (Ledger.live?_eq_some.2 ⟨hfind, hlt⟩))
  | elsewhere _ hsame => rw [hsame, hlease]

/-- **The lease of a key is left alone afterwards**, as long as its deadline is not reached. -/
theorem Afterwards.lease (h : Afterwards guard w w')
    (hlease : w.lease? guard.key = some ⟨guard.token, d⟩) (hlive : ¬w'.HasReached d) :
    w'.lease? guard.key = some ⟨guard.token, d⟩ := by
  induction h with
  | refl => exact hlease
  | tail _ hlast ih =>
    -- What is not reached in the end was not reached before.
    have hbefore := fun hreached => hlive (World.HasReached.of_onward hreached hlast.2)
    exact hlast.1.lease (ih hbefore) hbefore

theorem Meanwhile.afterwards (h : Meanwhile guard w w') : Afterwards guard w w' :=
  Relation.ReflTransGen.mono (fun _ _ hstep => ⟨hstep.1, hstep.2.onward⟩) _ _ h

theorem Meanwhile.inStep (h : Meanwhile guard w w') : w.clock.InStep w'.clock := by
  induction h with
  | refl => exact .refl _
  | tail _ hlast ih => exact ih.trans hlast.2

/-- **Nobody else takes a key meanwhile**, whatever the time asked for, as long as less has passed
than a lease is certain to last. -/
theorem not_taken_meanwhile (htake : tryObtain key ttl u = (.ok (some guard), v))
    (hmeanwhile : Meanwhile guard v w) (hend : u.leases.backend.IsBeforeEnd w.clock)
    (hwithin : w.clock.elapsed.nanos - u.reckoning.nanos < u.leases.backend.coverage ttl)
    (ttl' : Span) (other : LeaseGuard) : (tryObtain key ttl' w).1 ≠ .ok (some other) := by
  have hfirst := tryObtain_spec key ttl u
  rw [htake] at hfirst
  cases hfirst with
  | takes hup hfree hlease hclock =>
    have hinStep := hmeanwhile.inStep
    rw [hclock] at hinStep
    have hlive := World.not_hasReached_deadline hinStep hend hwithin
    have htaken : w.IsTaken key := ⟨_, hmeanwhile.afterwards.lease hlease hlive, hlive⟩
    -- An attempt that succeeds finds no live lease.
    have hsecond := tryObtain_spec key ttl' w
    cases hanswer : tryObtain key ttl' w with
    | mk answer w' =>
      rw [hanswer] at hsecond
      rintro rfl
      cases hsecond with
      | takes hup' hfree' hlease' hclock' => exact hfree' htaken

end Lease

end Leasehold
