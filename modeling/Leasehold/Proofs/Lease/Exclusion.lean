import Leasehold.Proofs.Lease.Lock
import Leasehold.Proofs.World.Parties
import Mathlib.Logic.Relation

/-!
# One client at a time

Any number of clients work under leases of any keys at once. Each makes its attempts to take the
lease of its key, is inside its work for a while, and gives its guard back; between any two of
these, other clients act and the clock moves in any direction. A client may also break off for
good, wherever it is.

As long as no client that is inside sees its deadline reached, each key has at most one client
inside. The invariant behind this has two halves:

* whatever the clock does, every guard in hand is for the key of its client, and has a token that
  no other guard has and that is not issued again (`Leasehold.Clients.Sound`);
* while the clients inside are in time, the lease of each is in the ledger, with its guard's token
  (`Leasehold.Clients.Held`). Then another attempt for its key finds the lease live.

When work outlives its lease the second half is lost, and the first one keeps: so a late release,
or a renewal, with a guard whose key somebody else has taken over finds a token there that is not
its own (`Leasehold.Clients.exclusive`).

Work under a lease that nobody disturbs is a run of one client (`Leasehold.Clients.run_inLock`).
-/

namespace Leasehold

/-- **Where a client is** in its work under a lease. -/
inductive Phase where
  /-- It has not begun. -/
  | waiting
  /-- It has some attempts left to take the lease. -/
  | trying (left : Nat)
  /-- It has the lease and is inside its work. -/
  | inside (guard : LeaseGuard)
  /-- Its work has ended, and the guard is still to be given back. -/
  | leaving (guard : LeaseGuard)
  /-- It is done, with or without success. -/
  | ended

namespace Phase

/-- The guard that a client has in hand. -/
def guard? : Phase → Option LeaseGuard
  | inside guard => some guard
  | leaving guard => some guard
  | _ => none

/-- Where an attempt leads. -/
def afterAttempt (left : Nat) : Except LeaseError (Option LeaseGuard) → Phase
  | .ok (some guard) => inside guard
  | .ok none => trying left
  | .error _ => ended

end Phase

/-- **Clients** with work under leases, in one world. -/
abbrev Clients (ι : Type) := Parties ι Phase

namespace Clients

open Parties (phase_put phase_put_self put_put put_self)

variable {ι : Type} [DecidableEq ι]

section Steps

variable (key : ι → String) (options : ι → LockOptions)

/-- **One step** of one client, or of the world around them. -/
inductive Step : Clients ι → Clients ι → Prop
  /-- A client begins. -/
  | begin (c : Clients ι) (i : ι) (hi : c.phase i = .waiting) :
      Step c (c.put i (.trying (options i).attempts) c.world)
  /-- A client makes an attempt to take the lease of its key. -/
  | attempt (c : Clients ι) (i : ι) (left : Nat) (hi : c.phase i = .trying (left + 1)) :
      Step c (c.put i (.afterAttempt left (Lease.tryObtain (key i) (options i).ttl c.world).1)
        (Lease.tryObtain (key i) (options i).ttl c.world).2)
  /-- A client has no attempts left. -/
  | giveUp (c : Clients ι) (i : ι) (hi : c.phase i = .trying 0) : Step c (c.put i .ended c.world)
  /-- The work of a client ends. -/
  | finish (c : Clients ι) (i : ι) (guard : LeaseGuard) (hi : c.phase i = .inside guard) :
      Step c (c.put i (.leaving guard) c.world)
  /-- A client gives its guard back. -/
  | release (c : Clients ι) (i : ι) (guard : LeaseGuard) (hi : c.phase i = .leaving guard) :
      Step c (c.put i .ended (Lease.release guard c.world))
  /-- Somebody renews a lease with the guard of a client. -/
  | renew (c : Clients ι) (i : ι) (guard : LeaseGuard) (ttl : Span)
      (hi : (c.phase i).guard? = some guard) :
      Step c { c with world := (Lease.renew guard ttl c.world).2 }
  /-- A client breaks off and never comes back. -/
  | vanish (c : Clients ι) (i : ι) : Step c (c.put i .ended c.world)
  /-- Anything else happens: the clock moves, or work does something that is not about leases. -/
  | elsewhere (c : Clients ι) (w : World) (hlease : ∀ key, w.lease? key = c.world.lease? key)
      (hissued : c.world.leases.issued ≤ w.leases.issued) : Step c { c with world := w }

/-- **Some steps**, one after another. -/
abbrev Run : Clients ι → Clients ι → Prop := Relation.ReflTransGen (Step key options)

omit [DecidableEq ι] in
/-- **The clients inside are in time**: none sees the deadline of its lease reached. -/
def InTime (c : Clients ι) : Prop :=
  ∀ i guard, c.phase i = .inside guard → ∀ h, c.world.lease? guard.key = some h →
    h.token = guard.token → ¬c.world.HasReached h.expiry

/-- **Some steps in time**, one after another. -/
abbrev RunInTime : Clients ι → Clients ι → Prop :=
  Relation.ReflTransGen fun c c' => c.InTime ∧ Step key options c c'

end Steps

/-! ### The invariant -/

/-- **Every guard in hand is one of a kind**, whatever the clock has done. -/
structure Sound (key : ι → String) (c : Clients ι) : Prop where
  /-- It is for the key of its client. -/
  key_eq : ∀ i guard, (c.phase i).guard? = some guard → guard.key = key i
  /-- Its token was issued before. -/
  token_lt : ∀ i guard, (c.phase i).guard? = some guard →
    ∃ n < c.world.leases.issued, guard.token = .issued n
  /-- No two guards have the same token. -/
  token_inj : ∀ i j guard guard', (c.phase i).guard? = some guard →
    (c.phase j).guard? = some guard' → guard.token = guard'.token → i = j

/-- **Every client inside holds the lease of its key.** -/
def Held (c : Clients ι) : Prop :=
  ∀ i guard, c.phase i = .inside guard →
    ∃ expiry, c.world.lease? guard.key = some ⟨guard.token, expiry⟩

variable {key : ι → String} {options : ι → LockOptions} {c c' : Clients ι} {i : ι} {p : Phase}
  {w : World}

theorem RunInTime.run (h : RunInTime key options c c') : Run key options c c' := by
  induction h with
  | refl => exact .refl
  | tail _ hstep ih => exact ih.tail hstep.2

/-- A client that is inside after some client went on was inside before, or is that client. -/
theorem inside_put {j : ι} {guard : LeaseGuard} (hj : (c.put i p w).phase j = .inside guard) :
    j = i ∧ p = .inside guard ∨ j ≠ i ∧ c.phase j = .inside guard := by
  rw [phase_put] at hj
  split at hj
  · rename_i h
    exact .inl ⟨h, hj⟩
  · rename_i h
    exact .inr ⟨h, hj⟩

omit [DecidableEq ι] in
/-- Clients with the same guards as before. -/
theorem Sound.mono (hs : c.Sound key)
    (hguard : ∀ i guard, (c'.phase i).guard? = some guard → (c.phase i).guard? = some guard)
    (hissued : c.world.leases.issued ≤ c'.world.leases.issued) : c'.Sound key := by
  refine ⟨fun i guard hi => hs.key_eq i guard (hguard i guard hi), fun i guard hi => ?_,
    fun i j guard guard' hi hj => hs.token_inj i j guard guard' (hguard i guard hi)
      (hguard j guard' hj)⟩
  obtain ⟨n, hn, htoken⟩ := hs.token_lt i guard (hguard i guard hi)
  exact ⟨n, Nat.lt_of_lt_of_le hn hissued, htoken⟩

/-- A client goes on with the guard it had, or without. -/
theorem Sound.put (hs : c.Sound key)
    (hp : ∀ guard, p.guard? = some guard → (c.phase i).guard? = some guard)
    (hissued : c.world.leases.issued ≤ w.leases.issued) : Sound key (c.put i p w) := by
  refine hs.mono (fun j guard hj => ?_) hissued
  rw [phase_put] at hj
  split at hj
  · rename_i h
    rw [h]
    exact hp guard hj
  · exact hj

/-- A client takes the lease of its key. -/
theorem Sound.taken (hs : c.Sound key) {guard : LeaseGuard}
    (ht : Lease.Taken (key i) c.world w guard) : Sound key (c.put i (.inside guard) w) := by
  have hcases : ∀ j guard', ((c.put i (.inside guard) w).phase j).guard? = some guard' →
      j = i ∧ guard' = guard ∨ j ≠ i ∧ (c.phase j).guard? = some guard' := by
    intro j guard' hj
    rw [phase_put] at hj
    split at hj
    · rename_i h
      exact .inl ⟨h, (Option.some.inj hj).symm⟩
    · rename_i h
      exact .inr ⟨h, hj⟩
  -- The token of the new guard was not issued before, so no guard in hand has it.
  have hfresh : ∀ j guard', (c.phase j).guard? = some guard' → guard'.token ≠ guard.token := by
    intro j guard' hj heq
    obtain ⟨n, hn, htoken⟩ := hs.token_lt j guard' hj
    rw [htoken, ht.token_eq, Token.issued.injEq] at heq
    exact Nat.ne_of_lt hn heq
  refine ⟨fun j guard' hj => ?_, fun j guard' hj => ?_, fun j k guard' guard'' hj hk heq => ?_⟩
  · rcases hcases j guard' hj with ⟨rfl, rfl⟩ | ⟨-, hj⟩
    · exact ht.key_eq
    · exact hs.key_eq j guard' hj
  · rcases hcases j guard' hj with ⟨-, rfl⟩ | ⟨-, hj⟩
    · exact ⟨_, ht.issued_lt, ht.token_eq⟩
    · obtain ⟨n, hn, htoken⟩ := hs.token_lt j guard' hj
      exact ⟨n, Nat.lt_trans hn ht.issued_lt, htoken⟩
  · rcases hcases j guard' hj with ⟨hji, rfl⟩ | ⟨-, hj'⟩
    · rcases hcases k guard'' hk with ⟨hki, -⟩ | ⟨-, hk'⟩
      · exact hji.trans hki.symm
      · exact absurd heq.symm (hfresh k guard'' hk')
    · rcases hcases k guard'' hk with ⟨-, rfl⟩ | ⟨-, hk'⟩
      · exact absurd heq (hfresh j guard' hj')
      · exact hs.token_inj j k guard' guard'' hj' hk' heq

/-- **Every step keeps the guards one of a kind.** -/
theorem Sound.step (hs : c.Sound key) (h : Step key options c c') : c'.Sound key := by
  cases h with
  | begin i hi => exact hs.put nofun (Nat.le_refl _)
  | attempt i left hi =>
    rcases Lease.tryObtain_cases (key i) (options i).ttl c.world with
      ⟨guard, hanswer, ht⟩ | ⟨hanswer, ht⟩
    · rw [hanswer]
      exact hs.taken ht
    · refine hs.put (fun guard hp => ?_) ht.issued
      generalize (Lease.tryObtain (key i) (options i).ttl c.world).1 = answer at hanswer hp
      match answer, hanswer, hp with
      | .ok (some guard'), hanswer, _ => exact absurd rfl (hanswer guard')
  | giveUp i hi => exact hs.put nofun (Nat.le_refl _)
  | finish i guard hi =>
    refine hs.put (fun guard' hp => ?_) (Nat.le_refl _)
    rw [hi]
    exact hp
  | release i guard hi =>
    exact hs.put nofun (Lease.onlyLeases_release guard c.world).issued
  | renew i guard ttl hi =>
    exact hs.mono (fun _ _ hj => hj) (Lease.ownLease_renew guard ttl c.world).onlyLeases.issued
  | vanish i => exact hs.put nofun (Nat.le_refl _)
  | elsewhere w hlease hissued => exact hs.mono (fun _ _ hj => hj) hissued

/-- **Every run keeps the guards one of a kind.** -/
theorem Sound.run (hs : c.Sound key) (h : Run key options c c') : c'.Sound key := by
  induction h with
  | refl => exact hs
  | tail _ hstep ih => exact ih.step hstep

omit [DecidableEq ι] in
/-- Clients are in time as long as all leases in memory are live. -/
theorem inTime_of_memory {holds : Ledger Span} (hb : c.world.leases.backend = .memory holds)
    (hlive : ∀ e ∈ holds, c.world.clock.elapsed < e.2.expiry) : c.InTime := by
  intro i guard _ h hh _ hreached
  rw [World.lease?_of_memory hb, Option.map_eq_some_iff] at hh
  obtain ⟨hold, hhold, rfl⟩ := hh
  obtain ⟨e, he, rfl⟩ := Option.map_eq_some_iff.1 hhold
  exact hreached (hlive e (List.mem_of_find?_eq_some he))

omit [DecidableEq ι] in
/-- Clients in time are so whatever else happens to the world, as long as the clock and the leases
stay. -/
theorem InTime.of_keepsLeases (htime : c.InTime) (hw : c.world.KeepsLeases w) :
    InTime { c with world := w } := by
  intro i guard hi h hh htoken hreached
  exact htime i guard hi h ((hw.lease _).symm.trans hh) htoken
    (hreached.of_clock_eq hw.clock.symm)

omit [DecidableEq ι] in
theorem sound_of_waiting (h : ∀ i, c.phase i = .waiting) : c.Sound key := by
  have hnone : ∀ i guard, (c.phase i).guard? ≠ some guard := by
    intro i guard hi
    rw [h i] at hi
    cases hi
  exact ⟨fun i guard hi => absurd hi (hnone i guard), fun i guard hi => absurd hi (hnone i guard),
    fun i _ guard _ hi _ => absurd hi (hnone i guard)⟩

/-! ### In time -/

/-- No client gets inside, and the leases of those inside stay. -/
theorem Held.put (hh : c.Held) (hp : ∀ guard, p ≠ .inside guard)
    (hlease : ∀ j guard, j ≠ i → c.phase j = .inside guard → ∀ h,
      c.world.lease? guard.key = some h → h.token = guard.token → w.lease? guard.key = some h) :
    Held (c.put i p w) := by
  intro j guard hj
  rcases inside_put hj with ⟨-, hp'⟩ | ⟨hne, hj⟩
  · exact absurd hp' (hp guard)
  · obtain ⟨expiry, he⟩ := hh j guard hj
    exact ⟨expiry, hlease j guard hne hj _ he rfl⟩

/-- A client takes the lease of its key, which no client inside can have held: it would have been
live. -/
theorem Held.taken (hh : c.Held) (htime : c.InTime) {guard : LeaseGuard}
    (ht : Lease.Taken (key i) c.world w guard) : Held (c.put i (.inside guard) w) := by
  intro j guard' hj
  rcases inside_put hj with ⟨-, hp⟩ | ⟨-, hj⟩
  · cases hp
    rw [ht.key_eq]
    exact ht.lease_self
  · obtain ⟨expiry, he⟩ := hh j guard' hj
    have hkey : guard'.key ≠ key i := by
      intro hkey
      refine htime j guard' hj _ he rfl (ht.free _ ?_)
      rw [← hkey]
      exact he
    exact ⟨expiry, (ht.lease_of_ne _ hkey).trans he⟩

/-- **Every step from a moment in time leaves the clients inside with their leases.** -/
theorem Held.step (hh : c.Held) (hs : c.Sound key) (htime : c.InTime)
    (h : Step key options c c') : c'.Held := by
  cases h with
  | begin i hi => exact hh.put nofun fun _ _ _ _ _ he _ => he
  | attempt i left hi =>
    rcases Lease.tryObtain_cases (key i) (options i).ttl c.world with
      ⟨guard, hanswer, ht⟩ | ⟨hanswer, ht⟩
    · rw [hanswer]
      exact hh.taken htime ht
    · refine hh.put (fun guard hp => ?_) fun j guard hj hinside h he htoken => ?_
      · generalize (Lease.tryObtain (key i) (options i).ttl c.world).1 = answer at hanswer hp
        match answer, hanswer, hp with
        | .ok (some guard'), hanswer, _ => exact absurd rfl (hanswer guard')
      · rw [ht.lease, he]
  | giveUp i hi => exact hh.put nofun fun _ _ _ _ _ he _ => he
  | finish i guard hi => exact hh.put nofun fun _ _ _ _ _ he _ => he
  | release i guard hi =>
    refine hh.put nofun fun j guard' hj hinside h he htoken => ?_
    refine (Lease.ownLease_cancel guard c.world).lease_eq he (.inr fun heq => hj ?_)
    refine hs.token_inj j i guard' guard ?_ ?_ (htoken.symm.trans heq)
    · rw [hinside]
      rfl
    · rw [hi]
      rfl
  | renew i guard ttl hi =>
    intro j guard' hj
    obtain ⟨expiry, he⟩ := hh j guard' hj
    have hj' : (c.phase j).guard? = some guard' := by
      rw [hj]
      rfl
    have ho := Lease.ownLease_renew guard ttl c.world
    by_cases heq : guard'.token = guard.token
    · obtain rfl := hs.token_inj j i guard' guard hj' hi heq
      obtain rfl : guard = guard' := Option.some.inj (hi.symm.trans hj')
      rcases ho with ho | ⟨-, -, hafter⟩
      · exact ⟨expiry, (ho.lease _).trans he⟩
      · exact hafter
    · exact ⟨expiry, ho.lease_eq he (.inr heq)⟩
  | vanish i => exact hh.put nofun fun _ _ _ _ _ he _ => he
  | elsewhere w hlease hissued =>
    intro j guard hj
    obtain ⟨expiry, he⟩ := hh j guard hj
    exact ⟨expiry, (hlease _).trans he⟩

/-- **Every run in time leaves the clients inside with their leases.** -/
theorem Held.run (hh : c.Held) (hs : c.Sound key) (h : RunInTime key options c c') :
    c'.Held ∧ c'.Sound key := by
  induction h with
  | refl => exact ⟨hh, hs⟩
  | tail _ hstep ih => exact ⟨ih.1.step ih.2 hstep.1 hstep.2, ih.2.step hstep.2⟩

omit [DecidableEq ι] in
/-- **Clients that are inside have different keys.** -/
theorem Held.eq_of_inside (hh : c.Held) (hs : c.Sound key) {j : ι} {guard guard' : LeaseGuard}
    (hi : c.phase i = .inside guard) (hj : c.phase j = .inside guard') (hkey : key i = key j) :
    i = j := by
  have hi' : (c.phase i).guard? = some guard := by rw [hi, Phase.guard?]
  have hj' : (c.phase j).guard? = some guard' := by rw [hj, Phase.guard?]
  obtain ⟨expiry, he⟩ := hh i guard hi
  obtain ⟨expiry', he'⟩ := hh j guard' hj
  have hsame : guard.key = guard'.key :=
    (hs.key_eq i guard hi').trans (hkey.trans (hs.key_eq j guard' hj').symm)
  rw [hsame, he'] at he
  exact hs.token_inj i j guard guard' hi' hj' (congrArg Hold.token (Option.some.inj he)).symm

omit [DecidableEq ι] in
theorem held_of_waiting (h : ∀ i, c.phase i = .waiting) : c.Held := by
  intro i guard hi
  rw [h i] at hi
  cases hi

/-! ### Work that nobody disturbs -/

section Undisturbed

/-- Where some attempts lead. -/
def afterAttempts : Except LeaseError (Option (LeaseGuard × Bool)) → Phase
  | .ok (some (guard, _)) => .inside guard
  | .ok none => .trying 0
  | .error _ => .ended

/-- **Some attempts** that nobody disturbs. -/
theorem run_obtainWithin (left : Nat) (isRetry : Bool) (hi : c.phase i = .trying left) :
    Run key options c (c.put i
      (afterAttempts (Lease.obtainWithin (key i) (options i) left isRetry c.world).1)
      (Lease.obtainWithin (key i) (options i) left isRetry c.world).2) := by
  have hattempt : ∀ left v answer w, Run key options c (c.put i (.trying (left + 1)) v) →
      Lease.tryObtain (key i) (options i).ttl v = (answer, w) →
      Run key options c (c.put i (.afterAttempt left answer) w) := by
    intro left v answer w hrun htry
    have hstep : Step key options (c.put i (.trying (left + 1)) v) _ :=
      .attempt _ i left (phase_put_self _ _ _ _)
    rw [put_put, show Lease.tryObtain (key i) (options i).ttl
      (c.put i (.trying (left + 1)) v).world = _ from htry] at hstep
    exact hrun.tail hstep
  have hstart : Run key options c (c.put i (.trying left) c.world) := by
    rw [put_self hi]
  have hends := Lease.obtainWithin_ends (P := fun left v => Run key options c
      (c.put i (.trying left) v))
    (fun _ _ _ hrun => hrun.tail (.elsewhere _ _ (fun _ => rfl) (Nat.le_refl _)))
    (fun left v v' hrun htry => hattempt left v _ v' hrun htry) left isRetry hstart
  generalize Lease.obtainWithin (key i) (options i) left isRetry c.world = outcome at hends
  cases hends with
  | takes hrun htry => exact hattempt _ _ _ _ hrun htry
  | fails hrun htry => exact hattempt _ _ _ _ hrun htry
  | misses hrun => exact hrun

/-- The work of a client that is inside, and its end. -/
theorem run_work {guard : LeaseGuard} (hi : c.phase i = .inside guard)
    (hlease : ∀ key, w.lease? key = c.world.lease? key)
    (hissued : c.world.leases.issued ≤ w.leases.issued) :
    Run key options c (c.put i .ended (Lease.release guard w)) := by
  have hwork : Step key options c { c with world := w } := .elsewhere c w hlease hissued
  have hfinish : Step key options { c with world := w } (c.put i (.leaving guard) w) :=
    .finish { c with world := w } i guard hi
  have hrelease : Step key options (c.put i (.leaving guard) w)
      ((c.put i (.leaving guard) w).put i .ended (Lease.release guard w)) :=
    .release _ i guard (phase_put_self _ _ _ _)
  rw [put_put] at hrelease
  exact ((Relation.ReflTransGen.single hwork).tail hfinish).tail hrelease

/-- **Work under a lease that nobody disturbs** is a run of one client, however it ends, as long
as the work itself leaves leases alone. -/
theorem run_inLock {ε α : Type} (work : Bool → Action ε α) (hi : c.phase i = .waiting)
    (hlease : ∀ isRetry w key, ((work isRetry w).2).lease? key = w.lease? key)
    (hissued : ∀ isRetry w, w.leases.issued ≤ (work isRetry w).2.leases.issued) :
    Run key options c (c.put i .ended (Lease.inLock (key i) (options i) work c.world).2) := by
  have hbegin : Run key options c (c.put i (.trying (options i).attempts) c.world) :=
    .single (.begin c i hi)
  have hobtain : Run key options (c.put i (.trying (options i).attempts) c.world) _ :=
    run_obtainWithin (options i).attempts false (phase_put_self _ _ _ _)
  rw [put_put] at hobtain
  have hrun : Run key options c _ := hbegin.trans hobtain
  change Run key options c (c.put i
    (afterAttempts (Lease.obtainWithin (key i) (options i) (options i).attempts false c.world).1)
    (Lease.obtainWithin (key i) (options i) (options i).attempts false c.world).2) at hrun
  have hinLock := Lease.inLock_cases (key i) (options i) work c.world
  have hobtain := Lease.obtain_cases (key i) (options i) c.world
  generalize Lease.obtainWithin (key i) (options i) (options i).attempts false c.world = r
    at hobtain hrun
  obtain ⟨answer, w⟩ := r
  rcases hobtain with ⟨⟨guard, isRetry⟩, rfl, hobtain⟩ | ⟨hanswer, e, hobtain⟩
  · rw [hobtain] at hinLock
    rcases hinLock with ⟨guard', isRetry', hsame, hinLock⟩ | ⟨⟨e, he⟩, -⟩
    · cases hsame
      rw [hinLock]
      have hwork : Run key options (c.put i (.inside guard) w) _ :=
        run_work (phase_put_self _ _ _ _) (hlease isRetry w) (hissued isRetry w)
      rw [put_put] at hwork
      exact hrun.trans hwork
    · cases he
  · rw [hobtain] at hinLock
    rcases hinLock with ⟨guard', isRetry', hsame, -⟩ | ⟨-, hinLock⟩
    · cases hsame
    · rw [hinLock]
      match answer with
      | .error e => exact hrun
      | .ok none =>
        have hgive : Step key options (c.put i (.trying 0) w)
            ((c.put i (.trying 0) w).put i .ended w) := .giveUp _ i (phase_put_self _ _ _ _)
        rw [put_put] at hgive
        exact hrun.tail hgive
      | .ok (some taken) => exact absurd rfl (hanswer taken)

end Undisturbed

/-! ### One client at a time -/

/-- **One client at a time.** Let any number of clients, none of which has begun, work under
leases of any keys. As long as the clients inside are in time, no two of them have the same key.
And whatever the clock does, guards of different clients have different tokens, and giving back or
renewing a guard, however late, leaves every lease as it is that is of another key or has another
token. -/
theorem exclusive (h : ∀ i, c.phase i = .waiting) :
    (RunInTime key options c c' → ∀ i j guard guard', c'.phase i = .inside guard →
      c'.phase j = .inside guard' → key i = key j → i = j) ∧
    (Run key options c c' →
      (∀ i j guard guard', (c'.phase i).guard? = some guard → (c'.phase j).guard? = some guard' →
        i ≠ j → guard.token ≠ guard'.token) ∧
      ∀ i guard, (c'.phase i).guard? = some guard → ∀ key' lease,
        c'.world.lease? key' = some lease → key' ≠ key i ∨ lease.token ≠ guard.token →
          (Lease.release guard c'.world).lease? key' = some lease ∧
          ∀ ttl, (Lease.renew guard ttl c'.world).2.lease? key' = some lease) := by
  have hs : c.Sound key := sound_of_waiting h
  refine ⟨fun hrun i j guard guard' hi hj hkey => ?_, fun hrun => ⟨?_, ?_⟩⟩
  · obtain ⟨hh', hs'⟩ := (held_of_waiting h).run hs hrun
    exact hh'.eq_of_inside hs' hi hj hkey
  · intro i j guard guard' hi hj hne heq
    exact hne ((hs.run hrun).token_inj i j guard guard' hi hj heq)
  · intro i guard hi key' lease hlease hne
    rw [← (hs.run hrun).key_eq i guard hi] at hne
    exact ⟨(Lease.ownLease_cancel guard c'.world).lease_eq hlease hne,
      fun ttl => (Lease.ownLease_renew guard ttl c'.world).lease_eq hlease hne⟩

/-! Two clients want one key. The first is inside when the second is refused; then time passes,
the second takes the key over, and only then does the work of the first end. -/

/-- Nobody has begun, and the ledger is in memory. -/
def twoClients : Clients Bool where
  world := { clock := { wall := .epoch }, leases := { backend := .memory [] } }
  phase := fun _ => .waiting

/-- The guard of the first client. -/
def firstGuard : LeaseGuard := ⟨"k", .issued 0, .ofSeconds 60⟩

/-- The world in which the first client has the lease. -/
def heldWorld : World := (Lease.tryObtain "k" (.ofSeconds 60) twoClients.world).2

/-- The first client is inside, and the second one is about to make an attempt. -/
def heldClients : Clients Bool where
  world := heldWorld
  phase := fun i => if i then .trying 11 else .inside firstGuard

/-- The keys and options of the two clients. -/
def keyOfAll : Bool → String := fun _ => "k"

/-- Both take the options as they are by default. -/
def optionsOfAll : Bool → LockOptions := fun _ => {}

theorem inTime_heldClients : heldClients.InTime := inTime_of_memory rfl (by decide +kernel)

theorem runInTime_heldClients : RunInTime keyOfAll optionsOfAll twoClients heldClients := by
  let c₁ : Clients Bool := twoClients.put false (.trying 11) twoClients.world
  let c₂ : Clients Bool := c₁.put true (.trying 11) twoClients.world
  have htime₀ : twoClients.InTime := fun _ _ hi => nomatch hi
  have htime₁ : c₁.InTime := by
    intro i guard hi
    cases i <;> cases hi
  have htime₂ : c₂.InTime := by
    intro i guard hi
    cases i <;> cases hi
  have h₁ : Step keyOfAll optionsOfAll twoClients c₁ := .begin _ false rfl
  have h₂ : Step keyOfAll optionsOfAll c₁ c₂ := .begin _ true rfl
  have h₃ : Step keyOfAll optionsOfAll c₂ (c₂.put false (.inside firstGuard) heldWorld) :=
    .attempt c₂ false 10 rfl
  have heq : c₂.put false (.inside firstGuard) heldWorld = heldClients := by
    refine congrArg (Parties.mk heldWorld) (funext fun i => ?_)
    cases i <;> rfl
  rw [heq] at h₃
  exact ((Relation.ReflTransGen.single ⟨htime₀, h₁⟩).tail ⟨htime₁, h₂⟩).tail ⟨htime₂, h₃⟩

theorem exclusive_takeover :
    (∃ c, RunInTime keyOfAll optionsOfAll twoClients c ∧
      c.phase false = .inside firstGuard ∧ c.phase true = .trying 10 ∧
      ∀ i j guard guard', c.phase i = .inside guard → c.phase j = .inside guard' →
        keyOfAll i = keyOfAll j → i = j) ∧
    ∃ c, Run keyOfAll optionsOfAll twoClients c ∧
      c.phase false = .leaving firstGuard ∧
      c.phase true = .inside ⟨"k", .issued 1, .ofSeconds 60⟩ ∧
      (Lease.release firstGuard c.world).lease? "k" =
        some ⟨.issued 1, .elapsed (.ofSeconds 180)⟩ := by
  have hwaiting : ∀ i, twoClients.phase i = .waiting := fun _ => rfl
  constructor
  · have hrun := runInTime_heldClients.tail ⟨inTime_heldClients, .attempt heldClients true 10 rfl⟩
    exact ⟨_, hrun, rfl, rfl, (exclusive hwaiting).1 hrun⟩
  · let later : World := { heldWorld with clock := heldWorld.clock.advance (.ofSeconds 120) }
    have hrun₁ := (RunInTime.run runInTime_heldClients).tail
      (.elsewhere heldClients later (fun _ => rfl) (Nat.le_refl _))
    have hrun₂ := hrun₁.tail (.attempt _ true 10 rfl)
    have hrun₃ := hrun₂.tail (.finish _ false firstGuard rfl)
    have hlease : (Lease.tryObtain "k" (.ofSeconds 60) later).2.lease? "k" =
        some ⟨.issued 1, .elapsed (.ofSeconds 180)⟩ := by
      decide +kernel
    exact ⟨_, hrun₃, rfl, rfl, (((exclusive hwaiting).2 hrun₃).2 false firstGuard rfl "k" _ hlease
      (.inr (by decide))).1⟩

end Clients

end Leasehold
