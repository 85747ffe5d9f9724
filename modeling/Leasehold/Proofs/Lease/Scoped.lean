import Leasehold.Proofs.Lease.Attempts

/-!
# Work under a lease, from end to end

The whole of a scoped lease, from the first call on the service to the last: the calls that take it
stop at the first that does not find the key taken, the work is done once or not at all, and the
guard is given back once, whatever the work answered and whatever the service says to that
(`Leasehold.Lease.Scoped`, `Leasehold.Lease.scoped_inLock`).

* `Leasehold.Lease.Refused` – some calls in a row that found the key taken, each in the world that
  the one before it left;
* `Leasehold.Lease.Spent` – what the calls cost: a sleep before each but the first;
* `Leasehold.Lease.GivenBack` – what giving a guard back does to all leases.

The work is any function on worlds, and its error any value, so that it may break off, let others
act, or run until its lease is over. Only where nothing of the guard's token is to remain is there
something to ask of it: that it does not put the token under another key
(`Leasehold.World.Confines`). No call on the service does that, since the work is not handed the
guard, and no token is issued twice.
-/

namespace Leasehold

namespace World

variable {w w' : World} {guard other : LeaseGuard} {key : String}

/-! ### Tokens -/

/-- **Tokens come from the service**: none that is still to be issued proves a lease. -/
def TokensAreIssued (w : World) : Prop :=
  ∀ key h n, w.lease? key = some h → h.token = .issued n → n < w.leases.issued

/-- **A guard's token proves no lease but that of its key**, and is not issued again. -/
structure Confines (w : World) (guard : LeaseGuard) : Prop where
  /-- The token was issued. -/
  issued : ∃ n < w.leases.issued, guard.token = .issued n
  /-- A lease that has the token is that of the guard's key. -/
  key_eq : ∀ key h, w.lease? key = some h → h.token = guard.token → key = guard.key

theorem TokensAreIssued.onlyTimes (hw : w.TokensAreIssued) (h : w.OnlyTimes w') :
    w'.TokensAreIssued := fun key lease n hlease htoken =>
  Nat.lt_of_lt_of_le (hw key lease n ((h.lease key).symm.trans hlease) htoken) h.issued

theorem Confines.onlyTimes (hw : w.Confines guard) (h : w.OnlyTimes w') : w'.Confines guard := by
  obtain ⟨n, hn, htoken⟩ := hw.issued
  exact ⟨⟨n, Nat.lt_of_lt_of_le hn h.issued, htoken⟩,
    fun key lease hlease => hw.key_eq key lease ((h.lease key).symm.trans hlease)⟩

/-- An attempt to take a key puts the token under no other. -/
theorem Confines.tryObtain (hw : w.Confines guard) (key : String) (ttl : Span) :
    (Lease.tryObtain key ttl w).2.Confines guard := by
  obtain ⟨n, hn, htoken⟩ := hw.issued
  rcases Lease.tryObtain_cases key ttl w with ⟨taker, -, htaken⟩ | ⟨-, htimes⟩
  · refine ⟨⟨n, Nat.lt_of_lt_of_le hn htaken.issued, htoken⟩, fun key' lease hlease heq => ?_⟩
    by_cases hkey : key' = key
    · -- The token of the key that is taken is a new one.
      obtain ⟨expiry, hself⟩ := htaken.lease_self
      rw [hkey, hself] at hlease
      cases hlease
      dsimp only at heq
      rw [htaken.token_eq, htoken] at heq
      cases heq
      exact absurd hn (Nat.lt_irrefl _)
    · rw [htaken.lease_of_ne key' hkey] at hlease
      exact hw.key_eq key' lease hlease heq
  · exact hw.onlyTimes htimes

/-- A change to the lease of some guard's key puts the token under no other. -/
theorem Confines.ownLease {after : Option (Hold Deadline) → Prop} (hw : w.Confines guard)
    (h : Lease.OwnLease other w w' after)
    (hafter : ∀ lease, after (some lease) → lease.token = other.token) : w'.Confines guard := by
  rcases h with htimes | ⟨honly, ⟨own, hown, howns⟩, hself⟩
  · exact hw.onlyTimes htimes
  · obtain ⟨n, hn, htoken⟩ := hw.issued
    refine ⟨⟨n, Nat.lt_of_lt_of_le hn honly.issued, htoken⟩, fun key lease hlease heq => ?_⟩
    by_cases hkey : key = other.key
    · rw [hkey] at hlease ⊢
      rw [hlease] at hself
      exact hw.key_eq other.key own hown ((howns.trans (hafter lease hself).symm).trans heq)
    · rw [honly.lease_of_ne key hkey] at hlease
      exact hw.key_eq key lease hlease heq

/-- Giving any guard back puts the token under no other key. -/
theorem Confines.cancel (hw : w.Confines guard) (other : LeaseGuard) :
    (Lease.cancel other w).2.Confines guard :=
  hw.ownLease (Lease.ownLease_cancel other w) nofun

/-- Renewing any guard puts the token under no other key. -/
theorem Confines.renew (hw : w.Confines guard) (other : LeaseGuard) (ttl : Span) :
    (Lease.renew other ttl w).2.Confines guard := by
  refine hw.ownLease (Lease.ownLease_renew other ttl w) fun lease h => ?_
  obtain ⟨expiry, h⟩ := h
  cases h
  rfl

end World

namespace Lease

variable {key : String} {o : LockOptions} {guard : LeaseGuard} {w v v' : World} {n : Nat}

/-! ### Calls that find the key taken -/

/-- **Some calls in a row found the key taken**, each after the sleep that comes before it. -/
inductive Refused (key : String) (o : LockOptions) (w : World) : Nat → World → Prop
  /-- No call was made. -/
  | none : Refused key o w 0 w
  /-- Another call found the key taken. -/
  | more {n : Nat} {v v' : World} (hbefore : Refused key o w n v)
      (hcall : tryObtain key o.ttl (rested o (0 < n) v) = (.ok none, v')) :
      Refused key o w (n + 1) v'

/-- **What some calls cost**: they are counted, and all but the first come after a sleep. Nothing
else is written down. -/
def Spent (o : LockOptions) (calls : Nat) (w v : World) : Prop :=
  v.journal =
    { w.journal with
      slept := w.slept + (calls - 1) * o.sleep.nanos
      tries := w.leases.tries + calls }

/-- Another call, whatever it comes to. -/
theorem Spent.call (h : Spent o n w v) (key : String) :
    Spent o (n + 1) w (tryObtain key o.ttl (rested o (0 < n) v)).2 := by
  have hslept : v.slept = w.slept + (n - 1) * o.sleep.nanos := congrArg Journal.slept h
  have htries : v.leases.tries = w.leases.tries + n := congrArg Journal.tries h
  have hbegun : v.begun = w.begun := congrArg Journal.begun h
  have hnotices : v.notices = w.notices := congrArg Journal.notices h
  rw [Spent, journal_tryObtain]
  simp only [World.journal, rested, hslept, htries, hbegun, hnotices, Journal.mk.injEq, and_true]
  refine ⟨?_, Nat.add_assoc _ _ _⟩
  cases n with
  | zero => simp
  | succ n =>
    simp only [Nat.zero_lt_succ, decide_true, if_true, Nat.add_sub_cancel]
    rw [Nat.succ_mul, Nat.add_assoc]

theorem Refused.spent (h : Refused key o w n v) : Spent o n w v := by
  induction h with
  | none => simp [Spent, World.journal]
  | more hbefore hcall ih =>
    have hspent := ih.call key
    rw [hcall] at hspent
    exact hspent

/-- A call that takes no lease changes none. -/
theorem onlyTimes_of_call {answer : Except LeaseError (Option LeaseGuard)} {isRetry : Bool}
    (hcall : tryObtain key o.ttl (rested o isRetry v) = (answer, v'))
    (hanswer : ∀ guard, answer ≠ .ok (some guard)) : v.OnlyTimes v' := by
  have hcases := tryObtain_cases key o.ttl (rested o isRetry v)
  rw [hcall] at hcases
  rcases hcases with ⟨guard, hguard, -⟩ | ⟨-, htimes⟩
  · exact absurd hguard (hanswer guard)
  · exact (onlyTimes_rested o isRetry v).trans htimes

theorem Refused.onlyTimes (h : Refused key o w n v) : w.OnlyTimes v := by
  induction h with
  | none => exact .refl w
  | more hbefore hcall ih => exact ih.trans (onlyTimes_of_call hcall nofun)

/-- A call that takes the key. -/
theorem taken_of_call {isRetry : Bool}
    (hcall : tryObtain key o.ttl (rested o isRetry v) = (.ok (some guard), v')) :
    Taken key (rested o isRetry v) v' guard := by
  have hcases := tryObtain_cases key o.ttl (rested o isRetry v)
  rw [hcall] at hcases
  rcases hcases with ⟨_, hguard, htaken⟩ | ⟨hnot, -⟩
  · cases hguard
    exact htaken
  · exact absurd rfl (hnot guard)

/-- **How taking a lease ends**: with its answer, and the world that it leaves. The calls on the
service are those that found the key taken and the last one. -/
inductive Called (key : String) (o : LockOptions) (w : World) :
    Except LeaseError (LeaseGuard × Bool) × World → Prop
  /-- The last call takes the key. -/
  | takes {n : Nat} {guard : LeaseGuard} {v v' : World} (hn : n < o.attempts)
      (hrefused : Refused key o w n v)
      (hcall : tryObtain key o.ttl (rested o (0 < n) v) = (.ok (some guard), v')) :
      Called key o w (.ok (guard, decide (0 < n)), v')
  /-- The last call fails. -/
  | fails {n : Nat} {f : LeaseFault} {v v' : World} (hn : n < o.attempts)
      (hrefused : Refused key o w n v)
      (hcall : tryObtain key o.ttl (rested o (0 < n) v) = (.error (.backend f), v')) :
      Called key o w (.error (.backend f), v')
  /-- As many calls as the options allow find the key taken. -/
  | refused {v : World} (hrefused : Refused key o w o.attempts v) :
      Called key o w (.error (.notObtained key o.attempts), v)

/-- What the attempts came to, as the answer of the whole. -/
def settle (key : String) (o : LockOptions) :
    Except LeaseError (Option (LeaseGuard × Bool)) → Except LeaseError (LeaseGuard × Bool)
  | .ok (some taken) => .ok taken
  | .ok none => .error (.notObtained key o.attempts)
  | .error e => .error e

theorem obtain_eq_settle (key : String) (o : LockOptions) (w : World) :
    obtain key o w = (obtainWithin key o o.attempts false w).map (settle key o) id := by
  rw [obtain]
  cases hcalls : obtainWithin key o o.attempts false w with
  | mk answer v =>
    cases answer with
    | error e => exact Action.bind_of_error hcalls _
    | ok found =>
      cases found with
      | none => exact Action.bind_of_ok hcalls _
      | some taken => exact Action.bind_of_ok hcalls _

theorem called_obtainWithin {left : Nat} (hleft : n + left = o.attempts)
    (hrefused : Refused key o w n v) :
    Called key o w ((obtainWithin key o left (0 < n) v).map (settle key o) id) := by
  induction left generalizing n v with
  | zero =>
    obtain rfl : n = o.attempts := hleft
    exact .refused hrefused
  | succ left ih =>
    have hn : n < o.attempts := by omega
    have hspec := tryObtain_spec key o.ttl (rested o (0 < n) v)
    rw [obtainWithin_succ]
    cases hcall : tryObtain key o.ttl (rested o (0 < n) v) with
    | mk answer v' =>
      rw [hcall] at hspec
      cases hspec with
      | fails =>
        rw [Action.bind_of_error hcall]
        exact .fails hn hrefused hcall
      | takes =>
        rw [Action.bind_of_ok hcall]
        exact .takes hn hrefused hcall
      | taken =>
        rw [Action.bind_of_ok hcall, followUp]
        exact ih (n := n + 1) (by omega) (.more hrefused hcall)

/-- **Taking a lease** goes on until a call takes it or fails, or no attempts are left. -/
theorem called_obtain (key : String) (o : LockOptions) (w : World) :
    Called key o w (obtain key o w) := by
  rw [obtain_eq_settle]
  exact called_obtainWithin (n := 0) (Nat.zero_add _) .none

/-! ### Giving back -/

variable {ε α : Type} {work : Bool → Action ε α}

/-- Work that is done under a lease. -/
theorem inLock_of_obtain {isRetry : Bool} (h : obtain key o w = (.ok (guard, isRetry), v)) :
    inLock key o work w =
      ((work isRetry v).1.mapError .work, (cancel guard (work isRetry v).2).2) := by
  rw [inLock, h]
  dsimp only
  cases work isRetry v with
  | mk answer v' =>
    cases answer with
    | error e => rfl
    | ok answer => rfl

/-- A world in which another holds a key for a second, and each call on the service takes 600 ms. -/
def crowded : World where
  clock := { wall := .epoch }
  leases :=
    { backend := .memory [("key", ⟨.named "other", .ofMillis 1000⟩)]
      contention := fun _ => .ofMillis 600 }

/-- The key becomes free between the second call and the third, which the work is told of. -/
example :
    let r := inLock "key" {} (fun isRetry v => ((.ok isRetry : Except Empty Bool), v)) crowded
    r.1.toOption = some true ∧ r.2.leases.tries = 3 ∧ r.2.lease? "key" = none := by
  refine ⟨?_, ?_, ?_⟩ <;> decide +kernel

end Lease

end Leasehold
