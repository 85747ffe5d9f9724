import Leasehold.Lease.Lock
import Leasehold.Proofs.Lease.Calls
import Leasehold.Proofs.World.Views

/-!
# Work under a lease, from the outside

What work under a lease does to the rest of the world is what the work does: taking the lease and
giving it back change only leases and times (`Leasehold.Lease.onlyLeases_obtain`,
`Leasehold.Lease.onlyLeases_release`), and the work is done once between the two, or not at all
when the lease could not be had (`Leasehold.Lease.inLock_cases`).
-/

namespace Leasehold.Lease

/-! ### Attempts -/

/-- The world in which an attempt is made, after the sleep before it. -/
def rested (o : LockOptions) (isRetry : Bool) (w : World) : World :=
  { w with slept := w.slept + if isRetry then o.sleep.nanos else 0 }

/-- What follows an attempt, for what it found. -/
def followUp (key : String) (o : LockOptions) (left : Nat) (isRetry : Bool) :
    Option LeaseGuard → Action LeaseError (Option (LeaseGuard × Bool))
  | some guard => pure (some (guard, isRetry))
  | none => obtainWithin key o left true

/-- The first of some attempts, and what follows it. -/
theorem obtainWithin_succ (key : String) (o : LockOptions) (left : Nat) (isRetry : Bool)
    (w : World) :
    obtainWithin key o (left + 1) isRetry w =
      (tryObtain key o.ttl >>= followUp key o left isRetry) (rested o isRetry w) := by
  cases isRetry <;> rfl

theorem onlyLeases_rested (o : LockOptions) (isRetry : Bool) (w : World) :
    w.OnlyLeases (rested o isRetry w) :=
  ⟨rfl, rfl, Nat.le_refl _⟩

theorem onlyLeases_tryObtain (key : String) (ttl : Span) (w : World) :
    w.OnlyLeases (tryObtain key ttl w).2 := by
  rcases tryObtain_cases key ttl w with ⟨guard, -, h⟩ | ⟨-, h⟩
  · exact h.toOnlyLeases
  · exact h.toOnlyLeases

theorem onlyTimes_rested (o : LockOptions) (isRetry : Bool) (w : World) :
    w.OnlyTimes (rested o isRetry w) :=
  ⟨onlyLeases_rested o isRetry w, fun _ => rfl⟩

/-- **How attempts end**, where something holds as long as some number of them is left: one of them
takes the lease or fails, or none is left. -/
inductive AttemptsEnd (key : String) (o : LockOptions) (P : Nat → World → Prop) :
    Except LeaseError (Option (LeaseGuard × Bool)) × World → Prop
  /-- One of them takes the lease. -/
  | takes {left : Nat} {guard : LeaseGuard} {isRetry : Bool} {v w : World} (h : P (left + 1) v)
      (htry : tryObtain key o.ttl v = (.ok (some guard), w)) :
      AttemptsEnd key o P (.ok (some (guard, isRetry)), w)
  /-- One of them fails. -/
  | fails {left : Nat} {e : LeaseError} {v w : World} (h : P (left + 1) v)
      (htry : tryObtain key o.ttl v = (.error e, w)) : AttemptsEnd key o P (.error e, w)
  /-- None is left. -/
  | misses {w : World} (h : P 0 w) : AttemptsEnd key o P (.ok none, w)

/-- **The attempts, one after another**: what the sleeps keep, and the attempts that find the key
taken, holds where they end. -/
theorem obtainWithin_ends {key : String} {o : LockOptions} {P : Nat → World → Prop}
    (hrest : ∀ left isRetry v, P left v → P left (rested o isRetry v))
    (hmiss : ∀ left v v', P (left + 1) v → tryObtain key o.ttl v = (.ok none, v') → P left v')
    (left : Nat) (isRetry : Bool) {w : World} (h : P left w) :
    AttemptsEnd key o P (obtainWithin key o left isRetry w) := by
  induction left generalizing w isRetry with
  | zero => exact .misses h
  | succ left ih =>
    rw [obtainWithin_succ]
    have hrested := hrest (left + 1) isRetry w h
    cases htry : tryObtain key o.ttl (rested o isRetry w) with
    | mk answer v =>
      match answer with
      | .error e =>
        rw [Action.bind_of_error htry]
        exact .fails hrested htry
      | .ok (some guard) =>
        rw [Action.bind_of_ok htry]
        exact .takes hrested htry
      | .ok none =>
        rw [Action.bind_of_ok htry]
        exact ih true (hmiss left _ v hrested htry)

theorem onlyLeases_obtainWithin (key : String) (o : LockOptions) (left : Nat) (isRetry : Bool)
    (w : World) :
    w.OnlyLeases (obtainWithin key o left isRetry w).2 := by
  have hattempt : ∀ v answer v', w.OnlyLeases v → tryObtain key o.ttl v = (answer, v') →
      w.OnlyLeases v' := by
    intro v answer v' hv htry
    have honly := onlyLeases_tryObtain key o.ttl v
    rw [htry] at honly
    exact hv.trans honly
  have hends := obtainWithin_ends (P := fun _ v => w.OnlyLeases v)
    (fun _ isRetry v hv => hv.trans (onlyLeases_rested o isRetry v))
    (fun _ v v' hv htry => hattempt v _ v' hv htry) left isRetry ⟨rfl, rfl, Nat.le_refl _⟩
  generalize obtainWithin key o left isRetry w = outcome at hends
  cases hends with
  | takes h htry => exact hattempt _ _ _ h htry
  | fails h htry => exact hattempt _ _ _ h htry
  | misses h => exact h

/-- **Attempts to take a key** change times only, until one of them takes it. -/
theorem obtainWithin_cases (key : String) (o : LockOptions) (left : Nat) (isRetry : Bool)
    (w : World) :
    (∃ guard isRetry' v,
        (obtainWithin key o left isRetry w).1 = .ok (some (guard, isRetry')) ∧ w.OnlyTimes v ∧
        Taken key v (obtainWithin key o left isRetry w).2 guard) ∨
      (∀ taken, (obtainWithin key o left isRetry w).1 ≠ .ok (some taken)) ∧
        w.OnlyTimes (obtainWithin key o left isRetry w).2 := by
  have hnot : ∀ v answer v', w.OnlyTimes v → tryObtain key o.ttl v = (answer, v') →
      (∀ guard, answer ≠ .ok (some guard)) → w.OnlyTimes v' := by
    intro v answer v' hv htry hanswer
    rcases tryObtain_cases key o.ttl v with ⟨guard, hsome, -⟩ | ⟨-, htimes⟩
    · rw [htry] at hsome
      exact absurd hsome (hanswer guard)
    · rw [htry] at htimes
      exact hv.trans htimes
  have hends := obtainWithin_ends (P := fun _ v => w.OnlyTimes v)
    (fun _ isRetry v hv => hv.trans (onlyTimes_rested o isRetry v))
    (fun _ v v' hv htry => hnot v _ v' hv htry nofun) left isRetry (.refl w)
  generalize obtainWithin key o left isRetry w = outcome at hends
  cases hends with
  | @takes _ guard isRetry' v v' h htry =>
    rcases tryObtain_cases key o.ttl v with ⟨guard', hsome, htaken⟩ | ⟨hnone, -⟩
    · rw [htry] at hsome htaken
      cases hsome
      exact .inl ⟨guard, isRetry', v, rfl, h, htaken⟩
    · rw [htry] at hnone
      exact absurd rfl (hnone guard)
  | fails h htry => exact .inr ⟨nofun, hnot _ _ _ h htry nofun⟩
  | misses h => exact .inr ⟨nofun, h⟩

/-- What all attempts came to. -/
theorem obtain_cases (key : String) (o : LockOptions) (w : World) :
    (∃ taken, (obtainWithin key o o.attempts false w).1 = .ok (some taken) ∧
        obtain key o w = (.ok taken, (obtainWithin key o o.attempts false w).2)) ∨
      (∀ taken, (obtainWithin key o o.attempts false w).1 ≠ .ok (some taken)) ∧
        ∃ e, obtain key o w = (.error e, (obtainWithin key o o.attempts false w).2) := by
  rw [obtain]
  cases hanswer : obtainWithin key o o.attempts false w with
  | mk answer w' =>
    match answer with
    | .error e =>
      rw [Action.bind_of_error hanswer]
      exact .inr ⟨nofun, e, rfl⟩
    | .ok none =>
      rw [Action.bind_of_ok hanswer]
      exact .inr ⟨nofun, _, rfl⟩
    | .ok (some taken) =>
      rw [Action.bind_of_ok hanswer]
      exact .inl ⟨taken, rfl, rfl⟩

/-- **Taking a lease keeps a view** of the world that neither an attempt shows in nor a sleep. -/
theorem keeps_obtain_of_tryObtain {σ : Type} {v : World → σ} {key : String} {o : LockOptions}
    (htry : Action.Keeps v (tryObtain key o.ttl))
    (hsleep : Action.Keeps v (sleep o.sleep : Action LeaseError Unit)) :
    Action.Keeps v (obtain key o) := by
  have hwithin : ∀ left isRetry, Action.Keeps v (obtainWithin key o left isRetry) := by
    intro left
    induction left with
    | zero => exact fun _ => Action.keeps_pure none
    | succ left ih =>
      have hrest : ∀ isRetry taken, Action.Keeps v (followUp key o left isRetry taken) := by
        rintro isRetry (_ | guard)
        · exact ih true
        · exact Action.keeps_pure (some (guard, isRetry))
      rintro (_ | _)
      · exact htry.bind (hrest false)
      · exact hsleep.bind fun _ => htry.bind (hrest true)
  refine (hwithin o.attempts false).bind ?_
  rintro (_ | taken)
  · exact Action.keeps_throw _
  · exact Action.keeps_pure taken

/-- **Taking a lease** changes only leases and times. -/
theorem onlyLeases_obtain (key : String) (o : LockOptions) (w : World) :
    w.OnlyLeases (obtain key o w).2 := by
  have h := onlyLeases_obtainWithin key o o.attempts false w
  rcases obtain_cases key o w with ⟨taken, -, hobtain⟩ | ⟨-, e, hobtain⟩
  · rw [hobtain]
    exact h
  · rw [hobtain]
    exact h

/-- **A key that is taken** after some time has passed, which changes no lease. -/
theorem exists_taken_of_obtain {key : String} {o : LockOptions} {w : World} {guard : LeaseGuard}
    {isRetry : Bool} (h : (obtain key o w).1 = .ok (guard, isRetry)) :
    ∃ v, w.OnlyTimes v ∧ Taken key v (obtain key o w).2 guard := by
  rcases obtain_cases key o w with ⟨taken, hwithin, hobtain⟩ | ⟨-, e, hobtain⟩
  · rw [hobtain] at h ⊢
    cases h
    rcases obtainWithin_cases key o o.attempts false w with
      ⟨guard', isRetry', v, hok, hv, htaken⟩ | ⟨hnot, -⟩
    · rw [hwithin] at hok
      cases hok
      exact ⟨v, hv, htaken⟩
    · exact absurd hwithin (hnot _)
  · rw [hobtain] at h
    cases h

/-! ### Work -/

/-- **Giving a guard back** changes only leases and times. -/
theorem onlyLeases_release (guard : LeaseGuard) (w : World) : w.OnlyLeases (release guard w) :=
  (ownLease_cancel guard w).onlyLeases

/-- **Work under a lease is done once**, after the lease was taken and before it is given back, or
not at all when it could not be had. -/
theorem inLock_cases {ε α : Type} (key : String) (o : LockOptions) (work : Bool → Action ε α)
    (w : World) :
    (∃ guard isRetry, (obtain key o w).1 = .ok (guard, isRetry) ∧
        (inLock key o work w).2 = release guard (work isRetry (obtain key o w).2).2) ∨
      (∃ e, (obtain key o w).1 = .error e) ∧ (inLock key o work w).2 = (obtain key o w).2 := by
  rw [inLock]
  cases hobtain : obtain key o w with
  | mk answer w' =>
    match answer with
    | .error e => exact .inr ⟨⟨e, rfl⟩, rfl⟩
    | .ok (guard, isRetry) =>
      refine .inl ⟨guard, isRetry, rfl, ?_⟩
      dsimp only
      cases work isRetry w' with
      | mk answer w'' =>
        cases answer with
        | error e => rfl
        | ok answer => rfl

end Leasehold.Lease
