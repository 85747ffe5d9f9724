import Leasehold.Proofs.Lease.Lock
import Leasehold.Proofs.World.Views

/-!
# What an attempt finds

An attempt to take a key ends in one of three ways, and what the world is like when it is made says
which (`Leasehold.Lease.tryObtain_spec`): the service fails, or the key is taken, or the key becomes
the caller's, until a deadline that depends on nothing but the clock and the time asked for. So
taking a lease ends for want of it when every attempt finds the key taken, and otherwise as the
first attempt does that fails or takes it (`Leasehold.Lease.obtain_spec`).

A guard is given back if the lease is still its own and the service does not fail
(`Leasehold.Lease.release_cases`).
-/

namespace Leasehold

namespace World

variable {w : World} {key : String}

/-! ### What there is to find -/

/-- **The service is up** for an attempt: no fault waits for it, and if leases are kept in the
store, the database is not poisoned. -/
def IsUp (w : World) : Prop :=
  (w.leases.faults .obtain).head? ≠ some true ∧
    (w.leases.backend = .shared → w.database.isPoisoned = false)

/-- **A key is taken now**: it has a lease that is live. -/
def IsTaken (w : World) (key : String) : Prop :=
  ∃ h, w.lease? key = some h ∧ ¬w.HasReached h.expiry

/-- **The moment from which an attempt reckons**, on the elapsed time. In memory that is the second
of its two readings; in the store it reckons from the wall time, and no reading comes before. -/
def reckoning (w : World) : Span :=
  match w.leases.backend with
  | .memory _ => w.clock.read.2.elapsed
  | .shared => w.clock.elapsed

/-- **The deadline that an attempt writes**, for some time. -/
def deadline (w : World) (ttl : Span) : Deadline :=
  match w.leases.backend with
  | .memory _ => .elapsed (w.reckoning + ttl)
  | .shared => .wall (w.now + ttl).millis

/-- **Every deadline in the store can be read back**, whatever time was asked for. -/
theorem exists_instant_deadline {ttl : Span} {ms : Int} (h : w.deadline ttl = .wall ms) :
    ∃ t, Store.instant ms = .ok t := by
  rw [deadline] at h
  split at h
  · cases h
  · rw [← Deadline.wall.inj h]
    exact ⟨_, Store.instant_millis _⟩

/-- **The clock when an attempt has taken its key.** -/
def clockAfter (w : World) : Clock :=
  match w.leases.backend with
  | .memory _ => w.clock.read.2.read.2
  | .shared => w.clock

theorem isTaken_iff_of_memory {holds : Ledger Span} (hw : w.leases.backend = .memory holds) :
    w.IsTaken key ↔ (holds.live? key w.clock.elapsed).isSome = true := by
  rw [Option.isSome_iff_exists]
  constructor
  · rintro ⟨h, hh, hlive⟩
    rw [lease?_of_memory hw, Option.map_eq_some_iff] at hh
    obtain ⟨h, hfind, rfl⟩ := hh
    exact ⟨h, Ledger.live?_eq_some.2 ⟨hfind, Decidable.not_not.1 hlive⟩⟩
  · rintro ⟨h, hh⟩
    obtain ⟨hfind, hlt⟩ := Ledger.live?_eq_some.1 hh
    refine ⟨⟨h.token, .elapsed h.expiry⟩, ?_, fun hreached => hreached hlt⟩
    rw [lease?_of_memory hw, hfind]
    rfl

theorem isTaken_iff_of_shared (hw : w.leases.backend = .shared) :
    w.IsTaken key ↔ (w.store.leases.live? key w.now.millis).isSome = true := by
  rw [Option.isSome_iff_exists]
  constructor
  · rintro ⟨h, hh, hlive⟩
    rw [lease?_of_shared hw, Option.map_eq_some_iff] at hh
    obtain ⟨h, hfind, rfl⟩ := hh
    exact ⟨h, Ledger.live?_eq_some.2 ⟨hfind, Decidable.not_not.1 hlive⟩⟩
  · rintro ⟨h, hh⟩
    obtain ⟨hfind, hlt⟩ := Ledger.live?_eq_some.1 hh
    refine ⟨⟨h.token, .wall h.expiry⟩, ?_, fun hreached => hreached hlt⟩
    rw [lease?_of_shared hw, hfind]
    rfl

end World

/-- **What a world writes down** of what is done in it. -/
structure Journal where
  /-- For how many nanoseconds the workers slept. -/
  slept : Nat
  /-- How many attempts to take a lease were made. -/
  tries : Nat
  /-- The targets whose steps were begun. -/
  begun : List Int
  /-- What listeners were told. -/
  notices : List Notice

namespace World

/-- What a world has written down. -/
def journal (w : World) : Journal := ⟨w.slept, w.leases.tries, w.begun, w.notices⟩

/-- **Nothing was done but to leases and times**: no step was begun, and the tables beside the one
of leases are the same. -/
structure Untouched (w w' : World) : Prop extends w.OnlyLeases w' where
  /-- The steps that were begun. -/
  begun : w'.begun = w.begun

end World

namespace Lease

variable {w : World} {guard : LeaseGuard}

/-! ### One attempt -/

/-- **Meeting a fault**, as far as it is known which one waits. -/
theorem meetFault_eq (call : LeaseCall) (w : World) :
    ∃ faults, meetFault call w =
      (if (w.leases.faults call).head? = some true then .error (.backend (.injected call))
        else .ok (), { w with leases := { w.leases with faults } }) := by
  rw [meetFault]
  cases w.leases.faults call with
  | nil => exact ⟨w.leases.faults, rfl⟩
  | cons fails rest =>
    refine ⟨fun c => if c = call then rest else w.leases.faults c, ?_⟩
    cases fails <;> rfl

/-- A call on a poisoned database fails. -/
theorem editShared_of_poisoned (hw : w.database.isPoisoned = true) (f : Store → Bool × Store) :
    editShared f w = (.error (.backend (.store .poisoned)), w) :=
  Action.mapFault_of_error (Action.edit_of_poisoned hw _) _

/-- A change of the ledger in a database that is not poisoned. -/
theorem editShared_of_sound (hw : w.database.isPoisoned = false)
    (f : Ledger Int → Option (Ledger Int)) :
    editShared (fun s => s.replaceLeases (f s.leases)) w =
      match f w.store.leases with
      | none => (.ok false, w)
      | some leases => (.ok true, w.withStore { w.store with leases }) := by
  have hedit := Action.edit_of_sound hw fun s =>
    (Except.ok (s.replaceLeases (f s.leases)).1, (s.replaceLeases (f s.leases)).2)
  dsimp only at hedit
  cases hf : f w.store.leases with
  | none =>
    rw [hf] at hedit
    exact Action.mapFault_of_ok hedit _
  | some leases =>
    rw [hf] at hedit
    exact Action.mapFault_of_ok hedit _

/-- **How an attempt ends**: with its answer, and the world that it leaves. -/
inductive AttemptSpec (key : String) (ttl : Span) (w : World) :
    Except LeaseError (Option LeaseGuard) × World → Prop
  /-- The service fails. -/
  | fails {f : LeaseFault} {w' : World} (hup : ¬w.IsUp) : AttemptSpec key ttl w
      (.error (.backend f), w')
  /-- The key is taken. -/
  | taken {w' : World} (hup : w.IsUp) (htaken : w.IsTaken key) : AttemptSpec key ttl w
      (.ok none, w')
  /-- The key becomes the caller's. -/
  | takes {w' : World} (hup : w.IsUp) (hfree : ¬w.IsTaken key)
      (hlease : w'.lease? key = some ⟨.issued w.leases.issued, w.deadline ttl⟩)
      (hclock : w'.clock = w.clockAfter) : AttemptSpec key ttl w
      (.ok (some ⟨key, .issued w.leases.issued, ttl⟩), w')

section Ledgers

variable {α : Type} {key : String} {token : Token} {ttl : Span}
  (f : Bool → Action LeaseError α)

/-- An attempt in memory, and what follows it. -/
theorem attempt_memory {holds : Ledger Span} (hw : w.leases.backend = .memory holds) :
    (∃ w', w.IsTaken key ∧ (readElapsed >>= fun now => readElapsed >>= fun start =>
        editMemory holds (Ledger.take? key token now (start + ttl)) >>= f) w = f false w') ∨
      ∃ w', ¬w.IsTaken key ∧ (readElapsed >>= fun now => readElapsed >>= fun start =>
        editMemory holds (Ledger.take? key token now (start + ttl)) >>= f) w = f true w' ∧
        w'.lease? key = some ⟨token, w.deadline ttl⟩ ∧ w'.clock = w.clockAfter := by
  -- The first reading says what is over, and the deadline is reckoned from the second.
  let w₁ : World := { w with clock := w.clock.read.2 }
  let w₂ : World := { w₁ with clock := w₁.clock.read.2 }
  rw [Action.bind_of_ok (show readElapsed w = (.ok w.clock.elapsed, w₁) from rfl),
    Action.bind_of_ok (show readElapsed w₁ = (.ok w₁.clock.elapsed, w₂) from rfl),
    World.isTaken_iff_of_memory hw]
  rcases editMemory_cases holds (Ledger.take? key token w.clock.elapsed (w₁.clock.elapsed + ttl)) w₂
    with ⟨holds', htake, hedit⟩ | ⟨htake, hedit⟩
  · rw [Action.bind_of_ok hedit]
    have hself := (Ledger.take?_eq_some htake).2.1
    rw [Ledger.take?] at htake
    split at htake
    · cases htake
    · refine .inr ⟨_, ‹_›, rfl, ?_, ?_⟩
      · rw [World.lease?_of_memory rfl, hself, World.deadline, World.reckoning, hw]
        rfl
      · rw [World.clockAfter, hw]
  · rw [Action.bind_of_ok hedit]
    rw [Ledger.take?] at htake
    split at htake
    · exact .inl ⟨_, ‹_›, rfl⟩
    · cases htake

/-- An attempt in the store, and what follows it. -/
theorem attempt_shared (hw : w.leases.backend = .shared) :
    (w.database.isPoisoned = true ∧ (wallTime >>= fun now =>
        editShared (fun s => s.takeLease key token now (now + ttl)) >>= f) w =
          (.error (.backend (.store .poisoned)), w)) ∨
      w.database.isPoisoned = false ∧
        ((∃ w', w.IsTaken key ∧ (wallTime >>= fun now =>
            editShared (fun s => s.takeLease key token now (now + ttl)) >>= f) w = f false w') ∨
          ∃ w', ¬w.IsTaken key ∧ (wallTime >>= fun now =>
            editShared (fun s => s.takeLease key token now (now + ttl)) >>= f) w = f true w' ∧
            w'.lease? key = some ⟨token, w.deadline ttl⟩ ∧ w'.clock = w.clockAfter) := by
  rw [Action.bind_of_ok (show wallTime w = (.ok w.now, w) from rfl),
    World.isTaken_iff_of_shared hw]
  cases hp : w.database.isPoisoned with
  | true =>
    rw [Action.bind_of_error (editShared_of_poisoned hp _)]
    exact .inl ⟨rfl, rfl⟩
  | false =>
    refine .inr ⟨rfl, ?_⟩
    have hedit := editShared_of_sound hp
      (Ledger.take? key token w.now.millis (w.now + ttl).millis)
    cases htake : w.store.leases.take? key token w.now.millis (w.now + ttl).millis with
    | none =>
      rw [htake] at hedit
      rw [Action.bind_of_ok (show editShared (fun s => s.takeLease key token w.now
        (w.now + ttl)) w = _ from hedit)]
      rw [Ledger.take?] at htake
      split at htake
      · exact .inl ⟨_, ‹_›, rfl⟩
      · cases htake
    | some leases =>
      rw [htake] at hedit
      rw [Action.bind_of_ok (show editShared (fun s => s.takeLease key token w.now
        (w.now + ttl)) w = _ from hedit)]
      have hself := (Ledger.take?_eq_some htake).2.1
      rw [Ledger.take?] at htake
      split at htake
      · cases htake
      · refine .inr ⟨_, ‹_›, rfl, ?_, ?_⟩
        · rw [World.lease?_of_shared (w := w.withStore { w.store with leases }) hw,
            World.store_withStore, hself, World.deadline, hw]
          rfl
        · rw [World.clockAfter, hw]
          rfl

end Ledgers

/-- **How an attempt ends is for the service and the key to say.** -/
theorem tryObtain_spec (key : String) (ttl : Span) (w : World) :
    AttemptSpec key ttl w (tryObtain key ttl w) := by
  let w₀ : World := { w with leases := { w.leases with tries := w.leases.tries + 1 } }
  obtain ⟨faults, hmeet⟩ := meetFault_eq .obtain w₀
  rw [tryObtain, Action.bind_of_ok (show countTry w = (.ok (), w₀) from rfl)]
  by_cases hfault : (w₀.leases.faults .obtain).head? = some true
  · rw [if_pos hfault] at hmeet
    rw [Action.bind_of_error hmeet]
    exact .fails fun hup => hup.1 hfault
  · rw [if_neg hfault] at hmeet
    let w₁ : World := { w₀ with leases := { w₀.leases with faults } }
    let w₂ : World := { w₁ with leases := { w₁.leases with issued := w₁.leases.issued + 1 } }
    rw [Action.bind_of_ok (show meetFault .obtain w₀ = (.ok (), w₁) from hmeet),
      Action.bind_of_ok (show issueToken w₁ = (.ok (.issued w.leases.issued), w₂) from rfl),
      Action.bind_of_ok (show backend w₂ = (.ok w.leases.backend, w₂) from rfl)]
    -- Neither the clock nor any lease has changed until the ledger is asked.
    have htaken : w₂.IsTaken key ↔ w.IsTaken key := Iff.rfl
    have hdeadline : w₂.deadline ttl = w.deadline ttl := rfl
    have hclock : w₂.clockAfter = w.clockAfter := rfl
    cases hb : w.leases.backend with
    | memory holds =>
      have hup : w.IsUp := ⟨hfault, fun hshared => by rw [hb] at hshared; cases hshared⟩
      dsimp only
      rcases attempt_memory _ (w := w₂) hb with ⟨w', hfound, heq⟩ | ⟨w', hfree, heq, hlease, hend⟩
      · rw [heq]
        exact .taken hup (htaken.1 hfound)
      · rw [heq]
        rw [hdeadline] at hlease
        exact .takes hup (fun h => hfree (htaken.2 h)) hlease (hend.trans hclock)
    | shared =>
      dsimp only
      rcases attempt_shared _ (w := w₂) hb with ⟨hp, heq⟩ | ⟨hp, hcases⟩
      · rw [heq]
        exact .fails fun hup => Bool.false_ne_true ((hup.2 hb).symm.trans hp)
      · have hup : w.IsUp := ⟨hfault, fun _ => hp⟩
        rcases hcases with ⟨w', hfound, heq⟩ | ⟨w', hfree, heq, hlease, hend⟩
        · rw [heq]
          exact .taken hup (htaken.1 hfound)
        · rw [heq]
          rw [hdeadline] at hlease
          exact .takes hup (fun h => hfree (htaken.2 h)) hlease (hend.trans hclock)

/-! ### All attempts together -/

/-- **Every attempt finds the key taken**, of some number of them one after another. -/
def AllTaken (key : String) (o : LockOptions) : Nat → Bool → World → Prop
  | 0, _, _ => True
  | left + 1, isRetry, w =>
    (rested o isRetry w).IsUp ∧ (rested o isRetry w).IsTaken key ∧
      AllTaken key o left true (tryObtain key o.ttl (rested o isRetry w)).2

/-- **How some attempts end**, one after another: with their answer, and the world that they
leave. -/
inductive AttemptsSpec (key : String) (o : LockOptions) (left : Nat) (isRetry : Bool) (w : World) :
    Except LeaseError (Option (LeaseGuard × Bool)) × World → Prop
  /-- Every attempt finds the key taken. -/
  | taken {w' : World} (hall : AllTaken key o left isRetry w) : AttemptsSpec key o left isRetry w
      (.ok none, w')
  /-- The service fails before that. -/
  | fails {f : LeaseFault} {w' : World} (hnot : ¬AllTaken key o left isRetry w) :
      AttemptsSpec key o left isRetry w (.error (.backend f), w')
  /-- One of them takes the key, in a world in which only time has passed. -/
  | takes {guard : LeaseGuard} {isRetry' : Bool} {u w' : World}
      (hnot : ¬AllTaken key o left isRetry w) (htimes : w.OnlyTimes u)
      (htake : tryObtain key o.ttl u = (.ok (some guard), w')) :
      AttemptsSpec key o left isRetry w (.ok (some (guard, isRetry')), w')

theorem obtainWithin_spec (key : String) (o : LockOptions) (left : Nat) (isRetry : Bool)
    (w : World) :
    AttemptsSpec key o left isRetry w (obtainWithin key o left isRetry w) := by
  induction left generalizing w isRetry with
  | zero => exact .taken trivial
  | succ left ih =>
    rw [obtainWithin_succ]
    have hspec := tryObtain_spec key o.ttl (rested o isRetry w)
    have htimes := tryObtain_cases key o.ttl (rested o isRetry w)
    cases hanswer : tryObtain key o.ttl (rested o isRetry w) with
    | mk answer v =>
      rw [hanswer] at hspec htimes
      cases hspec with
      | fails hup =>
        rw [Action.bind_of_error hanswer]
        exact .fails fun hall => hup hall.1
      | takes hup hfree hlease hclock =>
        rw [Action.bind_of_ok hanswer, followUp]
        exact .takes (fun hall => hfree hall.2.1) (onlyTimes_rested o isRetry w) hanswer
      | taken hup htaken =>
        -- The question is passed on to the other attempts, from the world that this one leaves.
        rw [Action.bind_of_ok hanswer, followUp]
        have hiff : AllTaken key o (left + 1) isRetry w ↔ AllTaken key o left true v := by
          rw [AllTaken, hanswer]
          exact ⟨fun hall => hall.2.2, fun hall => ⟨hup, htaken, hall⟩⟩
        have hrest := ih true v
        generalize obtainWithin key o left true v = outcome at hrest
        cases hrest with
        | taken hall => exact .taken (hiff.2 hall)
        | fails hnot => exact .fails fun hall => hnot (hiff.1 hall)
        | takes hnot hlater htake =>
          rcases htimes with ⟨guard, hsome, -⟩ | ⟨-, hpassed⟩
          · cases hsome
          · refine .takes (fun hall => hnot (hiff.1 hall)) ?_ htake
            exact ((onlyTimes_rested o isRetry w).trans hpassed).trans hlater

/-- **How taking a lease ends**: with its answer, and the world that it leaves. -/
inductive ObtainSpec (key : String) (o : LockOptions) (w : World) :
    Except LeaseError (LeaseGuard × Bool) × World → Prop
  /-- Every attempt finds the key taken. -/
  | taken {w' : World} (hall : AllTaken key o o.attempts false w) : ObtainSpec key o w
      (.error (.notObtained key o.attempts), w')
  /-- The service fails before that. -/
  | fails {f : LeaseFault} {w' : World} (hnot : ¬AllTaken key o o.attempts false w) :
      ObtainSpec key o w (.error (.backend f), w')
  /-- An attempt takes the key, in a world in which only time has passed. -/
  | takes {guard : LeaseGuard} {isRetry : Bool} {u w' : World}
      (hnot : ¬AllTaken key o o.attempts false w) (htimes : w.OnlyTimes u)
      (htake : tryObtain key o.ttl u = (.ok (some guard), w')) :
      ObtainSpec key o w (.ok (guard, isRetry), w')

theorem obtain_spec (key : String) (o : LockOptions) (w : World) :
    ObtainSpec key o w (obtain key o w) := by
  have hspec := obtainWithin_spec key o o.attempts false w
  rw [obtain]
  cases hanswer : obtainWithin key o o.attempts false w with
  | mk answer w' =>
    rw [hanswer] at hspec
    cases hspec with
    | taken hall =>
      rw [Action.bind_of_ok hanswer]
      exact .taken hall
    | fails hnot =>
      rw [Action.bind_of_error hanswer]
      exact .fails hnot
    | takes hnot htimes htake =>
      rw [Action.bind_of_ok hanswer]
      exact .takes hnot htimes htake

/-- **Taking a lease succeeds** by the attempt that is made in some world. -/
structure Obtains (key : String) (o : LockOptions) (w x : World) (guard : LeaseGuard)
    (v : World) : Prop where
  /-- The call succeeds. -/
  answer : ∃ isRetry, obtain key o w = (.ok (guard, isRetry), v)
  /-- Until the attempt only time has passed. -/
  onlyTimes : w.OnlyTimes x
  /-- The attempt succeeds. -/
  attempt : tryObtain key o.ttl x = (.ok (some guard), v)

/-- A call that takes a lease does so by one of its attempts. -/
theorem exists_obtains {key : String} {o : LockOptions} {isRetry : Bool} {v : World}
    (h : obtain key o w = (.ok (guard, isRetry), v)) : ∃ x, Obtains key o w x guard v := by
  have hspec := obtain_spec key o w
  rw [h] at hspec
  cases hspec with
  | @takes _ _ x _ _ htimes htake => exact ⟨x, ⟨_, h⟩, htimes, htake⟩

/-- What an attempt hands out, and the lease that it proves. -/
theorem Obtains.lease?_eq {key : String} {o : LockOptions} {v x : World}
    (h : Obtains key o w x guard v) :
    guard.key = key ∧ v.lease? key = some ⟨guard.token, x.deadline o.ttl⟩ := by
  have hspec := tryObtain_spec key o.ttl x
  rw [h.attempt] at hspec
  cases hspec with
  | takes _ _ hlease _ => exact ⟨rfl, hlease⟩

/-! ### Giving back -/

/-- **A lease that has a guard's token ends** when the guard is given back, or the service fails. -/
theorem lease?_release_of_token {h : Hold Deadline} (hlease : w.lease? guard.key = some h)
    (htoken : h.token = guard.token) :
    (release guard w).lease? guard.key = none ∨ ∃ f, (cancel guard w).1 = .error (.backend f) := by
  rw [release, cancel]
  obtain ⟨faults, hmeet⟩ := meetFault_eq .cancel w
  split at hmeet
  · rw [Action.bind_of_error hmeet]
    exact .inr ⟨_, rfl⟩
  · let w₁ : World := { w with leases := { w.leases with faults } }
    rw [Action.bind_of_ok hmeet,
      Action.bind_of_ok (show backend w₁ = (.ok w.leases.backend, w₁) from rfl)]
    cases hb : w.leases.backend with
    | memory holds =>
      rw [World.lease?_of_memory hb, Option.map_eq_some_iff] at hlease
      obtain ⟨hold, hfind, rfl⟩ := hlease
      have hcancel : holds.cancel? guard.key guard.token = some (holds.drop guard.key) := by
        rw [Ledger.cancel?, hfind]
        exact if_pos htoken
      dsimp only
      rw [editMemory, hcancel]
      let leases : LeaseService := { w₁.leases with backend := .memory (holds.drop guard.key) }
      have hafter := World.lease?_of_memory (w := { w₁ with leases }) rfl guard.key
      refine .inl (hafter.trans ?_)
      rw [Ledger.find?_drop_self, Option.map_none]
    | shared =>
      rw [World.lease?_of_shared hb, Option.map_eq_some_iff] at hlease
      obtain ⟨hold, hfind, rfl⟩ := hlease
      let leases := w₁.store.leases.drop guard.key
      have hcancel : w₁.store.leases.cancel? guard.key guard.token = some leases := by
        rw [Ledger.cancel?, show w₁.store.leases.find? guard.key = some hold from hfind]
        exact if_pos htoken
      dsimp only
      cases hp : w₁.database.isPoisoned with
      | true =>
        rw [editShared_of_poisoned hp]
        exact .inr ⟨_, rfl⟩
      | false =>
        have hedit := editShared_of_sound hp (Ledger.cancel? guard.key guard.token)
        rw [hcancel] at hedit
        rw [show editShared (fun s => s.cancelLease guard.key guard.token) w₁ = _ from hedit]
        have hafter := World.lease?_of_shared (w := w₁.withStore { w₁.store with leases }) hb
        refine .inl ((hafter _).trans ?_)
        rw [World.store_withStore, Ledger.find?_drop_self, Option.map_none]

/-- **A guard that is given back** leaves a lease with another token as it is, and ends one that has
its own, unless the service fails. -/
theorem release_cases (guard : LeaseGuard) (w : World) {h : Hold Deadline}
    (hlease : w.lease? guard.key = some h) :
    (h.token ≠ guard.token ∧ (release guard w).lease? guard.key = some h) ∨
      (h.token = guard.token ∧ (release guard w).lease? guard.key = none) ∨
        ∃ f, (cancel guard w).1 = .error (.backend f) := by
  by_cases htoken : h.token = guard.token
  · rcases lease?_release_of_token hlease htoken with hnone | hfails
    · exact .inr (.inl ⟨htoken, hnone⟩)
    · exact .inr (.inr hfails)
  · exact .inl ⟨htoken, (ownLease_cancel guard w).lease_eq hlease (.inr htoken)⟩

/-! ### What a call does besides -/

section Journal

open Leasehold.Action (Keeps keeps_pure keeps_edit)

variable {σ : Type} {v : World → σ}

/-- **A view from aside** does not show what the calls work with: the clock, the tables, the ledger
in memory and the tokens. -/
def IsAside (v : World → σ) : Prop :=
  ∀ (w : World) (clock : Clock) (store : Store) (backend : LeaseBackend) (issued : Nat),
    v { w with
      clock, database := { w.database with store }, leases := { w.leases with backend, issued } } =
      v w

theorem IsAside.editMemory (hv : IsAside v) (holds : Ledger Span)
    (f : Ledger Span → Option (Ledger Span)) : Keeps v (editMemory holds f) := by
  intro w
  rcases editMemory_cases holds f w with ⟨holds', -, hedit⟩ | ⟨-, hedit⟩
  · rw [hedit]
    exact hv w w.clock w.store (.memory holds') w.leases.issued
  · rw [hedit]

theorem IsAside.editShared (hv : IsAside v) (f : Store → Bool × Store) :
    Keeps v (editShared f) :=
  (keeps_edit fun w => hv w w.clock _ w.leases.backend w.leases.issued).mapFault _

/-- **An attempt** is counted and may meet a fault. The rest of it is not seen from aside. -/
theorem IsAside.tryObtain (hv : IsAside v) (key : String) (ttl : Span) (w : World) :
    v (tryObtain key ttl w).2 =
      v (meetFault .obtain
        { w with leases := { w.leases with tries := w.leases.tries + 1 } }).2 := by
  have hissue : Keeps v issueToken :=
    fun w => hv w w.clock w.store w.leases.backend (w.leases.issued + 1)
  have hbackend : Keeps v backend := fun _ => rfl
  have hpass : ∀ (w : World) (clock : Clock), v { w with clock } = v w :=
    fun w clock => hv w clock w.store w.leases.backend w.leases.issued
  have hread : Keeps v (readElapsed : Action LeaseError Span) := fun w => hpass w _
  have hwall : Keeps v (wallTime : Action LeaseError Instant) := fun _ => rfl
  have hmeet : Keeps v meetContention := fun w => hpass w _
  let rest (token : Token) (isTaken : Bool) : Action LeaseError (Option LeaseGuard) :=
    if isTaken then pure (some ⟨key, token, ttl⟩) else meetContention >>= fun _ => pure none
  have hrest : ∀ token isTaken, Keeps v (rest token isTaken) := by
    rintro token (_ | _)
    · exact hmeet.bind fun _ => keeps_pure none
    · exact keeps_pure (some (LeaseGuard.mk key token ttl))
  let w₀ : World := { w with leases := { w.leases with tries := w.leases.tries + 1 } }
  rw [Lease.tryObtain, Action.bind_of_ok (show countTry w = (.ok (), w₀) from rfl)]
  cases hfault : meetFault .obtain w₀ with
  | mk answer w₁ =>
    cases answer with
    | error e => rw [Action.bind_of_error hfault]
    | ok u =>
      rw [Action.bind_of_ok hfault]
      refine (hissue.bind fun token => hbackend.bind fun b => ?_ : Keeps v _) w₁
      cases b with
      | memory holds =>
        exact hread.bind fun _ => hread.bind fun _ => (hv.editMemory holds _).bind (hrest token)
      | shared => exact hwall.bind fun _ => (hv.editShared _).bind (hrest token)

/-- **Giving a guard back** may meet a fault. The rest of it is not seen from aside. -/
theorem IsAside.cancel (hv : IsAside v) (guard : LeaseGuard) (w : World) :
    v (cancel guard w).2 = v (meetFault .cancel w).2 := by
  have hbackend : Keeps v backend := fun _ => rfl
  rw [Lease.cancel]
  cases hfault : meetFault .cancel w with
  | mk answer w₁ =>
    cases answer with
    | error e => rw [Action.bind_of_error hfault]
    | ok u =>
      rw [Action.bind_of_ok hfault]
      refine (hbackend.bind fun b => ?_ : Keeps v _) w₁
      cases b with
      | memory holds => exact hv.editMemory holds _
      | shared => exact hv.editShared _

theorem isAside_journal : IsAside World.journal := fun _ _ _ _ _ => rfl

theorem journal_meetFault (call : LeaseCall) : Keeps World.journal (meetFault call) := by
  intro w
  obtain ⟨faults, hmeet⟩ := meetFault_eq call w
  rw [hmeet]
  rfl

/-- **An attempt** is counted, and nothing else is written down. -/
theorem journal_tryObtain (key : String) (ttl : Span) (w : World) :
    (tryObtain key ttl w).2.journal = { w.journal with tries := w.leases.tries + 1 } := by
  rw [isAside_journal.tryObtain, journal_meetFault]
  rfl

theorem journal_cancel (guard : LeaseGuard) : Keeps World.journal (cancel guard) :=
  fun w => (isAside_journal.cancel guard w).trans (journal_meetFault .cancel w)

theorem begun_obtain (key : String) (o : LockOptions) : Keeps World.begun (obtain key o) :=
  keeps_obtain_of_tryObtain (fun w => congrArg Journal.begun (journal_tryObtain key o.ttl w))
    fun _ => rfl

theorem notices_obtain (key : String) (o : LockOptions) : Keeps World.notices (obtain key o) :=
  keeps_obtain_of_tryObtain (fun w => congrArg Journal.notices (journal_tryObtain key o.ttl w))
    fun _ => rfl

theorem begun_cancel (guard : LeaseGuard) : Keeps World.begun (cancel guard) :=
  fun w => congrArg Journal.begun (journal_cancel guard w)

end Journal

/-- **Taking a lease** begins no step. -/
theorem untouched_obtain (key : String) (o : LockOptions) (w : World) :
    w.Untouched (obtain key o w).2 :=
  ⟨onlyLeases_obtain key o w, begun_obtain key o w⟩

/-- **Giving it back** begins none. -/
theorem untouched_release (guard : LeaseGuard) (w : World) : w.Untouched (release guard w) :=
  ⟨onlyLeases_release guard w, begun_cancel guard w⟩

end Lease

end Leasehold
