import Leasehold.Proofs.Hook.Saving
import Leasehold.Proofs.Lease.Exclusion

/-!
# Updates that interleave

Any number of updates of any hooks go on at once. Each makes its attempts to take the lease of its
hook; the one that has it reads the hook, applies its delivery, writes the hook back if that
changed anything, notes the failure of the project if the hook may not be told about events any
more, and gives the lease back. One that was refused reads the hook once more and compares. Between
any two of these calls the others act and the clock moves.

* `Leasehold.UpdatePhase` – where an update is;
* `Leasehold.Updates` – all of them, with the order in which they took their leases;
* `Leasehold.Updates.Step`, `Leasehold.Updates.Run` – what may happen.

Seen from the lease service, updates are clients that work under leases
(`Leasehold.Updates.clients`), and every step of theirs is some steps of the clients
(`Leasehold.Updates.clients_step`): so no two updates of one hook are between taking the lease and
the end of their work at once. An update that nobody disturbs is a run of this kind
(`Leasehold.Updates.run_updateHook`).
-/

namespace Leasehold

/-! ### Where an update is -/

/-- **What an update came to.** -/
inductive Outcome where
  /-- It applied its delivery to the hook, at some instant. -/
  | applied (h : WebHook) (changed : Bool) (now : Instant)
  /-- It was refused, but the hook agrees with the delivery already. -/
  | alreadyConsistent (h : WebHook)
  /-- It failed. -/
  | failed (e : HookError)

/-- What the update answers. -/
def Outcome.answer : Outcome → Except HookError HookUpdate
  | applied h changed _ => .ok (.applied h changed)
  | alreadyConsistent h => .ok (.alreadyConsistent h)
  | failed e => .error e

/-- **Where an update is.** -/
inductive UpdatePhase where
  /-- It has not begun. -/
  | waiting
  /-- It has some attempts left to take the lease. -/
  | trying (left : Nat)
  /-- It has the lease, and reads the hook next. -/
  | reading (guard : LeaseGuard)
  /-- It has read the hook, and applies the delivery next. -/
  | applying (guard : LeaseGuard) (before : WebHook)
  /-- The delivery changed the hook, which is written back next. -/
  | saving (guard : LeaseGuard) (after : WebHook) (now : Instant)
  /-- The hook is as the delivery leaves it, and the failure of its project is noted next. -/
  | noting (guard : LeaseGuard) (after : WebHook) (changed : Bool) (now : Instant)
  /-- The work has ended, and the guard is still to be given back. -/
  | leaving (guard : LeaseGuard) (outcome : Outcome)
  /-- It was refused the lease, and reads the hook next. -/
  | refused (e : LeaseError)
  /-- It was refused the lease, and compares the hook with the delivery next. -/
  | comparing (e : LeaseError) (h : WebHook)
  /-- It has answered. -/
  | ended (outcome : Outcome)

namespace UpdatePhase

/-- **Where the update is for the lease service.** -/
def toPhase : UpdatePhase → Phase
  | waiting => .waiting
  | trying left => .trying left
  | reading guard => .inside guard
  | applying guard _ => .inside guard
  | saving guard _ _ => .inside guard
  | noting guard _ _ _ => .inside guard
  | leaving guard _ => .leaving guard
  | refused _ => .ended
  | comparing _ _ => .ended
  | ended _ => .ended

/-- Where an update goes that does not get the lease. -/
def withoutLease : LeaseError → UpdatePhase
  | .notObtained key attempts => refused (.notObtained key attempts)
  | .backend f => ended (.failed (.lease (.backend f)))

/-- Where an update goes after reading the hook under the lease. -/
def afterReading (guard : LeaseGuard) : Except HookError WebHook → UpdatePhase
  | .ok before => applying guard before
  | .error e => leaving guard (.failed e)

/-- Where an update goes after applying the delivery. -/
def afterApplying (guard : LeaseGuard) (before after : WebHook) (now : Instant) : UpdatePhase :=
  if after ≠ before then saving guard after now else noting guard after false now

/-- Where an update goes after writing the hook back. -/
def afterSaving (guard : LeaseGuard) (after : WebHook) (now : Instant) :
    Except HookError Unit → UpdatePhase
  | .ok () => noting guard after true now
  | .error e => leaving guard (.failed e)

/-- Where an update goes after reading the hook without the lease. -/
def afterRefusal (e : LeaseError) : Except HookError WebHook → UpdatePhase
  | .ok h => comparing e h
  | .error f => ended (.failed f)

/-- Where an update goes after comparing the hook with the delivery. -/
def afterComparing (e : LeaseError) (h : WebHook) (c : Category) (now : Instant) : UpdatePhase :=
  if h.isExecutable now = (c = .ok) then ended (.alreadyConsistent h)
  else ended (.failed (.lease e))

theorem toPhase_withoutLease (e : LeaseError) : (withoutLease e).toPhase = .ended := by
  cases e <;> rfl

theorem toPhase_afterApplying (guard : LeaseGuard) (before after : WebHook) (now : Instant) :
    (afterApplying guard before after now).toPhase = .inside guard := by
  rw [afterApplying]
  split <;> rfl

theorem toPhase_afterRefusal (e : LeaseError) (answer : Except HookError WebHook) :
    (afterRefusal e answer).toPhase = .ended := by
  cases answer <;> rfl

theorem toPhase_afterComparing (e : LeaseError) (h : WebHook) (c : Category) (now : Instant) :
    (afterComparing e h c now).toPhase = .ended := by
  rw [afterComparing]
  split <;> rfl

end UpdatePhase

/-! ### What may happen -/

/-- **What an update is called with.** -/
structure UpdateCall where
  /-- The number of the hook. -/
  hook : Int
  /-- How the delivery went. -/
  category : Category
  /-- How the lease is taken. -/
  options : LockOptions

/-- The key of the lease that the update takes. -/
def UpdateCall.key (u : UpdateCall) : String := WebHook.leaseKey u.hook

/-- **Updates** in one world. -/
structure Updates (ι : Type) extends Parties ι UpdatePhase where
  /-- Those that took their leases, in that order. -/
  order : List ι := []

namespace Updates

open Parties (phase_put phase_put_self)

variable {ι : Type} [DecidableEq ι]

/-- An update goes on, and the world with it. -/
def put (c : Updates ι) (i : ι) (p : UpdatePhase) (w : World) : Updates ι :=
  { c with toParties := c.toParties.put i p w }

omit [DecidableEq ι] in
/-- Another update has taken its lease. -/
def taken (c : Updates ι) (i : ι) : Updates ι := { c with order := c.order ++ [i] }

section Steps

variable (calls : ι → UpdateCall)

/-- **One step** of one update, or of the world around them. A call that fails ends its update;
only the note at the end of the work is taken to succeed, since an update that fails there has
changed the hook all the same. -/
inductive Step : Updates ι → Updates ι → Prop
  /-- An update begins. -/
  | begin (c : Updates ι) (i : ι) (hi : c.phase i = .waiting) :
      Step c (c.put i (.trying (calls i).options.attempts) c.world)
  /-- An update makes an attempt and takes the lease. -/
  | take (c : Updates ι) (i : ι) (left : Nat) (guard : LeaseGuard) (w : World)
      (hi : c.phase i = .trying (left + 1))
      (h : Lease.tryObtain (calls i).key (calls i).options.ttl c.world = (.ok (some guard), w)) :
      Step c ((c.put i (.reading guard) w).taken i)
  /-- An update makes an attempt and finds the lease taken. -/
  | miss (c : Updates ι) (i : ι) (left : Nat) (w : World) (hi : c.phase i = .trying (left + 1))
      (h : Lease.tryObtain (calls i).key (calls i).options.ttl c.world = (.ok none, w)) :
      Step c (c.put i (.trying left) w)
  /-- An update makes an attempt that fails. -/
  | fault (c : Updates ι) (i : ι) (left : Nat) (e : LeaseError) (w : World)
      (hi : c.phase i = .trying (left + 1))
      (h : Lease.tryObtain (calls i).key (calls i).options.ttl c.world = (.error e, w)) :
      Step c (c.put i (.withoutLease e) w)
  /-- An update has no attempts left. -/
  | giveUp (c : Updates ι) (i : ι) (hi : c.phase i = .trying 0) :
      Step c (c.put i (.withoutLease (.notObtained (calls i).key (calls i).options.attempts))
        c.world)
  /-- An update reads the hook under the lease. -/
  | read (c : Updates ι) (i : ι) (guard : LeaseGuard) (answer : Except HookError WebHook)
      (w : World) (hi : c.phase i = .reading guard)
      (h : findHook (calls i).hook c.world = (answer, w)) :
      Step c (c.put i (.afterReading guard answer) w)
  /-- An update looks at the clock and applies the delivery. -/
  | apply (c : Updates ι) (i : ι) (guard : LeaseGuard) (before : WebHook)
      (hi : c.phase i = .applying guard before) :
      Step c (c.put i (.afterApplying guard before
        (before.apply (calls i).category c.world.now) c.world.now) c.world)
  /-- An update writes the hook back. -/
  | save (c : Updates ι) (i : ι) (guard : LeaseGuard) (after : WebHook) (now : Instant)
      (answer : Except HookError Unit) (w : World) (hi : c.phase i = .saving guard after now)
      (h : saveHook after c.world = (answer, w)) :
      Step c (c.put i (.afterSaving guard after now answer) w)
  /-- An update notes the failure of the project, where there is one. -/
  | note (c : Updates ι) (i : ι) (guard : LeaseGuard) (after : WebHook) (changed : Bool)
      (now : Instant) (w : World) (hi : c.phase i = .noting guard after changed now)
      (h : noteDown after now c.world = (.ok (), w)) :
      Step c (c.put i (.leaving guard (.applied after changed now)) w)
  /-- An update gives its guard back and answers. -/
  | release (c : Updates ι) (i : ι) (guard : LeaseGuard) (outcome : Outcome)
      (hi : c.phase i = .leaving guard outcome) :
      Step c (c.put i (.ended outcome) (Lease.release guard c.world))
  /-- An update that was refused reads the hook. -/
  | look (c : Updates ι) (i : ι) (e : LeaseError) (answer : Except HookError WebHook) (w : World)
      (hi : c.phase i = .refused e) (h : findHook (calls i).hook c.world = (answer, w)) :
      Step c (c.put i (.afterRefusal e answer) w)
  /-- An update that was refused looks at the clock and compares. -/
  | compare (c : Updates ι) (i : ι) (e : LeaseError) (h : WebHook)
      (hi : c.phase i = .comparing e h) :
      Step c (c.put i (.afterComparing e h (calls i).category c.world.now) c.world)
  /-- Anything else happens that is not about leases and hooks: the clock moves, say. -/
  | elsewhere (c : Updates ι) (w : World) (hlease : ∀ key, w.lease? key = c.world.lease? key)
      (hissued : c.world.leases.issued ≤ w.leases.issued)
      (hhook : ∀ id, w.store.hook? id = c.world.store.hook? id) : Step c { c with world := w }

/-- **Some steps**, one after another. -/
abbrev Run : Updates ι → Updates ι → Prop := Relation.ReflTransGen (Step calls)

omit [DecidableEq ι] in
/-- **The updates as clients** of the lease service. -/
def clients (c : Updates ι) : Clients ι := ⟨c.world, fun i => (c.phase i).toPhase⟩

/-- **Some steps in time**, one after another: no update sees the deadline of its lease reached
between taking it and the end of its work. -/
abbrev RunInTime : Updates ι → Updates ι → Prop :=
  Relation.ReflTransGen fun c c' => c.clients.InTime ∧ Step calls c c'

end Steps

/-! ### Updates as clients -/

variable {calls : ι → UpdateCall} {c c' : Updates ι} {i : ι} {p : UpdatePhase} {w : World}

theorem toParties_put (c : Updates ι) (i : ι) (p : UpdatePhase) (w : World) :
    (c.put i p w).toParties = c.toParties.put i p w := rfl

theorem clients_put (c : Updates ι) (i : ι) (p : UpdatePhase) (w : World) :
    (c.put i p w).clients = c.clients.put i p.toPhase w :=
  congrArg (Parties.mk w) (Function.comp_update UpdatePhase.toPhase c.phase i p)

omit [DecidableEq ι] in
theorem phase_clients (hi : c.phase i = p) : c.clients.phase i = p.toPhase :=
  congrArg UpdatePhase.toPhase hi

/-- The keys and options of the clients. -/
abbrev ClientsRunInTime (calls : ι → UpdateCall) : Clients ι → Clients ι → Prop :=
  Clients.RunInTime (fun i => (calls i).key) fun i => (calls i).options

/-- **An update does something that is not about leases**, and stays where it is for the lease
service, or ends its work. -/
theorem clients_put_of_keepsLeases (htime : c.clients.InTime) (hw : c.world.KeepsLeases w)
    (hp : p.toPhase = c.clients.phase i ∨
      ∃ guard, c.clients.phase i = .inside guard ∧ p.toPhase = .leaving guard) :
    ClientsRunInTime calls c.clients (c.put i p w).clients := by
  have hwork : ClientsRunInTime calls c.clients { c.clients with world := w } :=
    .single ⟨htime, .elsewhere c.clients w hw.lease (Nat.le_of_eq hw.issued.symm)⟩
  rw [clients_put]
  rcases hp with hp | ⟨guard, hi, hp⟩
  · rw [Parties.put_self hp.symm]
    exact hwork
  · rw [hp]
    exact hwork.tail ⟨htime.of_keepsLeases hw, .finish { c.clients with world := w } i guard hi⟩

/-- **Every step of the updates is some steps of the clients.** -/
theorem clients_step (h : Step calls c c') (htime : c.clients.InTime) :
    ClientsRunInTime calls c.clients c'.clients := by
  have hattempt : ∀ i left answer w, c.phase i = .trying (left + 1) →
      Lease.tryObtain (calls i).key (calls i).options.ttl c.world = (answer, w) →
      ClientsRunInTime calls c.clients (c.clients.put i (.afterAttempt left answer) w) := by
    intro i left answer w hi h
    have hstep : Clients.Step (fun i => (calls i).key) (fun i => (calls i).options) c.clients _ :=
      .attempt c.clients i left (phase_clients hi)
    rw [show Lease.tryObtain (calls i).key (calls i).options.ttl c.clients.world = _ from h]
      at hstep
    exact .single ⟨htime, hstep⟩
  cases h with
  | begin i hi =>
    rw [clients_put]
    exact .single ⟨htime, .begin c.clients i (phase_clients hi)⟩
  | take i left guard w hi h =>
    change ClientsRunInTime calls c.clients (c.put i (.reading guard) w).clients
    rw [clients_put]
    exact hattempt i left _ w hi h
  | miss i left w hi h =>
    rw [clients_put]
    exact hattempt i left _ w hi h
  | fault i left e w hi h =>
    rw [clients_put, UpdatePhase.toPhase_withoutLease]
    exact hattempt i left _ w hi h
  | giveUp i hi =>
    rw [clients_put]
    exact .single ⟨htime, .giveUp c.clients i (phase_clients hi)⟩
  | read i guard answer w hi h =>
    rw [eq_of_findHook h]
    refine clients_put_of_keepsLeases htime (.refl _) ?_
    cases answer with
    | error e => exact .inr ⟨guard, phase_clients hi, rfl⟩
    | ok before => exact .inl (phase_clients hi).symm
  | apply i guard before hi =>
    refine clients_put_of_keepsLeases htime (.refl _) (.inl ?_)
    rw [UpdatePhase.toPhase_afterApplying, phase_clients hi, UpdatePhase.toPhase]
  | save i guard after now answer w hi h =>
    have hkeeps := keepsLeases_saveHook after c.world
    rw [h] at hkeeps
    refine clients_put_of_keepsLeases htime hkeeps ?_
    cases answer with
    | error e => exact .inr ⟨guard, phase_clients hi, rfl⟩
    | ok u => exact .inl (phase_clients hi).symm
  | note i guard after changed now w hi h =>
    have hkeeps := (noteDown_cases after now c.world).1
    rw [h] at hkeeps
    exact clients_put_of_keepsLeases htime hkeeps (.inr ⟨guard, phase_clients hi, rfl⟩)
  | release i guard outcome hi =>
    rw [clients_put]
    exact .single ⟨htime, .release c.clients i guard (phase_clients hi)⟩
  | look i e answer w hi h =>
    rw [eq_of_findHook h]
    refine clients_put_of_keepsLeases htime (.refl _) (.inl ?_)
    rw [UpdatePhase.toPhase_afterRefusal, phase_clients hi, UpdatePhase.toPhase]
  | compare i e h hi =>
    refine clients_put_of_keepsLeases htime (.refl _) (.inl ?_)
    rw [UpdatePhase.toPhase_afterComparing, phase_clients hi, UpdatePhase.toPhase]
  | elsewhere w hlease hissued hhook =>
    exact .single ⟨htime, .elsewhere c.clients w hlease hissued⟩

/-! ### An update that nobody disturbs -/

section Undisturbed

variable (calls)

theorem put_put (c : Updates ι) (i : ι) (p p' : UpdatePhase) (w w' : World) :
    (c.put i p w).put i p' w' = c.put i p' w' :=
  congrArg (Updates.mk · c.order) (c.toParties.put_put i p p' w w')

/-- **Some attempts** that nobody disturbs. -/
theorem run_obtainWithin (left : Nat) (isRetry : Bool) (hi : c.phase i = .trying left) :
    (∃ guard isRetry' w, Lease.obtainWithin (calls i).key (calls i).options left isRetry c.world =
        (.ok (some (guard, isRetry')), w) ∧
        Run calls c ((c.put i (.reading guard) w).taken i)) ∨
      (∃ w, Lease.obtainWithin (calls i).key (calls i).options left isRetry c.world =
        (.ok none, w) ∧ Run calls c (c.put i (.trying 0) w)) ∨
      ∃ e w, Lease.obtainWithin (calls i).key (calls i).options left isRetry c.world =
        (.error e, w) ∧ Run calls c (c.put i (.withoutLease e) w) := by
  have hstart : Run calls c (c.put i (.trying left) c.world) := by
    have hsame : c.put i (.trying left) c.world = c :=
      congrArg (Updates.mk · c.order) (Parties.put_self hi c.world)
    rw [hsame]
  have hmiss : ∀ left v v', Run calls c (c.put i (.trying (left + 1)) v) →
      Lease.tryObtain (calls i).key (calls i).options.ttl v = (.ok none, v') →
      Run calls c (c.put i (.trying left) v') := by
    intro left v v' hrun htry
    have hstep := hrun.tail (.miss _ i left v' (phase_put_self _ _ _ _) htry)
    rw [put_put] at hstep
    exact hstep
  have hends := Lease.obtainWithin_ends (P := fun left v => Run calls c (c.put i (.trying left) v))
    (fun _ _ _ hrun => hrun.tail (.elsewhere _ _ (fun _ => rfl) (Nat.le_refl _) fun _ => rfl))
    hmiss left isRetry hstart
  generalize Lease.obtainWithin (calls i).key (calls i).options left isRetry c.world = outcome
    at hends
  cases hends with
  | @takes left guard isRetry' v w hrun htry =>
    have htake := hrun.tail (.take _ i left guard w (phase_put_self _ _ _ _) htry)
    rw [put_put] at htake
    exact .inl ⟨guard, isRetry', w, rfl, htake⟩
  | @fails left e v w hrun htry =>
    have hfault := hrun.tail (.fault _ i left e w (phase_put_self _ _ _ _) htry)
    rw [put_put] at hfault
    exact .inr (.inr ⟨e, w, rfl, hfault⟩)
  | @misses w hrun => exact .inr (.inl ⟨w, rfl, hrun⟩)

/-- All attempts, which end with the lease or without it. -/
theorem run_obtain (hi : c.phase i = .waiting) :
    (∃ guard isRetry w, Lease.obtain (calls i).key (calls i).options c.world =
        (.ok (guard, isRetry), w) ∧ Run calls c ((c.put i (.reading guard) w).taken i)) ∨
      ∃ e w, Lease.obtain (calls i).key (calls i).options c.world = (.error e, w) ∧
        Run calls c (c.put i (.withoutLease e) w) := by
  have hbegin : Run calls c (c.put i (.trying (calls i).options.attempts) c.world) :=
    .single (.begin c i hi)
  rw [Lease.obtain]
  rcases run_obtainWithin calls (c := c.put i (.trying _) c.world)
    (calls i).options.attempts false (phase_put_self _ _ _ _) with
    ⟨guard, isRetry, w, h, hrun⟩ | ⟨w, h, hrun⟩ | ⟨e, w, h, hrun⟩
  · rw [put_put] at hrun
    rw [Action.bind_of_ok (show Lease.obtainWithin _ _ _ _ c.world = _ from h)]
    exact .inl ⟨guard, isRetry, w, rfl, hbegin.trans hrun⟩
  · have hgive := hrun.tail (.giveUp _ i (phase_put_self _ _ _ _))
    rw [put_put, put_put] at hgive
    rw [Action.bind_of_ok (show Lease.obtainWithin _ _ _ _ c.world = _ from h)]
    exact .inr ⟨_, w, rfl, hbegin.trans hgive⟩
  · rw [put_put] at hrun
    rw [Action.bind_of_error (show Lease.obtainWithin _ _ _ _ c.world = _ from h)]
    exact .inr ⟨e, w, rfl, hbegin.trans hrun⟩

/-- The end of the work under the lease, in a database that is not poisoned. -/
theorem run_noteDown {guard : LeaseGuard} {after : WebHook} {changed : Bool} {now : Instant}
    (hi : c.phase i = .noting guard after changed now)
    (hp : c.world.database.isPoisoned = false) :
    ∃ w, (if after.isExecutable now = true then pure (.applied after changed)
        else noteFailure after.project now >>= fun _ => pure (.applied after changed) :
          Action HookError HookUpdate) c.world = (.ok (.applied after changed), w) ∧
      Run calls c (c.put i (.leaving guard (.applied after changed now)) w) := by
  have hnote := (noteDown_cases after now c.world).2.2 hp
  exact ⟨_, noteDown_bind hp after now _,
    .single (.note c i guard after changed now _ hi (Prod.ext hnote rfl))⟩

/-- **The work under the lease** that nobody disturbs. -/
theorem run_applyToHook {guard : LeaseGuard} (hi : c.phase i = .reading guard) :
    ∃ outcome w,
      applyToHook (calls i).hook (calls i).category c.world = (outcome.answer, w) ∧
      Run calls c (c.put i (.leaving guard outcome) w) := by
  rw [applyToHook]
  rcases findHook_cases (calls i).hook c.world with ⟨before, hfind, hbefore, hp⟩ | ⟨e, hfind⟩
  · have hread : Run calls c (c.put i (.applying guard before) c.world) :=
      .single (.read c i guard _ _ hi hfind)
    have happly := hread.tail (.apply _ i guard before (phase_put_self _ _ _ _))
    rw [put_put] at happly
    change Run calls c (c.put i (.afterApplying guard before
      (before.apply (calls i).category c.world.now) c.world.now) c.world) at happly
    rw [Action.bind_of_ok hfind,
      Action.bind_of_ok (show wallTime c.world = (.ok c.world.now, c.world) from rfl)]
    have hsame := before.same_apply (calls i).category c.world.now
    generalize before.apply (calls i).category c.world.now = after at happly hsame
    dsimp only
    by_cases hchanged : after ≠ before
    · rw [UpdatePhase.afterApplying, if_pos hchanged] at happly
      rw [decide_eq_true hchanged, if_pos rfl]
      rcases saveHook_cases hbefore hsame with ⟨w, hsave, hp', -⟩ | ⟨hp', -⟩
      · have hrun := happly.tail (.save _ i guard after _ _ w (phase_put_self _ _ _ _) hsave)
        rw [put_put] at hrun
        obtain ⟨w', hnote, hend⟩ := run_noteDown calls
          (c := c.put i (.noting guard after true c.world.now) w) (phase_put_self _ _ _ _) hp'
        rw [put_put] at hend
        rw [Action.bind_of_ok hsave]
        exact ⟨.applied after true c.world.now, w', hnote, hrun.trans hend⟩
      · rw [hp] at hp'
        cases hp'
    · rw [UpdatePhase.afterApplying, if_neg hchanged] at happly
      rw [decide_eq_false hchanged, if_neg Bool.false_ne_true]
      obtain ⟨w', hnote, hend⟩ := run_noteDown calls
        (c := c.put i (.noting guard after false c.world.now) c.world) (phase_put_self _ _ _ _) hp
      rw [put_put] at hend
      exact ⟨.applied after false c.world.now, w', hnote, happly.trans hend⟩
  · rw [Action.bind_of_error hfind]
    exact ⟨.failed e, c.world, rfl, .single (.read c i guard _ _ hi hfind)⟩

/-- **The work without the lease** that nobody disturbs. -/
theorem run_reconcileHook {e : LeaseError} (hi : c.phase i = .refused e) :
    ∃ outcome w,
      reconcileHook (calls i).hook (calls i).category e c.world = (outcome.answer, w) ∧
      Run calls c (c.put i (.ended outcome) w) := by
  rw [reconcileHook]
  rcases findHook_cases (calls i).hook c.world with ⟨h, hfind, -⟩ | ⟨f, hfind⟩
  · have hlook : Run calls c (c.put i (.comparing e h) c.world) :=
      .single (.look c i e _ _ hi hfind)
    have hcompare := hlook.tail (.compare _ i e h (phase_put_self _ _ _ _))
    rw [put_put] at hcompare
    change Run calls c (c.put i (.afterComparing e h (calls i).category c.world.now) c.world)
      at hcompare
    rw [Action.bind_of_ok hfind,
      Action.bind_of_ok (show wallTime c.world = (.ok c.world.now, c.world) from rfl)]
    rw [UpdatePhase.afterComparing] at hcompare
    split
    · rename_i hagrees
      rw [if_pos hagrees] at hcompare
      exact ⟨.alreadyConsistent h, c.world, rfl, hcompare⟩
    · rename_i hagrees
      rw [if_neg hagrees] at hcompare
      exact ⟨.failed (.lease e), c.world, rfl, hcompare⟩
  · rw [Action.bind_of_error hfind]
    exact ⟨.failed f, c.world, rfl, .single (.look c i e _ _ hi hfind)⟩

/-- **An update that nobody disturbs** is a run of that one update, with the same answer. -/
theorem run_updateHook (hi : c.phase i = .waiting) :
    ∃ outcome c', Run calls c c' ∧ c'.phase i = .ended outcome ∧
      (∀ j ≠ i, c'.phase j = c.phase j) ∧
      updateHook (calls i).options (calls i).hook (calls i).category c.world =
        (outcome.answer, c'.world) := by
  have hothers : ∀ p w, ∀ j ≠ i, (c.put i p w).phase j = c.phase j := by
    intro p w j hj
    exact Parties.phase_put_of_ne hj
  unfold updateHook Lease.inLock
  rcases run_obtain calls hi with ⟨guard, isRetry, w, h, hrun⟩ | ⟨e, w, h, hrun⟩
  · obtain ⟨outcome, w', hwork, hleave⟩ := run_applyToHook calls
      (c := (c.put i (.reading guard) w).taken i) (phase_put_self _ _ _ _)
    have hend := (hrun.trans hleave).tail
      (.release _ i guard outcome (phase_put_self _ _ _ _))
    rw [put_put] at hend
    change Run calls c (((c.put i (.reading guard) w).put i (.ended outcome)
      (Lease.release guard w')).taken i) at hend
    rw [put_put] at hend
    refine ⟨outcome, _, hend, phase_put_self _ _ _ _,
      hothers _ (Lease.release guard w'), ?_⟩
    rw [show Lease.obtain (WebHook.leaseKey (calls i).hook) (calls i).options c.world = _ from h]
    dsimp only
    rw [show applyToHook (calls i).hook (calls i).category w = _ from hwork]
    cases outcome <;> rfl
  · rw [show Lease.obtain (WebHook.leaseKey (calls i).hook) (calls i).options c.world = _ from h]
    cases e with
    | notObtained key attempts =>
      obtain ⟨outcome, w', hwork, hend⟩ := run_reconcileHook calls
        (c := c.put i (.refused (.notObtained key attempts)) w) (phase_put_self _ _ _ _)
      rw [put_put] at hend
      exact ⟨outcome, _, hrun.trans hend, phase_put_self _ _ _ _, hothers _ _, hwork⟩
    | backend f => exact ⟨_, _, hrun, phase_put_self _ _ _ _, hothers _ _, rfl⟩

end Undisturbed

end Updates

end Leasehold
