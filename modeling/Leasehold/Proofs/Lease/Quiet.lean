import Leasehold.Proofs.Lease.Scoped

/-!
# Leases without interference

A call on the lease service may fail for two reasons: a fault waits for it, or leases are kept in
the store and the database is poisoned. Where there is neither, no call fails, and none brings a
reason to fail about (`Leasehold.World.IsQuiet`). A lease that is taken is then given back for
certain (`Leasehold.World.IsQuiet.lease?_release`).
-/

namespace Leasehold

namespace Lease

/-- What may make a call on the service fail. -/
def hazards (w : World) : Bool × (LeaseCall → List Bool) :=
  (w.database.isPoisoned, w.leases.faults)

theorem isAside_hazards : IsAside hazards := fun _ _ _ _ _ => rfl

end Lease

/-- **Nothing interferes**: the database is not poisoned, and no fault waits for a call that takes a
lease or gives one back. -/
structure World.IsQuiet (w : World) : Prop where
  /-- The database. -/
  isSound : w.database.isPoisoned = false
  /-- The calls that take a lease. -/
  obtains : true ∉ w.leases.faults .obtain
  /-- The calls that give one back. -/
  cancels : true ∉ w.leases.faults .cancel

namespace World.IsQuiet

open Leasehold.Lease (Refused hazards isAside_hazards)

variable {w w' : World} {key : String} {guard : LeaseGuard}

theorem of_hazards_eq (hw : w.IsQuiet) (h : hazards w' = hazards w) : w'.IsQuiet := by
  obtain ⟨hpoisoned, hfaults⟩ := Prod.mk.inj h
  exact ⟨hpoisoned.trans hw.isSound, hfaults ▸ hw.obtains, hfaults ▸ hw.cancels⟩

/-- A rest before another try. -/
theorem rested (hw : w.IsQuiet) (o : LockOptions) (isRetry : Bool) :
    (Lease.rested o isRetry w).IsQuiet := hw.of_hazards_eq rfl

/-- No fault is met. -/
theorem meetFault {call : LeaseCall} (hw : w.IsQuiet) (hcalm : true ∉ w.leases.faults call) :
    ∃ w', Lease.meetFault call w = (.ok (), w') ∧ w'.IsQuiet := by
  rw [Lease.meetFault]
  split
  · exact ⟨w, rfl, hw⟩
  · rename_i fails rest hfaults
    rw [hfaults] at hcalm
    have hrest : ∀ c, true ∉ w.leases.faults c →
        true ∉ (if c = call then rest else w.leases.faults c) := by
      intro c hc
      split
      · exact fun hmem => hcalm (List.mem_cons_of_mem _ hmem)
      · exact hc
    cases fails with
    | true => exact absurd List.mem_cons_self hcalm
    | false => exact ⟨_, rfl, hw.isSound, hrest .obtain hw.obtains, hrest .cancel hw.cancels⟩

theorem tryObtain (hw : w.IsQuiet) (key : String) (ttl : Span) :
    (Lease.tryObtain key ttl w).2.IsQuiet := by
  let w₀ : World := { w with leases := { w.leases with tries := w.leases.tries + 1 } }
  have hw₀ : w₀.IsQuiet := hw.of_hazards_eq rfl
  obtain ⟨w₁, hmeet, hw₁⟩ := hw₀.meetFault hw₀.obtains
  have hafter := isAside_hazards.tryObtain key ttl w
  rw [show Lease.meetFault .obtain w₀ = _ from hmeet] at hafter
  exact hw₁.of_hazards_eq hafter

/-- An attempt does not fail. -/
theorem tryObtain_ne_error (hw : w.IsQuiet) (key : String) (ttl : Span) (e : LeaseError) :
    (Lease.tryObtain key ttl w).1 ≠ .error e := by
  intro herror
  have hup : w.IsUp :=
    ⟨fun hhead => hw.obtains (List.mem_of_mem_head? hhead), fun _ => hw.isSound⟩
  have hspec := Lease.tryObtain_spec key ttl w
  generalize Lease.tryObtain key ttl w = outcome at herror hspec
  cases hspec with
  | fails hnot => exact hnot hup
  | taken => cases herror
  | takes => cases herror

theorem cancel (hw : w.IsQuiet) (guard : LeaseGuard) : (Lease.cancel guard w).2.IsQuiet := by
  obtain ⟨w₁, hmeet, hw₁⟩ := hw.meetFault hw.cancels
  have hafter := isAside_hazards.cancel guard w
  rw [hmeet] at hafter
  exact hw₁.of_hazards_eq hafter

/-- A guard can be given back. -/
theorem cancel_ne_error (hw : w.IsQuiet) (guard : LeaseGuard) (e : LeaseError) :
    (Lease.cancel guard w).1 ≠ .error e := by
  obtain ⟨w₁, hmeet, hw₁⟩ := hw.meetFault hw.cancels
  rw [Lease.cancel, Action.bind_of_ok hmeet,
    Action.bind_of_ok (show Lease.backend w₁ = (.ok w₁.leases.backend, w₁) from rfl)]
  cases w₁.leases.backend with
  | memory holds =>
    dsimp only
    rcases Lease.editMemory_cases holds (Ledger.cancel? guard.key guard.token) w₁ with
      ⟨holds', -, hedit⟩ | ⟨-, hedit⟩
    all_goals
      rw [hedit]
      intro hfails
      cases hfails
  | shared =>
    dsimp only
    have hedit := Lease.editShared_of_sound hw₁.isSound (Ledger.cancel? guard.key guard.token)
    rw [show (Lease.editShared fun s => s.cancelLease guard.key guard.token) w₁ = _ from hedit]
    split
    all_goals
      intro hfails
      cases hfails

theorem refused {o : LockOptions} {n : Nat} (hw : w.IsQuiet) (h : Refused key o w n w') :
    w'.IsQuiet := by
  induction h with
  | none => exact hw
  | @more n v v' hbefore hcall ih =>
    have hafter := (ih.rested o (0 < n)).tryObtain key o.ttl
    rw [hcall] at hafter
    exact hafter

theorem obtain (hw : w.IsQuiet) (key : String) (o : LockOptions) :
    (Lease.obtain key o w).2.IsQuiet := by
  have hcalled := Lease.called_obtain key o w
  have hlast : ∀ {n v v' answer}, Refused key o w n v →
      Lease.tryObtain key o.ttl (Lease.rested o (0 < n) v) = (answer, v') → v'.IsQuiet := by
    intro n v v' answer hrefused hcall
    have hrested := (hw.refused hrefused).rested o (0 < n)
    have hafter := hrested.tryObtain key o.ttl
    rw [hcall] at hafter
    exact hafter
  generalize Lease.obtain key o w = outcome at hcalled
  cases hcalled with
  | takes hn hrefused hcall => exact hlast hrefused hcall
  | fails hn hrefused hcall => exact hlast hrefused hcall
  | refused hrefused => exact hw.refused hrefused

/-- Taking a lease does not fail but for want of it. -/
theorem obtain_ne_fault (hw : w.IsQuiet) (key : String) (o : LockOptions) (f : LeaseFault) :
    (Lease.obtain key o w).1 ≠ .error (.backend f) := by
  intro herror
  have hcalled := Lease.called_obtain key o w
  generalize Lease.obtain key o w = outcome at herror hcalled
  cases hcalled with
  | takes => cases herror
  | refused => cases herror
  | @fails n _ v _ hn hrefused hcall =>
    have hrested := (hw.refused hrefused).rested o (0 < n)
    exact hrested.tryObtain_ne_error key o.ttl _ (congrArg Prod.fst hcall)

/-- Work under a lease that keeps the world quiet. -/
theorem inLock {ε α : Type} {work : Bool → Action ε α} (hw : w.IsQuiet) (key : String)
    (o : LockOptions) (hwork : ∀ isRetry u, u.IsQuiet → (work isRetry u).2.IsQuiet) :
    (Lease.inLock key o work w).2.IsQuiet := by
  have hobtain := hw.obtain key o
  rcases Lease.inLock_cases key o work w with ⟨guard, isRetry, -, hworld⟩ | ⟨-, hworld⟩
  · rw [hworld]
    exact (hwork isRetry _ hobtain).cancel guard
  · rw [hworld]
    exact hobtain

/-- **A lease that is given back** is over, if it was still the guard's. -/
theorem lease?_release (hw : w.IsQuiet) {h : Hold Deadline} (hlease : w.lease? guard.key = some h)
    (htoken : h.token = guard.token) : (Lease.release guard w).lease? guard.key = none := by
  rcases Lease.lease?_release_of_token hlease htoken with hnone | ⟨f, herror⟩
  · exact hnone
  · exact absurd herror (hw.cancel_ne_error guard _)

end World.IsQuiet

end Leasehold
