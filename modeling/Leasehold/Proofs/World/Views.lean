import Leasehold.Proofs.World.Actions

/-!
# Actions and what they look at

A view of the world is a function of it. There are two things to know about an action and a view:
that the action **keeps** the view, so that whoever looks at no more than that does not notice it
(`Leasehold.Action.Keeps`); and that it **depends** on no more than the view, so that it answers
alike in worlds that look alike, and leaves worlds that look alike (`Leasehold.Action.AlikeOn`).
Both are settled part by part.

The second is stated of two actions, since an action may take along a piece of the world, such as
a whole ledger, of which it then uses one entry only.

What a call is given by the world around, and not by the calls before it, is its occasion
(`Leasehold.Occasion`): the clock, the faults that it will meet, and the tokens that are issued.
-/

namespace Leasehold

/-! ### Occasions -/

/-- **The occasion of a call**: the clock, and what the lease service meets with and gives out. -/
structure Occasion where
  /-- The clock. -/
  clock : Clock
  /-- For each kind of call on the lease service, which of the next ones fail. -/
  faults : LeaseCall → List Bool := fun _ => []
  /-- How much time passes when the attempt of that number finds a lease taken. -/
  contention : Nat → Span := fun _ => Span.zero
  /-- The number of attempts to take a lease that were made. -/
  tries : Nat := 0
  /-- The number of tokens that were issued. -/
  issued : Nat := 0

namespace World

/-- The occasion that a world gives. -/
def occasion (w : World) : Occasion :=
  ⟨w.clock, w.leases.faults, w.leases.contention, w.leases.tries, w.leases.issued⟩

/-- **The same tables and leases on another occasion.** -/
def meet (w : World) (o : Occasion) : World :=
  { w with
    clock := o.clock
    leases :=
      { w.leases with
        faults := o.faults, contention := o.contention, tries := o.tries, issued := o.issued } }

end World

namespace Action

variable {ε ε' α β σ : Type} {v : World → σ}

/-! ### Actions that a view does not show -/

/-- **An action keeps a view** of the world, whether it answers or fails. -/
def Keeps (v : World → σ) (a : Action ε α) : Prop := ∀ w, v (a w).2 = v w

theorem keeps_pure (x : α) : Keeps v (pure x : Action ε α) := fun _ => rfl

theorem keeps_throw (e : ε) : Keeps v (throw e : Action ε α) := fun _ => rfl

theorem Keeps.bind {a : Action ε α} {f : α → Action ε β} (ha : Keeps v a)
    (hf : ∀ x, Keeps v (f x)) : Keeps v (a >>= f) := by
  intro w
  have hw := ha w
  cases h : a w with
  | mk answer w' =>
    rw [h] at hw
    cases answer with
    | error e =>
      rw [bind_of_error h]
      exact hw
    | ok x =>
      rw [bind_of_ok h]
      exact (hf x w').trans hw

theorem Keeps.mapFault {a : Action ε α} (ha : Keeps v a) (f : ε → ε') :
    Keeps v (a.mapFault f) := by
  intro w
  rw [world_mapFault]
  exact ha w

/-- A call on the store that a view does not show. -/
theorem keeps_edit {f : Store → Except Store.Fault α × Store}
    (hf : ∀ w : World, v (w.withStore (f w.store).2) = v w) : Keeps v (edit f) := by
  intro w
  cases hw : w.database.isPoisoned with
  | true => rw [edit_of_poisoned hw]
  | false =>
    rw [edit_of_sound hw]
    exact hf w

theorem keeps_look (f : Store → Except Store.Fault α) : Keeps v (look f) := by
  intro w
  rw [look]
  split <;> rfl

/-! ### Actions that depend on a view only -/

/-- **Two actions are alike on a view**: in worlds that look alike they answer the same, and the
worlds that they leave look alike. -/
def AlikeOn (v : World → σ) (a b : Action ε α) : Prop :=
  ∀ w w', v w = v w' → (a w).1 = (b w').1 ∧ v (a w).2 = v (b w').2

theorem alikeOn_pure (x : α) : AlikeOn v (pure x : Action ε α) (pure x) := fun _ _ h => ⟨rfl, h⟩

theorem alikeOn_throw (e : ε) : AlikeOn v (throw e : Action ε α) (throw e) :=
  fun _ _ h => ⟨rfl, h⟩

theorem AlikeOn.bind {a b : Action ε α} {f g : α → Action ε β} (hab : AlikeOn v a b)
    (hfg : ∀ x, AlikeOn v (f x) (g x)) : AlikeOn v (a >>= f) (b >>= g) := by
  intro w w' hw
  obtain ⟨hanswer, hview⟩ := hab w w' hw
  cases ha : a w with
  | mk answer u =>
    cases hb : b w' with
    | mk answer' u' =>
      rw [ha, hb] at hanswer hview
      obtain rfl : answer = answer' := hanswer
      cases answer with
      | error e =>
        rw [bind_of_error ha, bind_of_error hb]
        exact ⟨rfl, hview⟩
      | ok x =>
        rw [bind_of_ok ha, bind_of_ok hb]
        exact hfg x u u' hview

theorem AlikeOn.mapFault {a b : Action ε α} (hab : AlikeOn v a b) (f : ε → ε') :
    AlikeOn v (a.mapFault f) (b.mapFault f) := by
  intro w w' hw
  obtain ⟨hanswer, hview⟩ := hab w w' hw
  rw [world_mapFault, world_mapFault]
  refine ⟨?_, hview⟩
  cases ha : a w with
  | mk answer u =>
    cases hb : b w' with
    | mk answer' u' =>
      rw [ha, hb] at hanswer
      obtain rfl : answer = answer' := hanswer
      cases answer with
      | error e => rw [mapFault_of_error ha, mapFault_of_error hb]
      | ok x => rw [mapFault_of_ok ha, mapFault_of_ok hb]

/-- **A call on the store depends on a view** that shows whether the database is poisoned, when what
it does to the store does. -/
theorem alikeOn_edit {f g : Store → Except Store.Fault α × Store}
    (hpoisoned : ∀ w w', v w = v w' → w.database.isPoisoned = w'.database.isPoisoned)
    (hfg : ∀ w w', v w = v w' → (f w.store).1 = (g w'.store).1 ∧
      v (w.withStore (f w.store).2) = v (w'.withStore (g w'.store).2)) :
    AlikeOn v (edit f) (edit g) := by
  intro w w' hw
  have hsame := hpoisoned w w' hw
  cases hp : w'.database.isPoisoned with
  | true =>
    rw [hp] at hsame
    rw [edit_of_poisoned hsame, edit_of_poisoned hp]
    exact ⟨rfl, hw⟩
  | false =>
    rw [hp] at hsame
    rw [edit_of_sound hsame, edit_of_sound hp]
    exact hfg w w' hw

theorem alikeOn_look {f g : Store → Except Store.Fault α}
    (hpoisoned : ∀ w w', v w = v w' → w.database.isPoisoned = w'.database.isPoisoned)
    (hfg : ∀ w w', v w = v w' → f w.store = g w'.store) : AlikeOn v (look f) (look g) := by
  intro w w' hw
  rw [look, look, hpoisoned w w' hw]
  split
  · exact ⟨rfl, hw⟩
  · exact ⟨hfg w w' hw, hw⟩

end Action

end Leasehold
