import Leasehold.World

/-!
# Actions, one part after another

An action is a function on worlds, so what a sequence of actions does is told by what its first
part does, and the rest in the world that this leaves behind (`Leasehold.Action.bind_of_ok`,
`Leasehold.Action.bind_of_error`). A call on the store does nothing to the world but to its store,
and nothing at all when the database is poisoned (`Leasehold.Action.edit_of_sound`,
`Leasehold.Action.edit_of_poisoned`).
-/

namespace Leasehold.Action

variable {ε ε' α β : Type}

@[simp]
theorem pure_apply (x : α) (w : World) : (pure x : Action ε α) w = (.ok x, w) := rfl

@[simp]
theorem throw_apply (e : ε) (w : World) : (throw e : Action ε α) w = (.error e, w) := rfl

/-- **The first part of a sequence answers**: the rest goes on in the world that it leaves. -/
theorem bind_of_ok {a : Action ε α} {w w' : World} {x : α} (h : a w = (.ok x, w'))
    (f : α → Action ε β) : (a >>= f) w = f x w' := by
  change StateT.bind a (ExceptT.bindCont f) w = _
  rw [StateT.bind]
  rw [h]
  rfl

/-- **The first part of a sequence fails**: the rest is left out. -/
theorem bind_of_error {a : Action ε α} {w w' : World} {e : ε} (h : a w = (.error e, w'))
    (f : α → Action ε β) : (a >>= f) w = (.error e, w') := by
  change StateT.bind a (ExceptT.bindCont f) w = _
  rw [StateT.bind]
  rw [h]
  rfl

theorem mapFault_of_ok {a : Action ε α} {w w' : World} {x : α} (h : a w = (.ok x, w'))
    (f : ε → ε') : a.mapFault f w = (.ok x, w') := by
  rw [mapFault, h]

theorem mapFault_of_error {a : Action ε α} {w w' : World} {e : ε} (h : a w = (.error e, w'))
    (f : ε → ε') : a.mapFault f w = (.error (f e), w') := by
  rw [mapFault, h]

/-- Other words for a fault are no other world. -/
theorem world_mapFault (a : Action ε α) (f : ε → ε') (w : World) :
    (a.mapFault f w).2 = (a w).2 := by
  cases h : a w with
  | mk answer w' =>
    cases answer with
    | error e => rw [mapFault_of_error h]
    | ok x => rw [mapFault_of_ok h]

/-- A call on a database that is not poisoned. -/
theorem edit_of_sound {w : World} (hw : w.database.isPoisoned = false)
    (f : Store → Except Store.Fault α × Store) :
    edit f w = ((f w.store).1, w.withStore (f w.store).2) := by
  rw [edit]
  rw [hw]
  rfl

theorem edit_of_poisoned {w : World} (hw : w.database.isPoisoned = true)
    (f : Store → Except Store.Fault α × Store) : edit f w = (.error .poisoned, w) := by
  rw [edit]
  rw [hw]
  rfl

end Leasehold.Action
