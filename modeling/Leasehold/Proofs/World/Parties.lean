import Leasehold.World
import Mathlib.Logic.Function.Basic

/-!
# Parties in one world

Several parties act in one world at once. Each is in a phase of its own; when one of them goes on,
its phase changes and the world with it, and all others stay where they are.

* `Leasehold.Parties` – the parties and the world they share;
* `Leasehold.Parties.put` – one of them goes on.
-/

namespace Leasehold

/-- **Parties** in one world. -/
structure Parties (ι Phase : Type) where
  /-- The world they share. -/
  world : World
  /-- Where each of them is. -/
  phase : ι → Phase

namespace Parties

variable {ι Phase : Type} [DecidableEq ι] {c : Parties ι Phase} {i : ι} {p : Phase} {w : World}

/-- A party goes on, and the world with it. -/
def put (c : Parties ι Phase) (i : ι) (p : Phase) (w : World) : Parties ι Phase :=
  ⟨w, Function.update c.phase i p⟩

theorem phase_put (c : Parties ι Phase) (i : ι) (p : Phase) (w : World) (j : ι) :
    (c.put i p w).phase j = if j = i then p else c.phase j := Function.update_apply _ _ _ _

theorem phase_put_self (c : Parties ι Phase) (i : ι) (p : Phase) (w : World) :
    (c.put i p w).phase i = p := Function.update_self _ _ _

theorem phase_put_of_ne {j : ι} (hj : j ≠ i) : (c.put i p w).phase j = c.phase j :=
  Function.update_of_ne hj _ _

/-- What holds of a party that goes on, and of all others, holds of every party. -/
theorem forall_put {P : ι → Phase → Prop} (hi : P i p) (hothers : ∀ j ≠ i, P j (c.phase j))
    (j : ι) : P j ((c.put i p w).phase j) := by
  rw [phase_put]
  split
  · rename_i h
    rw [h]
    exact hi
  · rename_i h
    exact hothers j h

theorem put_put (c : Parties ι Phase) (i : ι) (p p' : Phase) (w w' : World) :
    (c.put i p w).put i p' w' = c.put i p' w' := by
  rw [put, put, put, Function.update_idem]

theorem put_self (hi : c.phase i = p) (w : World) : c.put i p w = { c with world := w } := by
  rw [put, ← hi, Function.update_eq_self]

end Parties

end Leasehold
