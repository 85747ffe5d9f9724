import Leasehold.Proofs.Store.Lookup
import Leasehold.Store.Counters

/-!
# The rows of counters after a call

What looking up the buffers of a counter, or its value, finds after something was added to them or
taken from them: the row as the call has left it, and for another counter the row as it was.
-/

namespace Leasehold.Store

variable {s : Store} {key key' : String} {f : BufferRow → BufferRow}

theorem buffer?_changeBuffer (hf : ∀ r, (f r).key = r.key) :
    (s.changeBuffer key f).buffer? key = (s.buffer? key).map f :=
  find?_map_ite_self (fun r _ => by rw [hf r]) fun _ h => of_decide_eq_true h

theorem buffer?_changeBuffer_of_ne (hf : ∀ r, (f r).key = r.key) (h : key' ≠ key) :
    (s.changeBuffer key f).buffer? key' = s.buffer? key' :=
  find?_map_ite_of_not (fun r _ => by rw [hf r]) fun _ hr hr' =>
    h ((of_decide_eq_true hr).symm.trans hr')

/-- An increment of a counter without buffers makes them. -/
theorem buffer?_addPending (s : Store) (key : String) (n : Int) :
    (s.addPending key n).buffer? key =
      some (((s.buffer? key).map fun r => { r with pending := r.pending.sum (.integer n) }).getD
        { key, pending := .integer n }) := by
  rw [addPending]
  cases hr : s.buffer? key with
  | none => exact find?_append_singleton_self hr (decide_eq_true rfl)
  | some r =>
    refine (buffer?_changeBuffer ?_).trans ?_
    · intro r
      rfl
    · rw [hr]
      rfl

theorem buffer?_addPending_of_ne (n : Int) (h : key' ≠ key) :
    (s.addPending key n).buffer? key' = s.buffer? key' := by
  rw [addPending]
  split
  · refine buffer?_changeBuffer_of_ne ?_ h
    intro r
    rfl
  · exact find?_append_singleton_of_not (decide_eq_false h.symm)

theorem buffer?_removed (s : Store) (key : String) :
    ({ s with buffers := s.buffers.filter (·.key ≠ key) } : Store).buffer? key = none := by
  refine find?_filter_not fun r hr => ?_
  simpa using hr

theorem buffer?_removed_of_ne (h : key' ≠ key) :
    ({ s with buffers := s.buffers.filter (·.key ≠ key) } : Store).buffer? key' =
      s.buffer? key' := by
  refine find?_filter_of_imp fun r hr => ?_
  rw [decide_eq_true_eq] at hr ⊢
  rw [hr]
  exact h

variable {record record' quantity quantity' : String}

theorem buffers_addToCounter (s : Store) (record quantity : String) (n : Int) :
    (s.addToCounter record quantity n).buffers = s.buffers := by
  rw [addToCounter]
  split <;> rfl

theorem counters_addPending (s : Store) (key : String) (n : Int) :
    (s.addPending key n).counters = s.counters := by
  rw [addPending]
  split <;> rfl

/-- A counter without a value gets one by what is added. -/
theorem counter?_addToCounter (s : Store) (record quantity : String) (n : Int) :
    (s.addToCounter record quantity n).counter? record quantity =
      some (((s.counter? record quantity).map fun r =>
        { r with value := r.value.sum (.integer n) }).getD ⟨record, quantity, .integer n⟩) := by
  rw [addToCounter]
  cases hr : s.counter? record quantity with
  | none => exact find?_append_singleton_self hr (by simp)
  | some r =>
    refine (find?_map_ite_self ?_ ?_).trans ?_
    · intro r _
      rfl
    · intro r h
      simpa using h
    · rw [show s.counters.find? _ = some r from hr]
      rfl

theorem counter?_addToCounter_of_ne (n : Int)
    (h : (record', quantity') ≠ (record, quantity)) :
    (s.addToCounter record quantity n).counter? record' quantity' =
      s.counter? record' quantity' := by
  have hne : ∀ r : CounterRow, (r.record = record' && r.quantity = quantity') = true →
      ¬(r.record = record ∧ r.quantity = quantity) := by
    intro r hr hr'
    obtain ⟨rfl, rfl⟩ := hr'
    rw [Bool.and_eq_true, decide_eq_true_eq, decide_eq_true_eq] at hr
    exact h (Prod.ext hr.1.symm hr.2.symm)
  rw [addToCounter]
  split
  · exact find?_map_ite_of_not (fun r _ => rfl) hne
  · refine find?_append_singleton_of_not ?_
    rw [Bool.eq_false_iff]
    exact fun hr => hne _ hr ⟨rfl, rfl⟩

/-! ### What else is in the store -/

theorem leases_addPending (s : Store) (key : String) (n : Int) :
    (s.addPending key n).leases = s.leases := by
  rw [addPending]
  split <;> rfl

theorem leases_stealIncrements (s : Store) (key : String) :
    (s.stealIncrements key).2.leases = s.leases := by
  unfold stealIncrements
  simp only
  split
  · rfl
  · split <;> rfl

theorem counters_stealIncrements (s : Store) (key : String) :
    (s.stealIncrements key).2.counters = s.counters := by
  unfold stealIncrements
  simp only
  split
  · rfl
  · split <;> rfl

theorem leases_commitFlushed (s : Store) (record quantity key : String) :
    (s.commitFlushed record quantity key).2.leases = s.leases := by
  have hadd : ∀ n, (s.addToCounter record quantity n).leases = s.leases := by
    intro n
    rw [addToCounter]
    split <;> rfl
  rw [commitFlushed]
  split
  · rfl
  · rfl
  · dsimp only
    split
    · rfl
    · exact hadd _

end Leasehold.Store
