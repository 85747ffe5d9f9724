import Leasehold.Aggregation.Worker
import Leasehold.Proofs.Store.Numbering
import Mathlib.Data.List.Pairwise

/-!
# Whose turn it is

The aggregations that are due have their turns in a fixed order: those that never ran first, then
those that ran longest ago, and by number among equals. Numbers are unique, so no two aggregations
can change places: the order of what else is due after one of them was gone through is the same
order without it (`Leasehold.Store.dueInOrder_of_dueElsewhere`). That is why it makes no
difference how many aggregations a worker takes at a time.
-/

namespace Leasehold.Store

variable {s s' : Store} {m : Mode} {cutoff : Int}

/-! ### The order of turns -/

theorem AggregationRow.noLater_trans (m : Mode) (a b c : AggregationRow)
    (hab : a.noLater m b = true) (hbc : b.noLater m c = true) : a.noLater m c = true := by
  unfold noLater at *
  cases ha : a.lastRun.get m <;> cases hb : b.lastRun.get m <;> cases hc : c.lastRun.get m <;>
    simp_all <;> omega

theorem AggregationRow.noLater_total (m : Mode) (a b : AggregationRow) :
    (a.noLater m b || b.noLater m a) = true := by
  unfold noLater
  cases ha : a.lastRun.get m <;> cases hb : b.lastRun.get m <;> simp <;> omega

/-- Only rows of one number could change places. -/
theorem AggregationRow.id_eq_of_noLater {a b : AggregationRow} (hab : a.noLater m b = true)
    (hba : b.noLater m a = true) : a.id = b.id := by
  unfold noLater at *
  cases ha : a.lastRun.get m <;> cases hb : b.lastRun.get m <;> simp_all <;> omega

theorem dueInOrder_perm (s : Store) (m : Mode) (cutoff : Int) :
    (s.dueInOrder m cutoff).Perm (s.due m cutoff) :=
  List.mergeSort_perm _ _

theorem mem_dueInOrder {r : AggregationRow} :
    r ∈ s.dueInOrder m cutoff ↔ r ∈ s.aggregations ∧ r.isDue m cutoff = true := by
  rw [(s.dueInOrder_perm m cutoff).mem_iff]
  exact List.mem_filter

theorem pairwise_dueInOrder (s : Store) (m : Mode) (cutoff : Int) :
    (s.dueInOrder m cutoff).Pairwise fun a b => a.noLater m b = true :=
  List.pairwise_mergeSort (AggregationRow.noLater_trans m) (AggregationRow.noLater_total m) _

/-- No two rows that are due have the same number. -/
theorem id_ne_dueInOrder (hs : s.aggregations.Pairwise fun a b => a.id ≠ b.id) (m : Mode)
    (cutoff : Int) : (s.dueInOrder m cutoff).Pairwise fun a b => a.id ≠ b.id :=
  (s.dueInOrder_perm m cutoff).symm.pairwise (hs.filter _) fun h => h.symm

/-- **There is one order of turns**: rows that are those due, in an order that none of them objects
to, are in their order. -/
theorem dueInOrder_eq {rows : List AggregationRow} (hperm : (s.due m cutoff).Perm rows)
    (hne : rows.Pairwise fun a b => a.id ≠ b.id)
    (hsorted : rows.Pairwise fun a b => a.noLater m b = true) : s.dueInOrder m cutoff = rows := by
  have hrows := (s.dueInOrder_perm m cutoff).trans hperm
  refine hrows.eq_of_pairwise ?_ (s.pairwise_dueInOrder m cutoff) hsorted
  intro a b ha hb hab hba
  exact AggregationRow.eq_of_id_eq hne (hrows.subset ha) hb
    (AggregationRow.id_eq_of_noLater hab hba)

/-- **The order of what else is due** is the order of what was due, without the first. -/
theorem dueInOrder_of_dueElsewhere (hs : s.aggregations.Pairwise fun a b => a.id ≠ b.id)
    {r : AggregationRow} {rest : List AggregationRow} (hr : s.dueInOrder m cutoff = r :: rest)
    (hs' : s'.due m cutoff = s.dueElsewhere m cutoff r.id) :
    s'.dueInOrder m cutoff = rest := by
  have hne := s.id_ne_dueInOrder hs m cutoff
  have hsorted := s.pairwise_dueInOrder m cutoff
  have hperm := (s.dueInOrder_perm m cutoff).filter (·.id ≠ r.id)
  rw [hr] at hne hsorted hperm
  have hrest : (r :: rest).filter (·.id ≠ r.id) = rest := by
    rw [List.filter_cons_of_neg (by simp), List.filter_eq_self]
    intro b hb
    simpa using ((List.pairwise_cons.1 hne).1 b hb).symm
  rw [hrest] at hperm
  exact dueInOrder_eq (hs' ▸ hperm.symm) (List.pairwise_cons.1 hne).2
    (List.pairwise_cons.1 hsorted).2

end Leasehold.Store
