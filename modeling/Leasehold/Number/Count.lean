/-!
# Counts in 32 bits

A count takes a word of 32 bits without sign. It is kept as an integer, which may turn out to be
none that a word can hold, and sums of counts are taken in the word: one more than the greatest
count is zero.

* `Leasehold.Count` – a count;
* `Leasehold.Count.ofInt?` – reading one.

A count is read back from its integer, and nothing else is read as a count
(`Leasehold.Count.ofInt?_eq_some_iff`). Adding one loses nothing before the greatest count
(`Leasehold.Count.val_add_one`).
-/

namespace Leasehold

/-- **A count.** -/
abbrev Count := Fin 4294967296

namespace Count

/-- A number as a count, by what a word can hold of it. -/
instance : Coe Nat Count := ⟨Fin.ofNat 4294967296⟩

instance (n : Nat) : OfNat Count n := ⟨n⟩

instance : Min Count := minOfLe

/-- The count that an integer is, if it is one. -/
def ofInt? (n : Int) : Option Count :=
  if 0 ≤ n ∧ n ≤ 4294967295 then some (n.toNat : Count) else none

theorem ofInt?_eq_some_iff {n : Int} {c : Count} : ofInt? n = some c ↔ n = c.val := by
  have hlt := c.isLt
  unfold ofInt?
  constructor
  · intro h
    split at h
    · rw [← Option.some.inj h, Fin.val_ofNat]
      omega
    · cases h
  · rintro rfl
    rw [if_pos (by omega)]
    refine congrArg some (Fin.ext ?_)
    rw [Fin.val_ofNat]
    omega

theorem ofInt?_eq_none_iff {n : Int} : ofInt? n = none ↔ ¬(0 ≤ n ∧ n < 4294967296) := by
  unfold ofInt?
  split
  · simp
    omega
  · simp
    omega

@[simp]
theorem ofInt?_val (c : Count) : ofInt? c.val = some c := ofInt?_eq_some_iff.2 rfl

theorem val_add_one (c : Count) :
    (c + 1).val = if c.val = 4294967295 then 0 else c.val + 1 := by
  have hlt := c.isLt
  rw [Fin.val_add, show (1 : Count).val = 1 from rfl]
  split <;> omega

theorem val_min (a b : Count) : (min a b).val = min a.val b.val := by
  change (if a.val ≤ b.val then a else b).val = _
  split
  · exact (Nat.min_eq_left ‹_›).symm
  · exact (Nat.min_eq_right (Nat.le_of_not_le ‹_›)).symm

end Count

end Leasehold
