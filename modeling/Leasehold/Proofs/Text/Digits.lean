import Leasehold.Text.Digits
import Mathlib.Data.List.TakeWhile

/-!
# The digits of a number

A number is printed in base ten. Its digits have its value
(`Leasehold.Text.ofDigits_toDigits`), and none of them is a zero in front of others
(`Leasehold.Text.eq_nil_of_toDigits`).
-/

namespace Leasehold.Text

theorem spanDigits_of_all {ds : List Char} (hds : ∀ c ∈ ds, isDigit c = true) :
    spanDigits ds = (ds, []) := by
  rw [spanDigits, List.takeWhile_eq_self_iff.2 hds, List.dropWhile_eq_nil_iff.2 hds]

theorem toList_toString (n : Nat) : (toString n).toList = Nat.toDigits 10 n := by
  rw [Nat.toString_eq_repr, Nat.toList_repr]

theorem isDigit_of_mem_toDigits {n : Nat} {c : Char} (hc : c ∈ Nat.toDigits 10 n) :
    isDigit c = true :=
  Nat.isDigit_of_mem_toDigits (by decide) (by decide) hc

/-- **The digits of a number** have its value. -/
theorem ofDigits_toDigits (n : Nat) : ofDigits (Nat.toDigits 10 n) = n := by
  have hfold : ofDigits (Nat.toDigits 10 n) = Nat.ofDigitChars 10 (Nat.toDigits 10 n) 0 :=
    Nat.ofDigitChars_eq_foldl.symm
  rw [hfold, Nat.ofDigitChars_toDigits (by decide) (by decide)]

/-- The digits of a number start with a zero only where that is all of them. -/
theorem eq_nil_of_toDigits {n : Nat} {ds : List Char} (h : Nat.toDigits 10 n = '0' :: ds) :
    ds = [] := by
  induction n using Nat.strongRecOn generalizing ds with
  | ind n ih =>
    by_cases hn : n < 10
    · rw [Nat.toDigits_of_lt_base hn] at h
      exact (List.cons.inj h).2.symm
    · rw [Nat.toDigits_of_base_le (by decide) (Nat.not_lt.1 hn)] at h
      cases hrest : Nat.toDigits 10 (n / 10) with
      | nil => exact absurd hrest Nat.toDigits_ne_nil
      | cons d ds' =>
        rw [hrest] at h
        obtain ⟨rfl, -⟩ := List.cons.inj h
        -- The digits before the last one are a zero, but their number is none.
        obtain rfl := ih (n / 10) (by omega) hrest
        have hzero := ofDigits_toDigits (n / 10)
        rw [hrest] at hzero
        have : (0 : Nat) = n / 10 := hzero
        omega

end Leasehold.Text
