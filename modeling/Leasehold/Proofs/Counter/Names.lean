import Leasehold.Proofs.Counter.Holdings
import Mathlib.Data.List.Infix

/-!
# Counters with one key

The key of a counter is put together from its two names, with a word between them. So the keys of
two counters are the same only when the word stands in one key at two places: once where one counter
has it, and once where the other has it (`Leasehold.CounterName.RunsInto`). That is all there is to
it (`Leasehold.CounterName.key_eq_iff`): the word ends with the only colon that it has beside the
one it begins with, so if the two places overlap they do so in that one colon.

A quantity without a colon runs into nothing (`Leasehold.CounterName.not_runsInto_of_colon`).
-/

namespace Leasehold

namespace CounterName

/-- The key of its lease. -/
def leaseKey (k : CounterName) : String := Counters.leaseKey k.record k.quantity

/-- **One counter runs into another**: what stands in the key of the other before its quantity goes
on from the key of the one. -/
def RunsInto (k k' : CounterName) : Prop :=
  ∃ between : String, k'.record ++ ":" = k.record ++ ":counters:" ++ between ∧
    k.quantity = between ++ "counters:" ++ k'.quantity

/-- **Neither of two counters runs into the other.** -/
def Apart (k k' : CounterName) : Prop := ¬k.RunsInto k' ∧ ¬k'.RunsInto k

variable {k k' : CounterName}

theorem leaseKey_inj : k.leaseKey = k'.leaseKey ↔ k.key = k'.key :=
  String.append_left_inj ":lock"

theorem RunsInto.key_eq (h : k.RunsInto k') : k.key = k'.key := by
  obtain ⟨between, hrecord, hquantity⟩ := h
  calc k.key = k.record ++ ":counters:" ++ (between ++ "counters:" ++ k'.quantity) :=
        congrArg _ hquantity
    _ = (k.record ++ ":counters:" ++ between) ++ "counters:" ++ k'.quantity := by
        simp only [String.append_assoc]
    _ = (k'.record ++ ":") ++ "counters:" ++ k'.quantity := by rw [hrecord]
    _ = k'.record ++ (":" ++ "counters:") ++ k'.quantity := by simp only [String.append_assoc]
    _ = k'.key := rfl

/-- A quantity without a colon runs into nothing. -/
theorem not_runsInto_of_colon (h : ':' ∉ k.quantity.toList) : ¬k.RunsInto k' := by
  rintro ⟨between, -, hquantity⟩
  rw [hquantity] at h
  simp at h

/-- In a word that ends with its only colon, a prefix that ends with a colon is the word. -/
theorem eq_of_colon_prefix {x y : List Char} (h : "counters:".toList = x ++ [':'] ++ y) :
    x ++ [':'] = "counters:".toList := by
  have hall : ∀ p ∈ "counters:".toList.inits, p.getLast? = some ':' → p = "counters:".toList := by
    decide
  exact hall _ (List.mem_inits _ _ |>.2 ⟨y, h.symm⟩) List.getLast?_concat

/-- When the record of the one begins with the record of the other. -/
theorem runsInto_of_append {x : List Char} (hrecord : k'.record.toList = k.record.toList ++ x)
    (hkey : ":counters:".toList ++ k.quantity.toList =
      x ++ (":counters:".toList ++ k'.quantity.toList)) :
    k = k' ∨ k.RunsInto k' := by
  -- The words that make up the two keys, as far as they are fixed.
  have hmark : ":counters:".toList = ':' :: "counters:".toList := rfl
  cases x with
  | nil =>
    rw [List.append_nil, String.toList_inj] at hrecord
    rw [List.nil_append, List.append_right_inj, String.toList_inj] at hkey
    left
    cases k
    cases k'
    rw [CounterName.mk.injEq]
    exact ⟨hrecord.symm, hkey⟩
  | cons colon x =>
    rw [hmark, List.cons_append, List.cons_append, List.cons.injEq] at hkey
    obtain ⟨rfl, hkey⟩ := hkey
    have hsplit : "counters:".toList ++ k.quantity.toList =
        (x ++ [':']) ++ ("counters:".toList ++ k'.quantity.toList) := by
      rw [hkey, List.cons_append, List.append_assoc, List.singleton_append]
    have hbetween : ∃ z, x ++ [':'] = "counters:".toList ++ z ∧
        k.quantity.toList = z ++ ("counters:".toList ++ k'.quantity.toList) := by
      rcases List.append_eq_append_iff.1 hsplit with hz | ⟨y, hword, hquantity⟩
      · exact hz
      · -- The word that goes on has no other colon, so nothing of it is left over.
        have hwhole := eq_of_colon_prefix hword
        rw [hwhole, List.self_eq_append_right] at hword
        subst hword
        exact ⟨[], by rw [hwhole, List.append_nil], hquantity.symm⟩
    obtain ⟨z, hx, hquantity⟩ := hbetween
    refine .inr ⟨.ofList z, ?_, ?_⟩
    · rw [← String.toList_inj]
      simp only [String.toList_append, String.toList_ofList, hrecord, hmark]
      rw [List.append_assoc, List.cons_append]
      change k.record.toList ++ ':' :: (x ++ [':']) = _
      rw [hx]
      simp only [List.cons_append, List.append_assoc]
    · rw [← String.toList_inj]
      simp only [String.toList_append, String.toList_ofList, hquantity, List.append_assoc]

/-- **Two counters have one key** just when they are the same, or one runs into the other. -/
theorem key_eq_iff : k.key = k'.key ↔ k = k' ∨ k.RunsInto k' ∨ k'.RunsInto k := by
  constructor
  · intro h
    have hchars := congrArg String.toList h
    simp only [key, Counters.bufferKey, String.toList_append, List.append_assoc] at hchars
    rcases List.append_eq_append_iff.1 hchars with ⟨x, hrecord, hkey⟩ | ⟨x, hrecord, hkey⟩
    · exact (runsInto_of_append hrecord hkey).imp_right .inl
    · exact (runsInto_of_append hrecord hkey).elim (fun h => .inl h.symm) fun h => .inr (.inr h)
  · rintro (rfl | h | h)
    · rfl
    · exact h.key_eq
    · exact h.key_eq.symm

end CounterName

end Leasehold
