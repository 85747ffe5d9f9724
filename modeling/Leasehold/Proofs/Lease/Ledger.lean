import Leasehold.Lease.Ledger
import Leasehold.Proofs.Store.Lookup

/-!
# What a ledger says after a call

Taking, renewing and cancelling write or remove the entry of one key. What the ledger says of that
key afterwards, and that it says the same as before of every other key, is all that the proofs
about leases need to know about ledgers:

* `Leasehold.Ledger.take?_eq_some` – a key is taken only when its lease is not live;
* `Leasehold.Ledger.renew?_eq_some`, `Leasehold.Ledger.cancel?_eq_some` – a lease is renewed or
  cancelled only by its holder's token.
-/

namespace Leasehold.Ledger

variable {D : Type} {l l' : Ledger D} {key key' : String} {h : Hold D}

/-! ### Entries -/

theorem find?_put_self (key : String) (h : Hold D) (l : Ledger D) :
    (l.put key h).find? key = some h := by
  unfold put find?
  cases he : List.find? (fun e => e.1 = key) l with
  | none =>
    rw [Option.map_none, Option.isSome_none, if_neg Bool.false_ne_true]
    rw [Store.find?_append_singleton_self he (decide_eq_true rfl)]
    rfl
  | some e =>
    rw [Option.map_some, Option.isSome_some, if_pos rfl]
    rw [Store.find?_map_ite_self (fun e' he' => ?_) fun e' he' => of_decide_eq_true he', he]
    · rfl
    · rw [he']

theorem find?_put_of_ne (hk : key' ≠ key) (h : Hold D) (l : Ledger D) :
    (l.put key h).find? key' = l.find? key' := by
  unfold put find?
  split
  · rw [Store.find?_map_ite_of_not (fun e' he' => ?_) fun e' he' he'' => ?_]
    · rw [he']
    · exact hk ((of_decide_eq_true he').symm.trans he'')
  · refine congrArg _ (Store.find?_append_singleton_of_not ?_)
    exact decide_eq_false hk.symm

theorem find?_drop_self (key : String) (l : Ledger D) : (l.drop key).find? key = none := by
  unfold drop find?
  rw [Store.find?_filter_not fun e he => ?_]
  · rfl
  · simpa using he

theorem find?_drop_of_ne (hk : key' ≠ key) (l : Ledger D) :
    (l.drop key).find? key' = l.find? key' := by
  unfold drop find?
  rw [Store.find?_filter_of_imp fun e he => ?_]
  rw [decide_eq_true_eq] at he ⊢
  rw [he]
  exact hk

/-! ### Calls -/

theorem cancel?_eq_some {token : Token} (hl : l.cancel? key token = some l') :
    (∃ h, l.find? key = some h ∧ h.token = token) ∧ l'.find? key = none ∧
      ∀ key' ≠ key, l'.find? key' = l.find? key' := by
  rw [cancel?] at hl
  split at hl
  · rename_i h hh
    split at hl
    · rename_i htoken
      cases hl
      exact ⟨⟨h, hh, htoken⟩, find?_drop_self key l, fun key' hk => find?_drop_of_ne hk l⟩
    · cases hl
  · cases hl

variable [LT D] [DecidableLT D] {token : Token} {now expiry : D}

theorem live?_eq_some :
    l.live? key now = some h ↔ l.find? key = some h ∧ now < h.expiry := by
  rw [live?]
  rw [Option.filter_eq_some_iff, decide_eq_true_eq]

theorem take?_eq_some (hl : l.take? key token now expiry = some l') :
    (∀ h, l.find? key = some h → ¬now < h.expiry) ∧ l'.find? key = some ⟨token, expiry⟩ ∧
      ∀ key' ≠ key, l'.find? key' = l.find? key' := by
  rw [take?] at hl
  split at hl
  · cases hl
  · rename_i hlive
    cases hl
    refine ⟨fun h hh hnow => hlive ?_, find?_put_self _ _ _, fun key' hk => find?_put_of_ne hk _ _⟩
    rw [live?_eq_some.2 ⟨hh, hnow⟩]
    rfl

theorem renew?_eq_some (hl : l.renew? key token now expiry = some l') :
    (∃ h, l.find? key = some h ∧ h.token = token) ∧ l'.find? key = some ⟨token, expiry⟩ ∧
      ∀ key' ≠ key, l'.find? key' = l.find? key' := by
  rw [renew?] at hl
  split at hl
  · rename_i h hh
    split at hl
    · rename_i htoken
      cases hl
      exact ⟨⟨h, (live?_eq_some.1 hh).1, htoken⟩, find?_put_self _ _ _,
        fun key' hk => find?_put_of_ne hk _ _⟩
    · cases hl
  · cases hl

end Leasehold.Ledger
