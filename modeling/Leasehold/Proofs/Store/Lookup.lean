/-!
# Looking rows up after a change

Every table finds a row as the first one of its key, and changes the rows of a key in place. What
a look-up finds afterwards is then the changed row where it asks for that key, and the same as
before where it asks for another one. Nothing here needs keys to be unique.

* `Leasehold.Store.find?_map_ite` – rows that are changed;
* `Leasehold.Store.find?_append_singleton_self`, `Leasehold.Store.find?_append_singleton_of_not` –
  a row that is added;
* `Leasehold.Store.find?_filter_not`, `Leasehold.Store.find?_filter_of_imp` – rows that are
  removed.
-/

namespace Leasehold.Store

/-- **Looking a row up after some rows were changed**, when no change makes or hides a row of the
kind that is looked for. -/
theorem find?_map_ite {α : Type} {p : α → Bool} {q : α → Prop} [DecidablePred q] {f : α → α}
    (hf : ∀ a, q a → p (f a) = p a) (rows : List α) :
    (rows.map fun a => if q a then f a else a).find? p =
      (rows.find? p).map fun a => if q a then f a else a := by
  induction rows with
  | nil => rfl
  | cons a rows ih =>
    have hp : p (if q a then f a else a) = p a := by
      split
      · rename_i hq
        exact hf a hq
      · rfl
    rw [List.map_cons, List.find?_cons, List.find?_cons, hp]
    cases p a with
    | true => rfl
    | false => exact ih

section Table

variable {α : Type} {p r : α → Bool} {q : α → Prop} [DecidablePred q] {f : α → α}
  {rows : List α}

/-- All rows of the kind were changed. -/
theorem find?_map_ite_self (hf : ∀ a, q a → p (f a) = p a) (hpq : ∀ a, p a = true → q a) :
    (rows.map fun a => if q a then f a else a).find? p = (rows.find? p).map f := by
  rw [find?_map_ite hf]
  cases hr : rows.find? p with
  | none => rfl
  | some a => exact congrArg some (if_pos (hpq a (List.find?_some hr)))

/-- No row of the kind was changed. -/
theorem find?_map_ite_of_not (hf : ∀ a, q a → p (f a) = p a) (hpq : ∀ a, p a = true → ¬q a) :
    (rows.map fun a => if q a then f a else a).find? p = rows.find? p := by
  rw [find?_map_ite hf]
  cases hr : rows.find? p with
  | none => rfl
  | some a => exact congrArg some (if_neg (hpq a (List.find?_some hr)))

omit [DecidablePred q] in
/-- A row is added where there was none of the kind. -/
theorem find?_append_singleton_self {a : α} (h : rows.find? p = none) (ha : p a = true) :
    (rows ++ [a]).find? p = some a := by
  rw [List.find?_append, h, List.find?_singleton, ha]
  rfl

/-- A row of another kind is added. -/
theorem find?_append_singleton_of_not {a : α} (ha : p a = false) :
    (rows ++ [a]).find? p = rows.find? p := by
  rw [List.find?_append, List.find?_singleton, ha]
  exact Option.or_none

/-- The rows of the kind are removed. -/
theorem find?_filter_not (hpr : ∀ a, r a = true → p a = false) :
    (rows.filter r).find? p = none := by
  rw [List.find?_eq_none]
  intro a ha
  rw [hpr a (List.mem_filter.1 ha).2]
  exact Bool.false_ne_true

/-- Rows of other kinds are removed. -/
theorem find?_filter_of_imp (hpr : ∀ a, p a = true → r a = true) :
    (rows.filter r).find? p = rows.find? p := by
  rw [List.find?_filter]
  refine congrArg (List.find? · rows) (funext fun a => ?_)
  rw [Bool.eq_iff_iff]
  simp only [decide_eq_true_eq]
  exact ⟨fun ha => ha.2, fun ha => ⟨hpr a ha, ha⟩⟩

end Table

end Leasehold.Store
