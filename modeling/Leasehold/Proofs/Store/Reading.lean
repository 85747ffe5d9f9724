import Leasehold.Store.Basic

/-!
# Reading what the store keeps

A row is read by reading its columns, one after another, and fails with the first that cannot be
read; a time cannot be that is off the line (`Leasehold.Store.instant_eq_error`). Whatever was read
has its times in whole milliseconds (`Leasehold.Store.floor_of_instant?`), those of the row
(`Leasehold.Store.millis_of_instant`).
-/

namespace Leasehold.Store

/-- All rows can be read where each of them can. -/
theorem exists_mapM_eq_ok {ε α β : Type} {f : α → Except ε β} {as : List α}
    (h : ∀ a ∈ as, ∃ b, f a = .ok b) : ∃ bs, as.mapM f = .ok bs := by
  induction as with
  | nil => exact ⟨[], rfl⟩
  | cons a as ih =>
    obtain ⟨b, hb⟩ := h a List.mem_cons_self
    obtain ⟨bs, hbs⟩ := ih fun a' ha' => h a' (List.mem_cons_of_mem a ha')
    refine ⟨b :: bs, ?_⟩
    rw [List.mapM_cons, hb, hbs]
    rfl

/-- **Reading stops at the first one that cannot be read.** -/
theorem exists_of_mapM_eq_error {ε α β : Type} {f : α → Except ε β} {as : List α} {x : ε}
    (h : as.mapM f = .error x) :
    ∃ front a rest, as = front ++ a :: rest ∧ f a = .error x ∧ ∀ a' ∈ front, ∃ b, f a' = .ok b := by
  induction as with
  | nil => cases h
  | cons a as ih =>
    rw [List.mapM_cons] at h
    cases ha : f a with
    | error y =>
      rw [ha] at h
      cases h
      exact ⟨[], a, as, rfl, ha, List.forall_mem_nil _⟩
    | ok b =>
      rw [ha] at h
      cases has : as.mapM f with
      | error y =>
        rw [has] at h
        cases h
        obtain ⟨front, a', rest, rfl, ha', hfront⟩ := ih has
        exact ⟨a :: front, a', rest, rfl, ha', List.forall_mem_cons.2 ⟨⟨b, ha⟩, hfront⟩⟩
      | ok bs =>
        rw [has] at h
        cases h

/-- A part that was read, and what was made of it. -/
theorem exists_of_map_eq_ok {ε α β : Type} {f : α → β} {x : Except ε α} {b : β}
    (h : x.map f = .ok b) :
    ∃ a, x = .ok a ∧ f a = b := by
  cases x with
  | error e => cases h
  | ok a => exact ⟨a, rfl, Except.ok.inj h⟩

/-- Two parts that were read, one after the other. -/
theorem exists_of_bind_eq_ok {ε α β : Type} {x : Except ε α} {f : α → Except ε β} {b : β}
    (h : x >>= f = .ok b) :
    ∃ a, x = .ok a ∧ f a = .ok b := by
  cases x with
  | error e => cases h
  | ok a => exact ⟨a, rfl, h⟩

/-- A part that could not be read. -/
theorem of_map_eq_error {ε α β : Type} {f : α → β} {x : Except ε α} {e : ε}
    (h : x.map f = .error e) : x = .error e := by
  cases x with
  | error e' => exact congrArg Except.error (Except.error.inj h)
  | ok a => cases h

/-- Two parts of which one could not be read. -/
theorem of_bind_eq_error {ε α β : Type} {x : Except ε α} {f : α → Except ε β} {e : ε}
    (h : x >>= f = .error e) : x = .error e ∨ ∃ a, x = .ok a ∧ f a = .error e := by
  cases x with
  | error e' => exact .inl (congrArg Except.error (Except.error.inj h))
  | ok a => exact .inr ⟨a, rfl, h⟩

/-- **An instant that cannot be read** is off the line. -/
theorem instant_eq_error {ms : Int} {f : Fault} (h : instant ms = .error f) :
    f = .timeOffLine ms ∧ Instant.ofMillis? ms = none := by
  rw [instant] at h
  split at h
  · cases h
  · rename_i hnone
    cases h
    exact ⟨rfl, hnone⟩

theorem exists_of_instant?_eq_error {time : Option Int} {f : Fault}
    (h : instant? time = .error f) : ∃ ms, time = some ms ∧ instant ms = .error f := by
  cases time with
  | none => cases h
  | some ms => exact ⟨ms, rfl, of_map_eq_error h⟩

theorem millis_of_instant {ms : Int} {t : Instant} (h : instant ms = .ok t) : t.millis = ms := by
  rw [instant] at h
  split at h
  · rename_i t' ht
    cases h
    exact Instant.millis_ofMillis? ht
  · cases h

/-- **An instant that was read** is the first one of its millisecond. -/
theorem floor_of_instant {ms : Int} {t : Instant} (h : instant ms = .ok t) : t.floor = t := by
  have hread := instant_millis t
  rw [millis_of_instant h, h] at hread
  exact (Except.ok.inj hread).symm

theorem millis_of_instant? {ms : Option Int} {t : Option Instant} (h : instant? ms = .ok t) :
    t.map Instant.millis = ms := by
  cases ms with
  | none =>
    cases h
    rfl
  | some ms =>
    obtain ⟨t', ht, rfl⟩ := exists_of_map_eq_ok h
    exact congrArg some (millis_of_instant ht)

theorem floor_of_instant? {ms : Option Int} {t : Option Instant} (h : instant? ms = .ok t) :
    t.map Instant.floor = t := by
  cases ms with
  | none =>
    cases h
    rfl
  | some ms =>
    obtain ⟨t', ht, rfl⟩ := exists_of_map_eq_ok h
    exact congrArg some (floor_of_instant ht)

end Leasehold.Store
