import Leasehold.Aggregation.Step
import Leasehold.Proofs.Store.Numbering
import Leasehold.Proofs.Store.Reading
import Mathlib.Algebra.BigOperators.Group.List.Basic
import Mathlib.Algebra.Ring.Int.Defs
import Mathlib.Data.List.Pairwise

/-!
# What a page of events adds to a total

An aggregation that has folded every event of its target up to some place, each once, goes on
from there page by page. This file says what “up to some place” means for the tables
(`Leasehold.Store.FoldsTo`) and that a page keeps it: the total moves to the place of the page's
last event, and it is again the sum of everything up to there.

The argument is about one sorted list. The rows after the cursor, in cursor order, are the page
followed by what the page leaves for later. The last row of the page comes no earlier than any row
of the page and strictly before the rows left for later, since no two rows have the same number –
also when many of them share a millisecond. So the rows up to the new place are the rows up to the
old one and the page (`Leasehold.Store.rowsUpTo_perm`), nothing left out and nothing twice.
-/

namespace Leasehold

namespace Store

variable {s : Store} {target : Int} {cursor : Option Cursor}

/-! ### The order of events -/

theorem EventRow.noLater_iff {a b : EventRow} :
    a.noLater b = true ↔ a.millis < b.millis ∨ a.millis = b.millis ∧ a.id ≤ b.id := by
  simp [noLater]

theorem EventRow.noLater_refl (a : EventRow) : a.noLater a = true := by
  simp [noLater]

theorem EventRow.noLater_trans {a b c : EventRow} (hab : a.noLater b = true)
    (hbc : b.noLater c = true) : a.noLater c = true := by
  rw [noLater_iff] at *
  omega

theorem EventRow.noLater_total (a b : EventRow) : (a.noLater b || b.noLater a) = true := by
  rw [Bool.or_eq_true, noLater_iff, noLater_iff]
  omega

theorem EventRow.id_eq_of_noLater {a b : EventRow} (hab : a.noLater b = true)
    (hba : b.noLater a = true) : a.id = b.id := by
  rw [noLater_iff] at *
  omega

/-! ### Events as they are read -/

theorem EventRow.read_eq_ok {r : EventRow} {e : Event} (h : r.read = .ok e) :
    e.time.millis = r.millis ∧ e.id = r.id ∧ e.value = r.value := by
  obtain ⟨t, ht, rfl⟩ := exists_of_map_eq_ok h
  exact ⟨millis_of_instant ht, rfl, rfl⟩

/-- **The cursor order of events** is that of their rows. -/
theorem before_iff {r r' : EventRow} {x y : Event} (hx : r.read = .ok x) (hy : r'.read = .ok y) :
    x.cursor.before y.cursor = true ↔
      r.millis < r'.millis ∨ r.millis = r'.millis ∧ r.id < r'.id := by
  obtain ⟨t, ht, rfl⟩ := exists_of_map_eq_ok hx
  obtain ⟨u, hu, rfl⟩ := exists_of_map_eq_ok hy
  have htn : t.nanos = r.millis * 1000000 := by
    rw [← millis_of_instant ht]
    exact (congrArg Instant.nanos (floor_of_instant ht)).symm
  have hun : u.nanos = r'.millis * 1000000 := by
    rw [← millis_of_instant hu]
    exact (congrArg Instant.nanos (floor_of_instant hu)).symm
  change (t < u || (t = u && r.id < r'.id)) = true ↔ _
  simp only [Bool.or_eq_true, Bool.and_eq_true, decide_eq_true_eq, Instant.lt_def,
    Instant.ext_iff, htn, hun]
  omega

theorem forall₂_of_mapM_ok {α β ε : Type} {f : α → Except ε β} {as : List α} {bs : List β}
    (h : as.mapM f = .ok bs) : List.Forall₂ (fun a b => f a = .ok b) as bs := by
  induction as generalizing bs with
  | nil =>
    cases h
    exact .nil
  | cons a as ih =>
    rw [List.mapM_cons] at h
    cases ha : f a with
    | error e =>
      rw [ha] at h
      cases h
    | ok b =>
      rw [ha] at h
      cases has : as.mapM f with
      | error e =>
        rw [has] at h
        cases h
      | ok bs' =>
        rw [has] at h
        cases h
        exact .cons ha (ih has)

/-- Each of the rows that were read can be read. -/
theorem exists_of_forall₂ {ε α β : Type} {f : α → Except ε β} {as : List α} {bs : List β}
    (h : List.Forall₂ (fun a b => f a = .ok b) as bs) : ∀ a ∈ as, ∃ b, f a = .ok b := by
  induction h with
  | nil => exact List.forall_mem_nil _
  | cons hab _ ih => exact List.forall_mem_cons.2 ⟨⟨_, hab⟩, ih⟩

section Page

variable {rows : List EventRow} {es : List Event}

theorem sum_value_of_read (h : List.Forall₂ (fun r e => EventRow.read r = .ok e) rows es) :
    (es.map Event.value).sum = (rows.map EventRow.value).sum := by
  induction h with
  | nil => rfl
  | cons hr _ ih => rw [List.map_cons, List.map_cons, List.sum_cons, List.sum_cons, ih,
      (EventRow.read_eq_ok hr).2.2]

theorem getLast?_of_read (h : List.Forall₂ (fun r e => EventRow.read r = .ok e) rows es)
    {e : Event} (he : es.getLast? = some e) :
    ∃ p, rows.getLast? = some p ∧ p.read = .ok e := by
  induction h with
  | nil => cases he
  | @cons r e' rows es hr hrs ih =>
    cases hrs with
    | nil =>
      cases he
      exact ⟨r, rfl, hr⟩
    | cons hr' hrs' =>
      rw [List.getLast?_cons_cons] at he ⊢
      exact ih he

end Page

/-! ### The rows up to a place -/

/-- The rows of a target up to a cursor, the one at the cursor included. -/
def rowsUpTo (s : Store) (target : Int) (cursor : Option Cursor) : List EventRow :=
  s.events.filter fun r => r.target = target && !r.isAfter cursor

@[simp] theorem rowsUpTo_none (s : Store) (target : Int) : s.rowsUpTo target none = [] := by
  simp [rowsUpTo, EventRow.isAfter]

/-- What comes after the cursor of an event is what does not come up to its row. -/
theorem isAfter_cursor {p r : EventRow} {e : Event} (he : p.read = .ok e) :
    r.isAfter (some e.cursor) = !r.noLater p := by
  obtain ⟨ht, hid, -⟩ := EventRow.read_eq_ok he
  rw [Bool.eq_iff_iff, Bool.not_eq_true', Bool.eq_false_iff, ne_eq, EventRow.noLater_iff]
  simp only [EventRow.isAfter, Event.cursor, ht, hid, Bool.or_eq_true, Bool.and_eq_true,
    decide_eq_true_eq]
  omega

theorem limited_prefix_rows {α : Type} (limit : Nat) (rows : List α) :
    limited limit rows <+: rows := by
  rw [limited]
  split
  · exact List.take_prefix _ _
  · exact List.prefix_rfl

/-- The rows of the next page, in cursor order. -/
def pageRows (s : Store) (target : Int) (cursor : Option Cursor) (limit : Nat) : List EventRow :=
  limited limit ((s.rowsAfter target cursor).mergeSort EventRow.noLater)

theorem pageRows_subset {limit : Nat} {r : EventRow} (h : r ∈ s.pageRows target cursor limit) :
    r ∈ s.events ∧ r.target = target ∧ r.isAfter cursor = true := by
  have hr := List.mem_mergeSort.1 ((limited_prefix_rows _ _).subset h)
  simpa [rowsAfter] using hr

theorem pairwise_noLater (rows : List EventRow) :
    (rows.mergeSort EventRow.noLater).Pairwise fun a b => a.noLater b = true :=
  List.pairwise_mergeSort (fun a b c => @EventRow.noLater_trans a b c) EventRow.noLater_total rows

/-- **The last of some rows in their order** comes no earlier than any of them. -/
theorem noLater_getLast {rows : List EventRow} {p : EventRow}
    (hsorted : rows.Pairwise fun a b => a.noLater b = true) (hp : rows.getLast? = some p) :
    ∀ r ∈ rows, r.noLater p = true := by
  obtain ⟨front, rfl⟩ := List.getLast?_eq_some_iff.1 hp
  intro r hr
  rcases List.mem_append.1 hr with hfront | hlast
  · exact (List.pairwise_append.1 hsorted).2.2 r hfront p List.mem_cons_self
  · rw [List.mem_singleton.1 hlast]
    exact EventRow.noLater_refl p

/-- **The last row of a page cuts the rows after the cursor where the page ends**: those of the page
come no later, and those that it leaves come later. -/
theorem noLater_iff_mem_page (hs : s.events.Pairwise fun a b => a.id ≠ b.id) {limit : Nat}
    {p : EventRow} {rest : List EventRow} (hp : (s.pageRows target cursor limit).getLast? = some p)
    (hrest : s.pageRows target cursor limit ++ rest =
      (s.rowsAfter target cursor).mergeSort EventRow.noLater) :
    (∀ r ∈ s.pageRows target cursor limit, r.noLater p = true) ∧
      ∀ r ∈ rest, ¬r.noLater p = true := by
  have hsorted := pairwise_noLater (s.rowsAfter target cursor)
  have hne : ((s.rowsAfter target cursor).mergeSort EventRow.noLater).Pairwise
      fun a b => a.id ≠ b.id :=
    (List.mergeSort_perm _ _).symm.pairwise (hs.filter _) fun h => h.symm
  rw [← hrest] at hsorted hne
  obtain ⟨hpage, -, hcross⟩ := List.pairwise_append.1 hsorted
  refine ⟨noLater_getLast hpage hp, fun r hr hrp => ?_⟩
  have hmem := List.mem_of_getLast? hp
  have hpr := hcross p hmem r hr
  exact (List.pairwise_append.1 hne).2.2 p hmem r hr (EventRow.id_eq_of_noLater hpr hrp)

/-- The rows up to the last one of a page are those of the page. -/
theorem filter_noLater_sorted (hs : s.events.Pairwise fun a b => a.id ≠ b.id) {limit : Nat}
    {p : EventRow} (hp : (s.pageRows target cursor limit).getLast? = some p) :
    ((s.rowsAfter target cursor).mergeSort EventRow.noLater).filter (·.noLater p) =
      s.pageRows target cursor limit := by
  obtain ⟨rest, hrest⟩ :=
    limited_prefix_rows limit ((s.rowsAfter target cursor).mergeSort EventRow.noLater)
  obtain ⟨hpage, hlater⟩ := noLater_iff_mem_page hs hp hrest
  rw [← hrest, List.filter_append, List.filter_eq_nil_iff.2 hlater, List.append_nil]
  exact List.filter_eq_self.2 hpage

/-- **A page adds its rows**: the rows up to its last event are those up to the cursor, and the
page. -/
theorem rowsUpTo_perm (hs : s.Numbered) {limit : Nat} {p : EventRow} {e : Event}
    (hp : (s.pageRows target cursor limit).getLast? = some p) (he : p.read = .ok e) :
    (s.rowsUpTo target (some e.cursor)).Perm
      (s.rowsUpTo target cursor ++ s.pageRows target cursor limit) := by
  have hpm := pageRows_subset (List.mem_of_getLast? hp)
  have hsplit : (s.rowsUpTo target cursor ++ s.rowsAfter target cursor).Perm
      (s.events.filter fun r => r.target = target) := by
    have h := List.filter_append_perm (fun r : EventRow => !r.isAfter cursor)
      (s.events.filter fun r => r.target = target)
    simpa [List.filter_filter, rowsUpTo, rowsAfter, Bool.and_comm] using h
  have hcut := hsplit.filter (·.noLater p)
  rw [List.filter_append, List.filter_filter] at hcut
  -- Rows up to the cursor come before every row after it, in particular before `p`.
  have hold : (s.rowsUpTo target cursor).filter (·.noLater p) = s.rowsUpTo target cursor := by
    refine List.filter_eq_self.2 fun r hr => ?_
    have hr := (List.mem_filter.1 hr).2
    cases cursor with
    | none => simp [EventRow.isAfter] at hr
    | some c =>
      have hp' := hpm.2.2
      simp only [EventRow.isAfter, Bool.or_eq_true, Bool.and_eq_true, decide_eq_true_eq,
        Bool.not_eq_true', Bool.eq_false_iff, ne_eq] at hr hp'
      rw [EventRow.noLater_iff]
      omega
  have hnew : ((s.rowsAfter target cursor).filter (·.noLater p)).Perm
      (s.pageRows target cursor limit) := by
    rw [← filter_noLater_sorted hs.event_ne hp]
    exact ((List.mergeSort_perm _ _).filter _).symm
  have hrows : s.rowsUpTo target (some e.cursor) =
      s.events.filter fun r => r.noLater p && decide (r.target = target) := by
    refine List.filter_congr fun r _ => ?_
    rw [isAfter_cursor he, Bool.not_not, Bool.and_comm]
  rw [hrows]
  rw [hold] at hcut
  exact hcut.symm.trans (hnew.append_left _)

/-! ### Totals up to a place -/

/-- **What folding a target's events up to a place comes to**: nothing at no place, and at the
place of an event the sum and the number of all events of the target up to it, that one
included. -/
def FoldsTo (s : Store) (target : Int) (time event : Option Int) (total processed : Int) : Prop :=
  time = none ∧ event = none ∧ total = 0 ∧ processed = 0 ∨
    ∃ e ∈ s.events, e.target = target ∧ time = some e.millis ∧ event = some e.id ∧
      total = ((s.events.filter fun r => r.target = target && r.noLater e).map
        EventRow.value).sum ∧
      processed = (s.events.filter fun r => r.target = target && r.noLater e).length

/-- The same at a cursor, for the rows up to it. -/
theorem foldsTo_iff {total processed : Int} :
    s.FoldsTo target (cursor.map fun c => c.time.millis) (cursor.map Cursor.event) total
        processed ↔
      (∀ c ∈ cursor, ∃ e ∈ s.events, e.target = target ∧ e.millis = c.time.millis ∧
        e.id = c.event) ∧
      total = ((s.rowsUpTo target cursor).map EventRow.value).sum ∧
      processed = (s.rowsUpTo target cursor).length := by
  cases cursor with
  | none => simp [FoldsTo]
  | some c =>
    have hrows : ∀ e : EventRow, e.millis = c.time.millis → e.id = c.event →
        s.rowsUpTo target (some c) =
          s.events.filter fun r => r.target = target && r.noLater e := by
      intro e ht hid
      refine List.filter_congr fun r _ => ?_
      rw [Bool.eq_iff_iff]
      simp only [EventRow.isAfter, EventRow.noLater, ht, hid, Bool.and_eq_true, Bool.or_eq_true,
        Bool.not_eq_true', Bool.eq_false_iff, ne_eq, decide_eq_true_eq]
      omega
    constructor
    · rintro (⟨h, -⟩ | ⟨e, he, htarget, ht, hid, htotal, hprocessed⟩)
      · cases h
      · have ht := (Option.some.inj ht).symm
        have hid := (Option.some.inj hid).symm
        rw [hrows e ht hid]
        exact ⟨fun c' hc' => by cases hc'; exact ⟨e, he, htarget, ht, hid⟩, htotal, hprocessed⟩
    · rintro ⟨hc, htotal, hprocessed⟩
      obtain ⟨e, he, htarget, ht, hid⟩ := hc c rfl
      rw [hrows e ht hid] at htotal hprocessed
      exact Or.inr ⟨e, he, htarget, congrArg some ht.symm, congrArg some hid.symm, htotal,
        hprocessed⟩

/-- An event that comes no earlier than the others of its target changes no total up to one of
them. -/
theorem FoldsTo.addEvent {time event : Option Int} {total processed : Int} (hs : s.Numbered)
    (h : s.FoldsTo target time event total processed) {target' value : Int} {t : Instant}
    (ht : ∀ r ∈ s.events, r.target = target' → r.millis ≤ t.millis) :
    (s.addEvent target' value t).2.FoldsTo target time event total processed := by
  rcases h with h | ⟨e, he, htarget, htime, hevent, htotal, hprocessed⟩
  · exact Or.inl h
  · have hrows : (s.addEvent target' value t).2.events.filter
          (fun r => r.target = target && r.noLater e) =
        s.events.filter fun r => r.target = target && r.noLater e := by
      change List.filter _ (s.events ++ [EventRow.mk s.nextEvent target' t.millis value]) = _
      rw [List.filter_append, List.append_right_eq_self, List.filter_eq_nil_iff]
      intro r hr
      obtain rfl : r = _ := List.mem_singleton.1 hr
      rw [Bool.and_eq_true, decide_eq_true_eq, EventRow.noLater_iff]
      rintro ⟨rfl, hlate⟩
      have := ht e he htarget
      have := hs.event_lt e he
      simp only at hlate
      omega
    refine Or.inr ⟨e, List.mem_append_left _ he, htarget, htime, hevent,
      ?_, ?_⟩
    · rw [hrows]
      exact htotal
    · rw [hrows]
      exact hprocessed

end Store

/-! ### Aggregations -/

namespace Aggregation

variable {s : Store} {a : Aggregation}

theorem total_foldAll (a : Aggregation) (es : List Event) :
    (a.foldAll es).total = a.total + (es.map Event.value).sum := by
  rw [foldAll]
  induction es generalizing a with
  | nil => simp
  | cons e es ih =>
    rw [List.foldl_cons, ih, List.map_cons, List.sum_cons, ← Int.add_assoc]
    rfl

theorem processed_foldAll (a : Aggregation) (es : List Event) :
    (a.foldAll es).processed = a.processed + es.length := by
  rw [foldAll]
  induction es generalizing a with
  | nil => simp
  | cons e es ih =>
    rw [List.foldl_cons, ih, List.length_cons]
    change a.processed + 1 + (es.length : Int) = _
    omega

theorem cursor_foldAll (a : Aggregation) (es : List Event) :
    (a.foldAll es).cursor = (es.getLast?.map Event.cursor).or a.cursor := by
  rw [foldAll]
  induction es generalizing a with
  | nil => rfl
  | cons e es ih =>
    rw [List.foldl_cons, ih, List.getLast?_cons]
    cases es.getLast? <;> rfl

/-- **An aggregation is exact** when its totals are those of its target's events up to its
cursor. -/
def IsExact (s : Store) (a : Aggregation) : Prop :=
  s.FoldsTo a.target (a.cursor.map fun c => c.time.millis) (a.cursor.map Cursor.event) a.total
    a.processed

theorem isExact_reset (s : Store) (a : Aggregation) : a.reset.IsExact s :=
  Or.inl ⟨rfl, rfl, rfl, rfl⟩

/-- **Folding a page keeps an aggregation exact.** -/
theorem IsExact.foldAll (hs : s.Numbered) (h : a.IsExact s) {limit : Nat} {es : List Event}
    (hpage : s.eventsAfter a.target a.cursor limit = .ok es) : (a.foldAll es).IsExact s := by
  have hread := Store.forall₂_of_mapM_ok hpage
  have hsum := Store.sum_value_of_read hread
  have hlength := hread.length_eq
  obtain ⟨-, htotal, hprocessed⟩ := Store.foldsTo_iff.1 h
  cases hlast : es.getLast? with
  | none =>
    obtain rfl : es = [] := List.getLast?_eq_none_iff.1 hlast
    exact h
  | some e =>
    obtain ⟨p, hp, hpe⟩ := Store.getLast?_of_read hread hlast
    have hcursor : (a.foldAll es).cursor = some e.cursor := by
      rw [cursor_foldAll, hlast]
      rfl
    have hperm := Store.rowsUpTo_perm hs hp hpe
    obtain ⟨ht, hid, -⟩ := Store.EventRow.read_eq_ok hpe
    obtain ⟨hmem, htarget, -⟩ := Store.pageRows_subset (List.mem_of_getLast? hp)
    rw [IsExact]
    rw [Store.foldsTo_iff, Shift.target_foldAll, hcursor]
    refine ⟨?_, ?_, ?_⟩
    · intro c hc
      cases hc
      exact ⟨p, hmem, htarget, ht.symm, hid.symm⟩
    · rw [(hperm.map Store.EventRow.value).sum_eq, List.map_append, List.sum_append, ← htotal,
        total_foldAll, hsum]
      rfl
    · rw [hperm.length_eq, List.length_append, processed_foldAll, hprocessed, ← hlength]
      push_cast
      rfl

end Aggregation

end Leasehold
