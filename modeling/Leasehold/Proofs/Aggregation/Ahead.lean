import Leasehold.Proofs.Aggregation.Steps

/-!
# The events ahead of a step

What a step has before it is one list: the events of its target after its cursor, in cursor order
(`Leasehold.Store.rowsAhead`). A page is a front of that list, and what the page leaves is ahead of
the cursor that it moves to, no more and no less (`Leasehold.Store.rowsAhead_of_page`). So the pages
of a step go through one list, and what they fold is a front of it.

How long that front is, is a matter of numbers: how many events there are, how many make a page,
and after which full page the budget is found over (`Leasehold.Ends`). A full page that takes the
last event does not end the step, since only the empty page behind it tells that no event is left;
the budget is asked in between, and the step may end there without having caught up.

Both ways to end the pages are told here: well (`Leasehold.Shift.foldPages_eq_ok`), or with the
first event that cannot be read (`Leasehold.Shift.foldPages_eq_error`).
-/

namespace Leasehold

namespace Store

variable {s s' : Store} {target : Int} {cursor : Option Cursor} {limit : Nat} {es : List Event}

/-! ### One list -/

/-- **The events of a target after a cursor**, in cursor order. -/
def rowsAhead (s : Store) (target : Int) (cursor : Option Cursor) : List EventRow :=
  (s.rowsAfter target cursor).mergeSort EventRow.noLater

theorem rowsAhead_congr (h : s'.events = s.events) (target : Int) (cursor : Option Cursor) :
    s'.rowsAhead target cursor = s.rowsAhead target cursor := by
  rw [rowsAhead, rowsAfter_congr h, rowsAhead]

/-- No event is ahead twice. -/
theorem id_ne_rowsAhead (hs : s.events.Pairwise fun a b => a.id ≠ b.id) (target : Int)
    (cursor : Option Cursor) :
    (s.rowsAhead target cursor).Pairwise fun a b => a.id ≠ b.id :=
  (List.mergeSort_perm _ _).symm.pairwise (hs.filter _) fun h => h.symm

/-- **The events ahead in their order** are told by their order and by their numbers. -/
theorem rowsAhead_eq {rows : List EventRow} (hperm : (s.rowsAfter target cursor).Perm rows)
    (hsorted : rows.Pairwise fun a b => a.noLater b = true)
    (hne : rows.Pairwise fun a b => a.id ≠ b.id) : s.rowsAhead target cursor = rows := by
  have hrows := (List.mergeSort_perm (s.rowsAfter target cursor) EventRow.noLater).trans hperm
  refine hrows.eq_of_pairwise ?_ (pairwise_noLater _) hsorted
  intro a b ha hb hab hba
  exact EventRow.eq_of_id_eq hne (hrows.subset ha) hb (EventRow.id_eq_of_noLater hab hba)

/-! ### One page of it -/

/-- A limit takes the first events, also one that no event reaches. -/
theorem limited_eq_take {α : Type} {rows : List α} (h : rows.length < 9223372036854775808)
    (limit : Nat) : limited limit rows = rows.take limit := by
  rw [limited]
  split
  · rfl
  · rw [List.take_of_length_le (by omega)]

/-- **A page is a front of what is ahead**, as long as its limit allows. -/
theorem read_of_eventsAfter (hn : (s.rowsAhead target cursor).length < 9223372036854775808)
    (h : s.eventsAfter target cursor limit = .ok es) :
    es.length = min limit (s.rowsAhead target cursor).length ∧
      List.Forall₂ (fun r e => EventRow.read r = .ok e)
        ((s.rowsAhead target cursor).take es.length) es := by
  have hread := forall₂_of_mapM_ok h
  change List.Forall₂ _ (limited limit (s.rowsAhead target cursor)) es at hread
  rw [limited_eq_take hn] at hread
  have hlength := hread.length_eq
  rw [List.length_take] at hlength
  refine ⟨hlength.symm, ?_⟩
  rwa [← hlength, ← List.take_eq_take_min]

/-- What comes after a row that was after the cursor before. -/
theorem rowsAfter_cursor {p : EventRow} {e : Event} (hpe : p.read = .ok e)
    (hp : p.isAfter cursor = true) :
    s.rowsAfter target (some e.cursor) = (s.rowsAfter target cursor).filter (!·.noLater p) := by
  rw [rowsAfter, rowsAfter, List.filter_filter]
  refine List.filter_congr fun r _ => ?_
  rw [← isAfter_cursor hpe]
  by_cases hr : r.isAfter (some e.cursor) = true
  · simp [hr, isAfter_trans hpe hp hr]
  · simp [Bool.eq_false_iff.2 hr]

/-- **A page leaves the rest ahead** of its last event. -/
theorem rowsAhead_getLast? (hs : s.events.Pairwise fun a b => a.id ≠ b.id)
    (h : s.eventsAfter target cursor limit = .ok es) :
    s.rowsAhead target ((es.getLast?.map Event.cursor).or cursor) =
      (s.rowsAhead target cursor).drop es.length := by
  have hread := forall₂_of_mapM_ok h
  change List.Forall₂ _ (s.pageRows target cursor limit) es at hread
  cases hlast : es.getLast? with
  | none =>
    obtain rfl : es = [] := List.getLast?_eq_none_iff.1 hlast
    rfl
  | some e =>
    obtain ⟨p, hp, hpe⟩ := getLast?_of_read hread hlast
    obtain ⟨-, -, hafter⟩ := pageRows_subset (List.mem_of_getLast? hp)
    obtain ⟨rest, hrest⟩ := limited_prefix_rows limit (s.rowsAhead target cursor)
    change s.pageRows target cursor limit ++ rest = _ at hrest
    obtain ⟨hpage, hlater⟩ := noLater_iff_mem_page hs hp hrest
    have hsorted := pairwise_noLater (s.rowsAfter target cursor)
    have hne := id_ne_rowsAhead hs target cursor
    change (s.rowsAhead target cursor).Pairwise _ at hsorted
    rw [← hrest] at hsorted hne ⊢
    rw [← hread.length_eq, List.drop_left]
    refine rowsAhead_eq ?_ (List.pairwise_append.1 hsorted).2.1 (List.pairwise_append.1 hne).2.1
    -- Of the page nothing comes after its last row, and all of the rest does.
    have hcut : (s.pageRows target cursor limit ++ rest).filter (!·.noLater p) = rest := by
      rw [List.filter_append, List.filter_eq_nil_iff.2, List.nil_append]
      · refine List.filter_eq_self.2 fun r hr => ?_
        rw [Bool.eq_false_iff.2 (hlater r hr), Bool.not_false]
      · intro r hr
        simp [hpage r hr]
    change (s.rowsAfter target (some e.cursor)).Perm rest
    rw [rowsAfter_cursor hpe hafter, ← hcut, hrest]
    exact ((List.mergeSort_perm _ _).filter _).symm

/-- An aggregation that has folded a page has the rest ahead. -/
theorem rowsAhead_of_page {a : Aggregation} (hs : s.events.Pairwise fun a b => a.id ≠ b.id)
    (h : s.eventsAfter a.target a.cursor limit = .ok es) :
    s.rowsAhead a.target (a.foldAll es).cursor =
      (s.rowsAhead a.target a.cursor).drop es.length := by
  rw [Aggregation.cursor_foldAll]
  exact rowsAhead_getLast? hs h

end Store

/-! ### Where pages end -/

section Ends

variable {p n k k' : Nat} {stops : Nat → Bool} {caughtUp caughtUp' : Bool}

/-- **Pages of a length go on at a place**: none of the checks after the full pages up to there
finds the budget over. The checks are counted from zero. -/
def GoesOnAt (p : Nat) (stops : Nat → Bool) (k : Nat) : Prop :=
  ∀ i, (i + 1) * p ≤ k → stops i = false

/-- **Where pages of a length end** among some events, and whether they have caught up there: at the
last event when no check stops them, and otherwise after the first full page whose check does. -/
inductive Ends (p n : Nat) (stops : Nat → Bool) : Nat → Bool → Prop
  /-- No check stops them. -/
  | caughtUp (h : GoesOnAt p stops n) : Ends p n stops n true
  /-- A check stops them, and none before it did. -/
  | overTime (i : Nat) (h : GoesOnAt p stops (i * p)) (hn : (i + 1) * p ≤ n)
      (hstop : stops i = true) : Ends p n stops ((i + 1) * p) false

/-- One more full page. -/
theorem GoesOnAt.page (h : GoesOnAt p (fun i => stops (i + 1)) k) (hfirst : stops 0 = false) :
    GoesOnAt p stops (k + p) := by
  intro i hi
  cases i with
  | zero => exact hfirst
  | succ i =>
    refine h i ?_
    rw [Nat.succ_mul] at hi
    exact Nat.le_of_add_le_add_right hi

/-- **A full page goes before**, and its check does not stop it. -/
theorem Ends.page (h : Ends p n (fun i => stops (i + 1)) k caughtUp) (hfirst : stops 0 = false) :
    Ends p (n + p) stops (k + p) caughtUp := by
  rcases h with hgoes | ⟨i, hgoes, hn, hstop⟩
  · exact .caughtUp (hgoes.page hfirst)
  · -- The check that stops the rest is the next one of the whole.
    have hmul : (i + 1) * p + p = (i + 1 + 1) * p := (Nat.succ_mul (i + 1) p).symm
    rw [hmul]
    refine .overTime (i + 1) ?_ ?_ hstop
    · rw [Nat.succ_mul]
      exact hgoes.page hfirst
    · rw [← hmul]
      exact Nat.add_le_add_right hn p

end Ends

/-! ### The checks of a step -/

/-- The clock after some readings of it. -/
def Clock.after : Nat → Clock → Clock
  | 0, c => c
  | n + 1, c => after n c.read.2

namespace Shift

variable {s s' : Shift} {a : Aggregation} {size folded : Nat}

/-- **What a check finds** that comes after some other readings of the clock. -/
def overAt (s : Shift) (i : Nat) : Bool := (s.budget.check (s.world.clock.after i)).1.wasOver

theorem clock_save (s : Shift) (a : Aggregation) :
    (s.save a).2.world.clock = s.world.clock ∧ (s.save a).2.budget = s.budget := by
  rw [save, run, edit]
  by_cases hp : s.world.database.isPoisoned = true
  · rw [if_pos hp]
    exact ⟨rfl, rfl⟩
  · rw [if_neg hp]
    exact ⟨rfl, rfl⟩

theorem overAt_save (s : Shift) (a : Aggregation) : (s.save a).2.overAt = s.overAt := by
  obtain ⟨hclock, hbudget⟩ := s.clock_save a
  funext i
  rw [overAt, hclock, hbudget, overAt]

/-- A check finds what it finds, and leaves the later ones. -/
theorem overAt_of_check {isOver : Bool} (h : s.check = (isOver, s')) :
    s.overAt 0 = isOver ∧ s'.overAt = (fun i => s.overAt (i + 1)) ∧
      s'.world.clock = s.world.clock.after 1 := by
  cases h
  exact ⟨rfl, rfl, rfl⟩

/-- What was read can be read on. -/
theorem Within.rowsAhead (h : Within a.id s s') (target : Int) (cursor : Option Cursor) :
    s'.store.rowsAhead target cursor = s.store.rowsAhead target cursor :=
  Store.rowsAhead_congr h.store.events target cursor

/-- The events before a step. -/
abbrev ahead (s : Shift) (a : Aggregation) : List Store.EventRow :=
  s.store.rowsAhead a.target a.cursor

/-- **A page is a front of what is ahead**, as long as a page may be. -/
theorem read_of_page {es : List Event} (hn : (s.ahead a).length < 9223372036854775808)
    (h : s.page size a = .ok es) :
    es.length = min size (s.ahead a).length ∧
      List.Forall₂ (fun r e => Store.EventRow.read r = .ok e) ((s.ahead a).take es.length) es :=
  Store.read_of_eventsAfter hn (eventsAfter_of_page h)

/-- **A full page, saved and checked**: what it leaves ahead, and the checks that it leaves. -/
theorem ahead_of_page {es : List Event} {s₁ s₂ : Shift} {isOver : Bool}
    (hs : s.store.events.Pairwise fun a b => a.id ≠ b.id) (hpage : s.page (max size 1) a = .ok es)
    (hsave : s.save (a.foldAll es) = (.ok (), s₁)) (hcheck : s₁.check = (isOver, s₂)) :
    s₂.ahead (a.foldAll es) = (s.ahead a).drop es.length ∧ s.overAt 0 = isOver ∧
      s₂.overAt = (fun i => s.overAt (i + 1)) ∧ s₂.world.clock = s.world.clock.after 1 := by
  have hwithin : Within a.id s s₂ := (Within.of_save hsave).trans (.of_check hcheck)
  obtain ⟨hover, hlater, hclock⟩ := overAt_of_check hcheck
  have hsaved := s.overAt_save (a.foldAll es)
  have hclock' := (s.clock_save (a.foldAll es)).1
  rw [hsave] at hsaved hclock'
  rw [hsaved] at hover hlater
  rw [hclock'] at hclock
  refine ⟨?_, hover, hlater, hclock⟩
  rw [ahead, hwithin.rowsAhead, target_foldAll]
  exact Store.rowsAhead_of_page hs (eventsAfter_of_page hpage)

end Shift

end Leasehold
