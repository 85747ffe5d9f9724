import Leasehold.Proofs.Aggregation.Undisturbed
import Leasehold.Proofs.Store.Lookup

/-!
# Both modes come to the same

The incremental mode goes on from a cursor that many runs have moved, page by page; the full mode
folds every event anew. A step with time enough comes to the same in both modes: its row gives the
place of the target's last event, and the sum and the number of all events of the target
(`Leasehold.Store.fullAccount`).

Two facts carry this. The pages of a step keep an aggregation exact
(`Leasehold.Shift.isExact_foldPages`), and in full mode it is exact from the start, whatever it was
before. And a step whose budget has not run out ends where no event is left, and what is exact
there is complete (`Leasehold.Aggregation.IsExact.account_write`).

That the incremental mode starts from something exact is where the past comes in. After any sequence
of runs of the worker and steps of aggregations in hand, in both modes and however early they
stopped (`Leasehold.Session`), every row is exact, since all of them are runs of a crew. Sums have
no bounds here; when they are those of 64 bits is told by `Leasehold.Aggregation.SumsFit`.
-/

namespace Leasehold

open Store (AggregationRow EventRow)

/-! ### All events of a target -/

namespace Store

variable {s s' : Store} {target : Int} {cursor : Option Cursor}

/-- **What was folded**: up to which event, and what that comes to. -/
structure Account where
  /-- The milliseconds of the last event. -/
  time : Option Int
  /-- The number of the last event. -/
  event : Option Int
  /-- The sum of all values. -/
  total : Int
  /-- How many events there were. -/
  processed : Int
deriving DecidableEq

/-- The account of a row. -/
def AggregationRow.account (r : AggregationRow) : Account :=
  ⟨r.cursorTime, r.cursorEvent, r.total, r.processed⟩

/-- A row that somebody has given another account. -/
def AggregationRow.withAccount (x : Account) (r : AggregationRow) : AggregationRow :=
  { r with cursorTime := x.time, cursorEvent := x.event, total := x.total, processed := x.processed }

/-- The account of the aggregation of a number, if there is one. -/
def account? (s : Store) (id : Int) : Option Account :=
  (s.aggregations.find? (·.id = id)).map AggregationRow.account

/-- The events of a target. -/
def eventsOf (s : Store) (target : Int) : List EventRow := s.events.filter (·.target = target)

/-- **The last event of a target**: the latest one, and of several in one millisecond the one of
the greatest number. -/
def lastEvent? (s : Store) (target : Int) : Option EventRow :=
  ((s.eventsOf target).mergeSort EventRow.noLater).getLast?

/-- **The account of all events of a target.** -/
def fullAccount (s : Store) (target : Int) : Account where
  time := (s.lastEvent? target).map EventRow.millis
  event := (s.lastEvent? target).map EventRow.id
  total := ((s.eventsOf target).map EventRow.value).sum
  processed := (s.eventsOf target).length

theorem fullAccount_congr (h : s'.events = s.events) (target : Int) :
    s'.fullAccount target = s.fullAccount target := by
  unfold fullAccount lastEvent? eventsOf
  rw [h]

/-- The last event is told by that no other one of its target comes after it. -/
theorem lastEvent?_of_noLater {e : EventRow} (he : e ∈ s.eventsOf target)
    (hlast : ∀ r ∈ s.eventsOf target, r.noLater e = true) :
    (s.lastEvent? target).map EventRow.millis = some e.millis ∧
      (s.lastEvent? target).map EventRow.id = some e.id := by
  have hsorted := pairwise_noLater (s.eventsOf target)
  have hmem := (List.mergeSort_perm (s.eventsOf target) EventRow.noLater).mem_iff (a := e)
  rw [lastEvent?]
  rcases ((s.eventsOf target).mergeSort EventRow.noLater).eq_nil_or_concat with
    hnil | ⟨front, x, hconcat⟩
  · rw [hnil] at hmem
    cases hmem.2 he
  · have hx : x ∈ s.eventsOf target := by
      refine (List.mergeSort_perm _ EventRow.noLater).subset ?_
      rw [hconcat, List.concat_eq_append]
      exact List.mem_append_right front List.mem_cons_self
    rw [hconcat, List.concat_eq_append] at hsorted hmem ⊢
    have hle := hlast x hx
    have hge := noLater_getLast hsorted (List.getLast?_concat) e (hmem.2 he)
    rw [EventRow.noLater_iff] at hle hge
    rw [List.getLast?_concat, Option.map_some, Option.map_some, Option.some_inj, Option.some_inj]
    omega

/-- **Where no event is left, the rows up to the cursor are all.** -/
theorem rowsUpTo_of_rowsAfter (h : s.rowsAfter target cursor = []) :
    s.rowsUpTo target cursor = s.eventsOf target := by
  rw [rowsAfter, List.filter_eq_nil_iff] at h
  refine List.filter_congr fun r hr => ?_
  have hr := h r hr
  by_cases htarget : r.target = target
  · simp_all
  · simp [htarget]

/-- What a row says after something was written into it. -/
theorem account?_changeAggregation {id : Int} {f : AggregationRow → AggregationRow} {x : Account}
    (hf : ∀ r, (f r).id = r.id) (hhas : s.hasAggregation id = true)
    (hx : ∀ r, (f r).account = x) : (s.changeAggregation id f).account? id = some x := by
  obtain ⟨r, hr, hid⟩ := List.any_eq_true.1 hhas
  have hsome : (s.aggregations.find? fun r => decide (r.id = id)).isSome = true :=
    List.find?_isSome.2 ⟨r, hr, hid⟩
  obtain ⟨r₁, h₁⟩ := Option.isSome_iff_exists.1 hsome
  rw [account?, changeAggregation, find?_map_ite_self, h₁, Option.map_some, Option.map_some, hx]
  · exact fun r _ => congrArg (fun x => decide (x = id)) (hf r)
  · exact fun r h => of_decide_eq_true h

theorem OnlyRow.numbered {id : Int} (h : s.OnlyRow id s') (hs : s.Numbered) : s'.Numbered := by
  obtain ⟨f, hf, rfl⟩ := h
  exact hs.changeAggregation id fun r => (hf r).1

end Store

/-! ### What is exact where no event is left -/

namespace Aggregation

variable {s s' : Store} {a : Aggregation}

theorem isExact_congr (h : s'.events = s.events) : a.IsExact s' ↔ a.IsExact s :=
  Store.foldsTo_congr h

/-- **What is exact where no event is left accounts for all events** when it is written. -/
theorem IsExact.account_write (h : a.IsExact s) (hrest : s.rowsAfter a.target a.cursor = [])
    (r : AggregationRow) : (AggregationRow.write a r).account = s.fullAccount a.target := by
  obtain ⟨hcursor, htotal, hprocessed⟩ := Store.foldsTo_iff.1 h
  have hrows := Store.rowsUpTo_of_rowsAfter hrest
  rw [hrows] at htotal hprocessed
  rw [AggregationRow.account, AggregationRow.write, Store.fullAccount, Store.Account.mk.injEq]
  cases hc : a.cursor with
  | none =>
    rw [hc, Store.rowsUpTo_none] at hrows
    have hlast : s.lastEvent? a.target = none := by
      rw [Store.lastEvent?, ← hrows, List.mergeSort_nil]
      rfl
    rw [hlast]
    exact ⟨rfl, rfl, htotal, hprocessed⟩
  | some c =>
    obtain ⟨e, he, htarget, hmillis, hid⟩ := hcursor c hc
    have hmem : e ∈ s.eventsOf a.target := List.mem_filter.2 ⟨he, decide_eq_true htarget⟩
    have hlast : ∀ r ∈ s.eventsOf a.target, r.noLater e = true := by
      intro r hr
      rw [← hrows, hc] at hr
      have hup := (List.mem_filter.1 hr).2
      simp only [EventRow.isAfter, Bool.and_eq_true, Bool.or_eq_true, decide_eq_true_eq,
        Bool.not_eq_true', Bool.eq_false_iff, ne_eq] at hup
      rw [EventRow.noLater_iff]
      omega
    obtain ⟨htime, hevent⟩ := Store.lastEvent?_of_noLater hmem hlast
    rw [htime, hevent, hmillis, hid]
    exact ⟨rfl, rfl, htotal, hprocessed⟩

end Aggregation

/-! ### A step with time enough -/

namespace Shift

variable {s s' : Shift} {a : Aggregation} {m : Mode} {size folded : Nat} {cutoff : Instant}

/-- **The pages of a step keep an aggregation exact.** -/
theorem isExact_foldPages {p : Progress} (hs : s.store.Numbered) (ha : a.IsExact s.store)
    (h : s.foldPages size a folded = (.ok p, s')) : p.aggregation.IsExact s.store := by
  fun_induction foldPages size a folded s with
  | case1 a folded s e hp => cases h
  | case2 a folded s es hp hl =>
    cases h
    exact ha.foldAll hs (eventsAfter_of_page hp)
  | case3 a folded s es hp hl e s' hsave => cases h
  | case4 a folded s es hp hl s' hsave s'' hc =>
    cases h
    exact ha.foldAll hs (eventsAfter_of_page hp)
  | case5 a folded s es hp hl s₁ hsave s₂ hc ih =>
    have hwithin : Within a.id s s₂ := (Within.of_save hsave).trans (.of_check hc)
    have hfolded := ha.foldAll hs (eventsAfter_of_page hp)
    rw [← Aggregation.isExact_congr hwithin.store.events] at hfolded ⊢
    exact ih (hwithin.store.numbered hs) hfolded h

/-- **A step that ends well within its budget has accounted for all events** of its target. -/
theorem account?_step {o : Outcome} (hs : s.store.Numbered) (ha : (startOf m a).IsExact s.store)
    (h : s.step size a m cutoff = (.ok o, s')) (hover : ¬s'.IsOver) :
    s'.store.account? a.id = some (s.store.fullAccount a.target) := by
  obtain ⟨p, s₁, runtime, t, hpages, rfl, hsave⟩ := exists_pages_of_step h
  obtain ⟨hid, htarget, hcases⟩ := foldPages_cases hpages
  have hwithin := within_foldPages size (startOf m a) 0 s.readElapsed.2
  have hexact := isExact_foldPages (s := s.readElapsed.2) hs ha hpages
  rw [hpages, id_startOf] at hwithin
  rw [id_startOf] at hid
  rw [target_startOf] at htarget hcases
  have hevents : s₁.store.events = s.store.events := hwithin.store.events
  obtain ⟨hhas, hstore⟩ := save_eq_ok hsave
  rcases hcases with ⟨-, hrest⟩ | ⟨-, hearly⟩
  · rw [Store.rowsAfter_congr hevents, ← htarget] at hrest
    have hresult : (p.result m runtime t).IsExact s.store := hexact
    rw [hstore, ← hid, ← htarget]
    exact Store.account?_changeAggregation (fun _ => rfl) hhas (hresult.account_write hrest)
  · -- A budget that runs out within the step is still over at its end.
    have hend := within_save s₁.readElapsed.2 (p.result m runtime t)
    rw [hsave] at hend
    exact absurd (hend.isOver ((s₁.within_readElapsed a.id).isOver hearly)) hover

/-- **A step comes to an account**: it ends well, and unless its budget has run out by then, that
is the account of its row. -/
def ComesTo (s : Shift) (size : Nat) (a : Aggregation) (m : Mode) (cutoff : Instant)
    (x : Store.Account) : Prop :=
  ∃ o s', s.step size a m cutoff = (.ok o, s') ∧ (¬s'.IsOver → s'.store.account? a.id = some x)

/-- **A step from something exact comes to the account of all events.** -/
theorem comesTo_step (hpoisoned : s.world.database.isPoisoned = false) (hs : s.store.Numbered)
    (hevents : s.store.EventsReadable) (hhas : s.store.hasAggregation a.id = true)
    (ha : (startOf m a).IsExact s.store) (size : Nat) (cutoff : Instant) :
    s.ComesTo size a m cutoff (s.store.fullAccount a.target) := by
  obtain ⟨o, ho⟩ := step_of_has hpoisoned hhas hevents size m cutoff
  have hstep : s.step size a m cutoff = (.ok o, (s.step size a m cutoff).2) :=
    Prod.ext ho rfl
  exact ⟨o, _, hstep, account?_step hs ha hstep⟩

/-- **A shift on a store** whose database is not poisoned, whatever its clock and its budget. -/
structure IsOn (st : Store) (s : Shift) : Prop where
  /-- The store. -/
  store : s.store = st
  /-- The database is not poisoned. -/
  isPoisoned : s.world.database.isPoisoned = false

end Shift

/-! ### What came before -/

/-- **A session**: runs of the worker and steps of aggregations in hand, one after another, in both
modes and however early they stop. In between targets are registered, switched on and off, and get
events, no earlier than those they have. The aggregations are those that were loaded so far. -/
inductive Session : World → List Aggregation → Prop
  /-- It begins without aggregations and events. -/
  | start (w : World) (haggregations : w.store.aggregations = []) (hevents : w.store.events = []) :
      Session w []
  /-- A target is registered. -/
  | register {w : World} {as : List Aggregation} (h : Session w as) (target : Int) :
      Session (w.withStore (w.store.register target).2) as
  /-- An aggregation is switched on or off. -/
  | enable {w : World} {as : List Aggregation} (h : Session w as) (id : Int) (enabled : Bool) :
      Session (w.withStore (w.store.setEnabled id enabled)) as
  /-- A target gets an event. -/
  | addEvent {w : World} {as : List Aggregation} (h : Session w as) (target value : Int)
      (t : Instant) (ht : ∀ r ∈ w.store.events, r.target = target → r.millis ≤ t.millis) :
      Session (w.withStore (w.store.addEvent target value t).2) as
  /-- An aggregation is loaded. -/
  | load {w : World} {as : List Aggregation} (h : Session w as) {r : AggregationRow}
      (hr : r ∈ w.store.aggregations) {a : Aggregation} (ha : r.read = .ok a) :
      Session w (a :: as)
  /-- An aggregation is stepped that was loaded at some time. -/
  | execute {w : World} {as : List Aggregation} (h : Session w as) {a : Aggregation} (ha : a ∈ as)
      (budget : Budget) (size : Nat) (m : Mode) (cutoff : Instant) :
      Session (Shift.step size a m cutoff ⟨w, budget⟩).2.world as
  /-- The worker runs. -/
  | perform {w : World} {as : List Aggregation} (h : Session w as) (o : WorkerOptions) (size : Nat)
      (cs : Circumstances) : Session (perform o size cs w).2 as
  /-- Something else happens in the world. -/
  | elsewhere {w w' : World} {as : List Aggregation} (h : Session w as)
      (haggregations : w'.store.aggregations = w.store.aggregations)
      (hnextAggregation : w'.store.nextAggregation = w.store.nextAggregation)
      (hevents : w'.store.events = w.store.events)
      (hnextEvent : w'.store.nextEvent = w.store.nextEvent) : Session w' as

/-- **Everything in a session is good**: the rows, what was loaded, and the times of the events. -/
structure World.IsSound (w : World) (as : List Aggregation) : Prop where
  /-- The rows are exact. -/
  store : w.store.Sound
  /-- What was loaded is good. -/
  loaded : ∀ a ∈ as, w.store.Vouches a
  /-- The events can be read. -/
  events : w.store.EventsReadable

/-- The crew of a session: the worker, and somebody who keeps what was loaded. -/
def World.crew (w : World) (as : List Aggregation) : Crew Bool where
  store := w.store
  loaded := fun _ => as

namespace World.IsSound

variable {w w' : World} {as : List Aggregation}

/-- **What is a run of the crew keeps a session good.** -/
theorem run {c : Crew Bool} (h : w.IsSound as) (hrun : Crew.Run (w.crew as) c)
    (hstore : w'.store = c.store) (hloaded : c.loaded true = as) : w'.IsSound as := by
  have hcrew : (w.crew as).Sound := ⟨h.store, fun _ => h.loaded, fun _ _ hj => nomatch hj⟩
  have hsound := hcrew.run hrun
  have hevents : (w.crew as).store.EventsReadable := h.events
  refine ⟨?_, ?_, ?_⟩
  · rw [hstore]
    exact hsound.store
  · intro a ha
    rw [hstore]
    exact hsound.loaded true a (hloaded.symm ▸ ha)
  · rw [hstore]
    exact Crew.readable_run hevents hrun

theorem load (h : w.IsSound as) {r : AggregationRow} (hr : r ∈ w.store.aggregations)
    {a : Aggregation} (ha : r.read = .ok a) : w.IsSound (a :: as) :=
  ⟨h.store, List.forall_mem_cons.2 ⟨h.store.vouches_of_read hr ha, h.loaded⟩, h.events⟩

/-- Only the tables of aggregations and events matter. -/
theorem elsewhere (h : w.IsSound as) (haggregations : w'.store.aggregations = w.store.aggregations)
    (hnextAggregation : w'.store.nextAggregation = w.store.nextAggregation)
    (hevents : w'.store.events = w.store.events)
    (hnextEvent : w'.store.nextEvent = w.store.nextEvent) : w'.IsSound as := by
  obtain ⟨hlt, hne, heventLt, heventNe⟩ := h.store.numbered
  refine ⟨⟨⟨?_, ?_, ?_, ?_⟩, ?_⟩, ?_, (Store.eventsReadable_congr hevents).2 h.events⟩
  · rwa [haggregations, hnextAggregation]
  · rwa [haggregations]
  · rwa [hevents, hnextEvent]
  · rwa [hevents]
  · intro r hr
    rw [haggregations] at hr
    exact (Store.foldsTo_congr hevents).2 (h.store.foldsTo r hr)
  · intro a ha
    obtain ⟨hexact, hid, htarget⟩ := h.loaded a ha
    refine ⟨(Aggregation.isExact_congr hevents).2 hexact, ?_, ?_⟩
    · rwa [hnextAggregation]
    · rwa [haggregations]

end World.IsSound

namespace Session

variable {w : World} {as : List Aggregation}

/-- **Everything in a session is good.** -/
theorem isSound (h : Session w as) : w.IsSound as := by
  induction h with
  | start w haggregations hevents =>
    refine ⟨⟨⟨?_, ?_, ?_, ?_⟩, ?_⟩, List.forall_mem_nil _, ?_⟩ <;>
      simp [haggregations, hevents, Store.EventsReadable]
  | register _ target ih => exact ih.run (.single (.register _ target)) rfl rfl
  | enable _ id enabled ih => exact ih.run (.single (.enable _ id enabled)) rfl rfl
  | addEvent _ target value t ht ih => exact ih.run (.single (.addEvent _ target value t ht)) rfl rfl
  | load _ hr ha ih => exact ih.load hr ha
  | @execute w as _ a ha budget size m cutoff ih =>
    exact ih.run (Crew.run_step (c := w.crew as) (i := false) (s := ⟨w, budget⟩) cutoff rfl ha)
      rfl rfl
  | @perform w as _ o size cs ih =>
    obtain ⟨_, hrun⟩ := Crew.run_perform (c := w.crew as) (i := false) o size cs rfl rfl
    exact ih.run hrun rfl rfl
  | elsewhere _ haggregations hnextAggregation hevents hnextEvent ih =>
    exact ih.elsewhere haggregations hnextAggregation hevents hnextEvent

end Session

/-! ### Both modes from there -/

section Both

variable {st : Store} {r : AggregationRow} {a : Aggregation} {s : Shift}

/-- A row that is exact has a copy: its cursor is the place of an event, which can be read. -/
theorem Store.Sound.exists_isCopiedBy (hs : st.Sound) (hevents : st.EventsReadable)
    (hr : r ∈ st.aggregations) : ∃ a, r.IsCopiedBy a := by
  obtain ⟨cursor, hcursor⟩ : ∃ cursor, Store.readCursor r = .ok cursor := by
    rcases hs.foldsTo r hr with ⟨ht, he, -⟩ | ⟨e, he, -, ht, hid, -⟩
    · refine ⟨none, ?_⟩
      rw [Store.readCursor, ht, he]
    · obtain ⟨event, hread⟩ := hevents e he
      obtain ⟨t, htime, -⟩ := Store.exists_of_map_eq_ok hread
      refine ⟨some ⟨t, e.id⟩, ?_⟩
      rw [Store.readCursor, ht, hid]
      exact congrArg (Except.map _) htime
  refine ⟨⟨r.id, r.target, r.enabled, .both none, cursor, r.total, r.processed, .both {}⟩, ?_⟩
  exact ⟨rfl, rfl, rfl, rfl, hcursor⟩

theorem Store.hasAggregation_of_mem (hr : r ∈ st.aggregations) : st.hasAggregation r.id = true :=
  List.any_eq_true.2 ⟨r, hr, decide_eq_true rfl⟩

/-- **A step of either mode** from a copy of an exact row. -/
theorem Shift.IsOn.comesTo (hs : s.IsOn st) (hst : st.Sound) (hevents : st.EventsReadable)
    (hr : r ∈ st.aggregations) (ha : r.IsCopiedBy a) (size : Nat) (m : Mode) (cutoff : Instant) :
    s.ComesTo size a m cutoff (st.fullAccount r.target) := by
  obtain ⟨rfl, hpoisoned⟩ := hs
  have hhas := Store.hasAggregation_of_mem hr
  have hvouches := Job.vouches_start (hst.vouches_of_isCopiedBy hr ha) m size
  rw [← ha.id_eq] at hhas
  rw [← ha.target_eq]
  exact comesTo_step hpoisoned hst.numbered hevents hhas hvouches.isExact size cutoff

/-- **A full step** from a copy of a row that somebody has overwritten. -/
theorem Shift.IsOn.comesTo_overwritten {x : Store.Account}
    (hs : s.IsOn (st.changeAggregation r.id (AggregationRow.withAccount x))) (hst : st.Numbered)
    (hevents : st.EventsReadable) (hr : r ∈ st.aggregations) (ha : (r.withAccount x).IsCopiedBy a)
    (size : Nat) (cutoff : Instant) :
    s.ComesTo size a .full cutoff (st.fullAccount r.target) := by
  obtain ⟨hstore, hpoisoned⟩ := hs
  have hhas : s.store.hasAggregation a.id = true := by
    rw [hstore, ha.id_eq]
    refine Store.hasAggregation_of_mem (r := r.withAccount x) (Store.mem_changeAggregation.2 ?_)
    exact ⟨r, hr, (if_pos rfl).symm⟩
  have hnumbered : s.store.Numbered := hstore ▸ hst.changeAggregation r.id fun _ => rfl
  have hsame : s.store.events = st.events := by
    rw [hstore, Store.events_changeAggregation]
  have hcomes := comesTo_step hpoisoned hnumbered ((Store.eventsReadable_congr hsame).2 hevents)
    hhas (a.isExact_reset s.store) (m := .full) size cutoff
  rwa [Store.fullAccount_congr hsame, ha.target_eq] at hcomes

end Both

/-- **Both modes come to the same**, from any row after any session: the account of all events of
its target. So does the full mode from a row that somebody has overwritten, whatever with. Clock,
budget and page size may be any, and each row has a copy to start from. -/
theorem Session.modes_agree {w : World} {as : List Aggregation} (h : Session w as)
    {r : AggregationRow} (hr : r ∈ w.store.aggregations) :
    (∃ a, r.IsCopiedBy a) ∧
      (∀ a, r.IsCopiedBy a → ∀ s s' : Shift, s.IsOn w.store → s'.IsOn w.store →
        ∀ size size' cutoff cutoff',
          s.ComesTo size a .full cutoff (w.store.fullAccount r.target) ∧
            s'.ComesTo size' a .incremental cutoff' (w.store.fullAccount r.target)) ∧
      ∀ x a, (r.withAccount x).IsCopiedBy a → ∀ s : Shift,
        s.IsOn (w.store.changeAggregation r.id (AggregationRow.withAccount x)) →
          ∀ size cutoff, s.ComesTo size a .full cutoff (w.store.fullAccount r.target) := by
  obtain ⟨hstore, -, hevents⟩ := h.isSound
  refine ⟨hstore.exists_isCopiedBy hevents hr, ?_, ?_⟩
  · intro a ha s s' hs hs' size size' cutoff cutoff'
    exact ⟨hs.comesTo hstore hevents hr ha size .full cutoff,
      hs'.comesTo hstore hevents hr ha size' .incremental cutoff'⟩
  · intro x a ha s hs size cutoff
    exact hs.comesTo_overwritten hstore.numbered hevents hr ha size cutoff

/-! A run with no time to spare stops after the first event, and then a second one comes. -/

/-- A world of one target with one event, whose clock moves at every reading. -/
def tardyStart : World where
  clock := { wall := .epoch, tick := .ofSeconds 1 }
  database := { store := ((({} : Store).register 7).2.addEvent 7 10 .epoch).2 }

/-- The world after a run without time, and another event. -/
def tardyWorld : World :=
  let w := (perform { maxRuntime := .zero } 1 undisturbed tardyStart).2
  w.withStore (w.store.addEvent 7 20 (Instant.epoch + Span.ofSeconds 1)).2

/-- A copy of its row. -/
def tardyCopy : Aggregation :=
  { id := 1, target := 7, enabled := true, lastRun := .both none, cursor := some ⟨.epoch, 1⟩,
    total := 10, processed := 1, stats := .both {} }

/-- A shift in that world. -/
def tardyShift : Shift := ⟨tardyWorld, { start := .zero, allowed := .ofSeconds 250 }⟩

theorem session_tardyWorld : Session tardyWorld [] := by
  let w : World := { clock := { wall := .epoch, tick := .ofSeconds 1 } }
  have hregistered := (Session.start w rfl rfl).register 7
  have hstart := hregistered.addEvent 7 10 .epoch (by decide)
  exact (hstart.perform { maxRuntime := .zero } 1 undisturbed).addEvent 7 20
    (Instant.epoch + Span.ofSeconds 1) (by decide +kernel)

theorem fullAccount_tardyWorld : tardyWorld.store.fullAccount 7 = ⟨some 1000, some 2, 30, 2⟩ := by
  have hevents : tardyWorld.store.eventsOf 7 = [⟨1, 7, 0, 10⟩, ⟨2, 7, 1000, 20⟩] := by
    decide +kernel
  rw [Store.fullAccount, Store.lastEvent?, hevents, List.mergeSort_of_pairwise (by decide)]
  rfl

/-- **Both modes come to both events**, though the row has seen only the first. -/
theorem modes_agree_tardyWorld :
    tardyWorld.store.account? 1 = some ⟨some 0, some 1, 10, 1⟩ ∧
      tardyShift.ComesTo 1 tardyCopy .full .epoch ⟨some 1000, some 2, 30, 2⟩ ∧
      tardyShift.ComesTo 1 tardyCopy .incremental .epoch ⟨some 1000, some 2, 30, 2⟩ ∧
      ¬(tardyShift.step 1 tardyCopy .incremental .epoch).2.IsOver := by
  have hrows : tardyWorld.store.aggregations.map (fun r => (r.id, r.target, r.account)) =
      [(1, 7, ⟨some 0, some 1, 10, 1⟩)] := by decide +kernel
  obtain ⟨r, hr, hcolumns⟩ := List.map_eq_singleton_iff.1 hrows
  simp only [AggregationRow.account, Prod.mk.injEq, Store.Account.mk.injEq] at hcolumns
  obtain ⟨hid, htarget, htime, hevent, htotal, hprocessed⟩ := hcolumns
  have hcopy : r.IsCopiedBy tardyCopy := by
    refine ⟨hid.symm, htarget.symm, htotal.symm, hprocessed.symm, ?_⟩
    rw [Store.readCursor, htime, hevent]
    rfl
  obtain ⟨-, hboth, -⟩ := session_tardyWorld.modes_agree (hr ▸ List.mem_cons_self)
  obtain ⟨hfull, hincremental⟩ := hboth tardyCopy hcopy tardyShift tardyShift ⟨rfl, by decide +kernel⟩
    ⟨rfl, by decide +kernel⟩ 1 1 .epoch .epoch
  rw [htarget, fullAccount_tardyWorld] at hfull hincremental
  exact ⟨by decide +kernel, hfull, hincremental, by decide +kernel⟩

end Leasehold
