import Leasehold.Number.Cell
import Leasehold.Proofs.Aggregation.Ahead
import Leasehold.Proofs.Aggregation.Tour

/-!
# Sums of 64 bits

The totals of an aggregation, and what steps and workers count, are integers of 64 bits with sign,
and they are added up with plain additions. What becomes of a sum that leaves the 64 bits depends on
how the program was built: where sums are checked the worker breaks off at it, and otherwise the sum
wraps. Here integers have no bounds. That makes no difference as long as the sums **fit**
(`Leasehold.Aggregation.SumsFit`): a checked fold has an answer just when they do, and it is this
one (`Leasehold.Aggregation.foldlM_foldChecked?_eq_some_iff`), and a fold that wraps has the same
answer then (`Leasehold.Aggregation.foldl_foldWrapped`).

Until the first sum that does not fit, a step has the same in hand in all three. So the folds that
a step comes to are those behind folds that fit (`Leasehold.Shift.Reaches`). Where sums are checked
a step breaks off at the first one that does not, and if there is none, it goes on to its end as it
does here.

Which sums a step makes can be told beforehand: they are those of fronts of the events ahead
(`Leasehold.Shift.Reaches.exists_front`).
-/

namespace Leasehold

open Store (AggregationRow EventRow)

/-! ### One fold after another -/

namespace Aggregation

variable {a b : Aggregation} {es es' : List Event}

/-- **Total and number of events have 64 bits** with sign. -/
def InWords (a : Aggregation) : Prop := Cell.InRange a.total ∧ Cell.InRange a.processed

instance (a : Aggregation) : Decidable a.InWords := inferInstanceAs (Decidable (_ ∧ _))

/-- **The sums fit** that are made when events are folded, one after another. -/
def SumsFit : Aggregation → List Event → Prop
  | _, [] => True
  | a, e :: es => (a.fold e).InWords ∧ (a.fold e).SumsFit es

instance decidableSumsFit : ∀ (a : Aggregation) (es : List Event), Decidable (a.SumsFit es)
  | _, [] => inferInstanceAs (Decidable True)
  | a, e :: es =>
    have := decidableSumsFit (a.fold e) es
    inferInstanceAs (Decidable (_ ∧ _))

theorem InWords.foldAll (ha : a.InWords) (h : a.SumsFit es) : (a.foldAll es).InWords := by
  induction es generalizing a with
  | nil => exact ha
  | cons e es ih => exact ih h.1 h.2

theorem SumsFit.of_append (h : a.SumsFit (es ++ es')) : (a.foldAll es).SumsFit es' := by
  induction es generalizing a with
  | nil => exact h
  | cons e es ih => exact ih h.2

theorem SumsFit.of_prefix (h : a.SumsFit es) (hp : es' <+: es) : a.SumsFit es' := by
  obtain ⟨rest, rfl⟩ := hp
  induction es' generalizing a with
  | nil => trivial
  | cons e es ih => exact ⟨h.1, ih h.2⟩

/-- Folds one event where sums are checked; a sum that does not fit has no answer. -/
def foldChecked? (a : Aggregation) (e : Event) : Option Aggregation :=
  if (a.fold e).InWords then some (a.fold e) else none

/-- **Checked folds have an answer just when their sums fit**, and it is that of plain folds. -/
theorem foldlM_foldChecked?_eq_some_iff :
    es.foldlM foldChecked? a = some b ↔ a.SumsFit es ∧ b = a.foldAll es := by
  induction es generalizing a with
  | nil =>
    rw [List.foldlM_nil, Option.pure_def, Option.some_inj]
    exact ⟨fun h => ⟨trivial, h.symm⟩, fun h => h.2.symm⟩
  | cons e es ih =>
    rw [List.foldlM_cons, foldChecked?]
    by_cases h : (a.fold e).InWords
    · rw [if_pos h, Option.bind_eq_bind, Option.bind_some, ih]
      exact ⟨fun ⟨hfit, hb⟩ => ⟨⟨h, hfit⟩, hb⟩, fun ⟨hfit, hb⟩ => ⟨hfit.2, hb⟩⟩
    · rw [if_neg h]
      constructor
      · intro hnone
        cases hnone
      · rintro ⟨hfit, -⟩
        exact absurd hfit.1 h

/-- Folds one event where sums wrap. -/
def foldWrapped (a : Aggregation) (e : Event) : Aggregation :=
  { a.fold e with
    total := (a.fold e).total.bmod 18446744073709551616
    processed := (a.fold e).processed.bmod 18446744073709551616 }

theorem bmod_of_inRange {n : Int} (h : Cell.InRange n) : n.bmod 18446744073709551616 = n := by
  obtain ⟨hleast, hgreatest⟩ := h
  unfold Cell.least Cell.greatest at *
  exact Int.bmod_eq_of_le (by omega) (by omega)

/-- **Nothing wraps where the sums fit.** -/
theorem foldl_foldWrapped (h : a.SumsFit es) : es.foldl foldWrapped a = a.foldAll es := by
  induction es generalizing a with
  | nil => rfl
  | cons e es ih =>
    have hfold : a.foldWrapped e = a.fold e := by
      rw [foldWrapped, bmod_of_inRange h.1.1, bmod_of_inRange h.1.2]
    rw [List.foldl_cons, hfold]
    exact ih h.2

end Aggregation

/-- **Total and number of events of a row have 64 bits** with sign. -/
def Store.AggregationRow.InWords (r : AggregationRow) : Prop :=
  Cell.InRange r.total ∧ Cell.InRange r.processed

instance (r : AggregationRow) : Decidable r.InWords := inferInstanceAs (Decidable (_ ∧ _))

/-- So they have in all rows of a store. -/
def Store.InWords (s : Store) : Prop := ∀ r ∈ s.aggregations, r.InWords

instance (s : Store) : Decidable s.InWords := inferInstanceAs (Decidable (∀ r ∈ _, _))

theorem inWords_of_read {r : AggregationRow} {a : Aggregation} (h : r.read = .ok a) :
    a.InWords ↔ r.InWords := by
  obtain ⟨-, -, htotal, hprocessed, -⟩ := AggregationRow.read_eq_ok h
  rw [Aggregation.InWords, htotal, hprocessed, AggregationRow.InWords]

/-- Where a step starts, it has words if its aggregation has. -/
theorem Aggregation.InWords.startOf {a : Aggregation} (h : a.InWords) (m : Mode) :
    (Shift.startOf m a).InWords := by
  cases m with
  | incremental => exact h
  | full =>
    have hzero : Cell.InRange 0 := by decide
    exact ⟨hzero, hzero⟩

/-! ### The folds of a step -/

namespace Shift

variable {s s' s'' : Shift} {a b : Aggregation} {size n k : Nat} {es es' : List Event}

/-- **A page that is about to be folded** by a step. -/
structure Fold where
  /-- What it is folded onto. -/
  onto : Aggregation
  /-- How many events the step has folded before. -/
  folded : Nat
  /-- The events of the page. -/
  events : List Event
  /-- The shift in which it was read. -/
  shift : Shift

/-- **The sums of a fold fit**: those of the aggregation, and the count of the step. -/
def Fold.Fits (f : Fold) : Prop :=
  f.onto.SumsFit f.events ∧ Cell.InRange (f.folded + f.events.length : Nat)

instance (f : Fold) : Decidable f.Fits := inferInstanceAs (Decidable (_ ∧ _))

/-- **The folds that pages reach**, as far as the sums before them fit. -/
inductive Reaches (size : Nat) : Aggregation → Nat → Shift → Fold → Prop
  /-- The page that is read now. -/
  | here {s : Shift} {a : Aggregation} {n : Nat} {es : List Event}
      (hpage : s.page (max size 1) a = .ok es) : Reaches size a n s ⟨a, n, es, s⟩
  /-- A page after this one, which is full and was saved when there was time left. -/
  | later {s s' s'' : Shift} {a : Aggregation} {n : Nat} {es : List Event} {f : Fold}
      (hpage : s.page (max size 1) a = .ok es) (hfull : ¬es.length < max size 1)
      (hfits : Fold.Fits ⟨a, n, es, s⟩) (hsave : s.save (a.foldAll es) = (.ok (), s'))
      (hcheck : s'.check = (false, s'')) (h : Reaches size (a.foldAll es) (n + es.length) s'' f) :
      Reaches size a n s f

/-- **The sums of a step are those of fronts of the events ahead.** -/
theorem Reaches.exists_front {f : Fold} (h : s.Reaches size a n f)
    (hs : s.store.events.Pairwise fun a b => a.id ≠ b.id)
    (hn : (s.ahead a).length < 9223372036854775808) :
    ∃ es, f.onto = a.foldAll es ∧ f.folded = n + es.length ∧
      List.Forall₂ (fun r e => EventRow.read r = .ok e)
        ((s.ahead a).take (es ++ f.events).length) (es ++ f.events) := by
  induction h with
  | here hpage => exact ⟨[], rfl, rfl, (read_of_page hn hpage).2⟩
  | @later s s' s'' a n es f hpage hfull hfits hsave hcheck h ih =>
    obtain ⟨hlength, hread⟩ := read_of_page hn hpage
    obtain ⟨hahead, -⟩ := ahead_of_page hs hpage hsave hcheck
    have hwithin : Within a.id s s'' := (Within.of_save hsave).trans (.of_check hcheck)
    rw [hwithin.store.events, hahead, List.length_drop] at ih
    obtain ⟨es', honto, hfolded, hread'⟩ := ih hs (by omega)
    refine ⟨es ++ es', ?_, ?_, ?_⟩
    · rw [honto]
      exact List.foldl_append.symm
    · rw [hfolded, List.length_append, Nat.add_assoc]
    · rw [List.append_assoc, List.length_append, List.take_add]
      exact List.rel_append hread hread'

/-- **The sums over the events ahead fit**, however far they are folded. -/
structure AheadFits (a : Aggregation) (s : Shift) : Prop where
  /-- The events can be counted. -/
  length_lt : (s.ahead a).length < 9223372036854775808
  /-- The sums over a front of them fit. -/
  front : ∀ es, List.Forall₂ (fun r e => EventRow.read r = .ok e)
    ((s.ahead a).take es.length) es → a.SumsFit es

/-- **Where all events can be read** it is enough that the sums of all of them fit. -/
theorem aheadFits_of_read {rows : List EventRow} (hahead : s.ahead a = rows)
    (hread : List.Forall₂ (fun r e => EventRow.read r = .ok e) rows es)
    (hn : es.length < 9223372036854775808) (h : a.SumsFit es) : s.AheadFits a := by
  subst hahead
  refine ⟨hread.length_eq ▸ hn, fun es' hread' => ?_⟩
  -- A row is read as one event.
  have hunique : Relator.RightUnique fun (r : EventRow) (e : Event) => r.read = .ok e :=
    fun r e e' he he' => Except.ok.inj (he.symm.trans he')
  refine h.of_prefix (List.prefix_iff_eq_take.2 ?_)
  exact List.right_unique_forall₂' hunique hread' (List.forall₂_take es'.length hread)

/-- **The sums of a step fit** if those over the events ahead do. -/
theorem Reaches.fits {f : Fold} (h : s.Reaches size a 0 f)
    (hs : s.store.events.Pairwise fun a b => a.id ≠ b.id) (hfits : s.AheadFits a) : f.Fits := by
  obtain ⟨es, honto, hfolded, hread⟩ := h.exists_front hs hfits.length_lt
  have hn := hfits.length_lt
  have hlength := hread.length_eq
  rw [List.length_take, List.length_append] at hlength
  refine ⟨?_, ?_⟩
  · rw [honto]
    exact (hfits.front _ hread).of_append
  · rw [Cell.InRange, Cell.least, Cell.greatest, hfolded]
    omega

end Shift

/-! ### Visits -/

namespace Visit

variable {p : Terms} {s : Shift} {v : Visit}

/-- How many events a visit folds, as far as they are counted: those of a step that ends well. -/
def folded (v : Visit) : Nat :=
  match v.answer with
  | .ok o => o.processed
  | .error _ => 0

/-- **The folds that a visit reaches**: those of its step, unless it is refused. -/
def Reaches (p : Terms) (v : Visit) (f : Shift.Fold) : Prop :=
  v.answer ≠ .error .refused ∧ ∃ a, v.row.read = .ok a ∧
    (v.before.begun p.circumstances a).readElapsed.2.Reaches p.pageSize (Shift.startOf p.mode a) 0 f

/-- **The sums of a visit fit.** -/
def SumsFit (p : Terms) (v : Visit) : Prop := ∀ f, v.Reaches p f → f.Fits

theorem sumsFit_of_refused (h : v.answer = .error .refused) : v.SumsFit p :=
  fun _ hf => absurd h hf.1

/-- **Whether the sums of a visit fit** can be told from the events that there are. -/
theorem Made.sumsFit (h : v.Made p s) (hs : s.store.events.Pairwise fun a b => a.id ≠ b.id)
    (hfits : ∀ a, v.row.read = .ok a → s.AheadFits (Shift.startOf p.mode a)) : v.SumsFit p := by
  rintro f ⟨-, a, ha, hf⟩
  -- Neither the visits before nor the beginning of this one have touched the events.
  have hahead : (v.before.begun p.circumstances a).readElapsed.2.ahead (Shift.startOf p.mode a) =
      s.ahead (Shift.startOf p.mode a) := Store.rowsAhead_congr h.before.events _ _
  obtain ⟨hn, hfront⟩ := hfits a ha
  rw [← hahead] at hn hfront
  rw [← h.before.events] at hs
  exact hf.fits hs ⟨hn, hfront⟩

end Visit

end Leasehold
