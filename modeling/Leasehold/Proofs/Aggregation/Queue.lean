import Leasehold.Proofs.Aggregation.Visiting

/-!
# No aggregation starves

A run of the worker may stop after a single step, and a step may fail each time it is tried. Still
every aggregation that is due gets its turn, after as many runs as there are aggregations due
(`Leasehold.InTurn.none_starves`), because the order of turns acts as a queue. A run takes rows from
the front of it; whatever became of their steps, they are marked no earlier than the cutoff of the
run, so they are at the end from then on, behind all that were due before.

| what a queue needs | where it comes from |
|---|---|
| runs take from the front | `Leasehold.exists_visiting_left` |
| the rest keeps its order | the same, and `Leasehold.Store.filter_dueInOrder` |
| what is earlier due is in front | `Leasehold.Store.isDue_head` |
| each run takes something | `Leasehold.Invocation.Begins` |
| what it takes is marked | `Leasehold.Invocation.SumsFit` |

The last two are hypotheses. A run that fails before it has begun a step takes nothing, and if it
fails because a row at the front cannot be read, so does every later one: then all that are due
starve together (`Leasehold.not_none_starves_blocked`). And where sums are checked, a run that
breaks off at a sum leaves the row of that step unmarked (`Leasehold.Invocation.Goes`), in front of
all that wait behind it.
-/

namespace Leasehold

open Store (AggregationRow)

/-! ### What is due since earlier -/

namespace Store

variable {s s' : Store} {m : Mode} {T cutoff : Int} {r : AggregationRow}
  {rest : List AggregationRow}

theorem AggregationRow.isDue_mono (hT : T ≤ cutoff) (h : r.isDue m T = true) :
    r.isDue m cutoff = true := by
  unfold isDue at *
  cases hr : r.lastRun.get m with
  | none => simpa [hr] using h
  | some ms =>
    simp only [hr, Bool.and_eq_true, decide_eq_true_eq] at h ⊢
    exact ⟨h.1, Int.lt_of_lt_of_le h.2 hT⟩

/-- What has its turn before a row that is due earlier is due earlier, too. -/
theorem AggregationRow.isDue_of_noLater {r' : AggregationRow} (h : r.noLater m r' = true)
    (hr' : r'.isDue m T = true) (hr : r.enabled = true) : r.isDue m T = true := by
  unfold noLater at h
  unfold isDue at *
  cases hx : r.lastRun.get m with
  | none => simp [hr]
  | some x =>
    cases hy : r'.lastRun.get m with
    | none => simp [hx, hy] at h
    | some y =>
      simp only [hx, hy, hr, Bool.or_eq_true, Bool.and_eq_true, decide_eq_true_eq,
        Bool.true_and] at *
      omega

theorem dueInOrder_congr (h : s'.aggregations = s.aggregations) (m : Mode) (cutoff : Int) :
    s'.dueInOrder m cutoff = s.dueInOrder m cutoff := by
  rw [dueInOrder, due, h, dueInOrder, due]

/-- **What was due earlier has the same order** among all that is due now. -/
theorem filter_dueInOrder (hs : s.aggregations.Pairwise fun a b => a.id ≠ b.id) (m : Mode)
    (hT : T ≤ cutoff) :
    (s.dueInOrder m cutoff).filter (AggregationRow.isDue m T) = s.dueInOrder m T := by
  refine (dueInOrder_eq ?_ ((s.id_ne_dueInOrder hs m cutoff).filter _)
    ((s.pairwise_dueInOrder m cutoff).filter _)).symm
  have hdue : (s.due m cutoff).filter (AggregationRow.isDue m T) = s.due m T := by
    rw [due, List.filter_filter]
    refine List.filter_congr fun r _ => ?_
    cases h : r.isDue m T with
    | true => rw [AggregationRow.isDue_mono hT h, Bool.and_self]
    | false => rw [Bool.false_and]
  rw [← hdue]
  exact ((s.dueInOrder_perm m cutoff).filter _).symm

/-- **The front of the queue was due earlier** if anything was. -/
theorem isDue_head (h : s.dueInOrder m cutoff = r :: rest) (hT : T ≤ cutoff)
    (hdue : s.dueInOrder m T ≠ []) : r.isDue m T = true := by
  obtain ⟨r', hr'⟩ := List.exists_mem_of_ne_nil _ hdue
  obtain ⟨hmem, hearlier⟩ := mem_dueInOrder.1 hr'
  have hnow : r' ∈ s.dueInOrder m cutoff :=
    mem_dueInOrder.2 ⟨hmem, AggregationRow.isDue_mono hT hearlier⟩
  have hsorted := s.pairwise_dueInOrder m cutoff
  have hr : r ∈ s.dueInOrder m cutoff := h ▸ List.mem_cons_self
  rw [h] at hnow hsorted
  rcases List.mem_cons.1 hnow with rfl | hlater
  · exact hearlier
  · refine AggregationRow.isDue_of_noLater ((List.pairwise_cons.1 hsorted).1 r' hlater) hearlier ?_
    exact (Bool.and_eq_true_iff.1 (mem_dueInOrder.1 hr).2).1

end Store

/-! ### Invocations -/

/-- **An invocation of the worker**: what it is told, what its steps meet with, and the world in
which it begins. -/
structure Invocation where
  /-- What the worker is told. -/
  options : WorkerOptions
  /-- How many events a step takes at a time. -/
  pageSize : Nat
  /-- What the steps meet with. -/
  circumstances : Circumstances
  /-- The world. -/
  world : World

namespace Invocation

/-- How it ends. -/
def run (i : Invocation) : Except Store.Fault Report × World :=
  perform i.options i.pageSize i.circumstances i.world

/-- **It visits** some rows, one after another. -/
abbrev Visits (i : Invocation) (vs : List Visit) : Prop :=
  Visiting i.options i.pageSize i.circumstances i.world vs

/-- The visits it has begun. -/
abbrev visits (i : Invocation) : List Visit :=
  i.world.visits i.options i.pageSize i.circumstances

/-- What they go by. -/
abbrev terms (i : Invocation) : Terms := i.world.terms i.options i.pageSize i.circumstances

/-- **Its sums fit.** -/
abbrev SumsFit (i : Invocation) : Prop := i.world.SumsFit i.options i.pageSize i.circumstances

/-- **It steps a row**, as the row was when the invocation began. -/
def Steps (i : Invocation) (r : AggregationRow) : Prop :=
  ∃ vs, i.Visits vs ∧ r ∈ vs.map Visit.row

/-- It reports that it caught up. -/
def CaughtUp (i : Invocation) : Prop :=
  ∃ report, i.run.1 = .ok report ∧ report.stopReason = .caughtUp

/-- **It does not fail before it has begun a step.** -/
def Begins (i : Invocation) : Prop :=
  (∃ report, i.run.1 = .ok report) ∨ i.run.2.begun ≠ i.world.begun

variable {i : Invocation} {vs : List Visit} {T : Int}

/-- Where the rows that are due can be read, an invocation ends with a report. -/
theorem begins_of_readable (hs : i.world.database.isPoisoned = false)
    (hid : i.world.store.aggregations.Pairwise fun a b => a.id ≠ b.id)
    (hread : ∀ r ∈ i.world.store.aggregations, ∃ a, r.read = .ok a) : i.Begins :=
  .inl ⟨_, congrArg Prod.fst (perform_of_readable i.options i.pageSize i.circumstances hs hid
    fun r hr => hread r (Store.mem_dueInOrder.1 hr).1)⟩

/-- What caught up has visited all that was due. -/
theorem map_row_of_caughtUp (hvs : i.Visits vs) (h : i.CaughtUp) :
    vs.map Visit.row = i.world.store.dueInOrder i.options.mode i.world.now.millis := by
  obtain ⟨report, hok, hcaught⟩ := h
  rcases hvs.stops report hok with ⟨hover, -⟩ | ⟨-, hall, -⟩
  · rw [hcaught] at hover
    cases hover
  · exact hall

/-- **What begins visits something**, if anything is due. -/
theorem visits_ne_nil (hvs : i.Visits vs) (h : i.Begins)
    (hdue : i.world.store.dueInOrder i.options.mode i.world.now.millis ≠ []) : vs ≠ [] := by
  rintro rfl
  rcases h with ⟨report, hok⟩ | hbegun
  · rcases hvs.stops report hok with ⟨-, v, hv, -⟩ | ⟨-, hall, -⟩
    · cases hv
    · exact hdue hall.symm
  · exact hbegun hvs.begun

/-- **One invocation takes from the front of the queue**: something if it does not fail at once, and
everything if it catches up. -/
theorem exists_stepped (hid : i.world.store.aggregations.Pairwise fun a b => a.id ≠ b.id)
    (hT : T ≤ i.world.now.millis) :
    ∃ front, i.world.store.dueInOrder i.options.mode T =
        front ++ i.run.2.store.dueInOrder i.options.mode T ∧
      (∀ r ∈ front, i.Steps r) ∧
      (i.Begins → i.world.store.dueInOrder i.options.mode T ≠ [] → front ≠ []) ∧
      (i.CaughtUp → i.run.2.store.dueInOrder i.options.mode T = []) ∧
      i.run.2.store.aggregations.Pairwise fun a b => a.id ≠ b.id := by
  obtain ⟨vs, hvs, hleft, hid'⟩ :=
    exists_visiting_left i.options i.pageSize i.circumstances hid
  change _ = _ ++ i.run.2.store.dueInOrder _ _ at hleft
  change i.run.2.store.aggregations.Pairwise _ at hid'
  refine ⟨(vs.map Visit.row).filter (AggregationRow.isDue i.options.mode T), ?_, ?_, ?_, ?_, hid'⟩
  · rw [← Store.filter_dueInOrder hid i.options.mode hT, hleft, List.filter_append]
    exact congrArg _ (Store.filter_dueInOrder hid' i.options.mode hT)
  · intro r hr
    exact ⟨vs, hvs, (List.mem_filter.1 hr).1⟩
  · intro hbegins hdue
    have hnow : i.world.store.dueInOrder i.options.mode i.world.now.millis ≠ [] := by
      intro hnone
      rw [← Store.filter_dueInOrder hid i.options.mode hT, hnone] at hdue
      exact hdue rfl
    obtain ⟨v, vs', rfl⟩ := List.exists_cons_of_ne_nil (visits_ne_nil hvs hbegins hnow)
    have hhead := Store.isDue_head hleft hT hdue
    rw [List.map_cons, List.filter_cons_of_pos hhead]
    exact List.cons_ne_nil _ _
  · intro hcaught
    rw [map_row_of_caughtUp hvs hcaught] at hleft
    rw [← Store.filter_dueInOrder hid' i.options.mode hT]
    have hnone := List.self_eq_append_right.1 hleft
    exact (congrArg (List.filter _) hnone).trans rfl

end Invocation

/-! ### One after another -/

/-- **How an invocation goes**: the visits it finishes, and what it leaves. It goes to its end if
all its sums fit. Where sums are checked it breaks off at the first one that does not, and leaves
what was saved by then. Where they wrap nothing is said of it. -/
inductive Invocation.Goes (i : Invocation) : List Visit → Store → Prop
  /-- It goes to its end. -/
  | whole (h : i.SumsFit) : i.Goes i.visits i.run.2.store
  /-- It breaks off at a page of a step. -/
  | inStep {vs : List Visit} {v : Visit} {f : Shift.Fold} (hvs : vs ++ [v] <+: i.visits)
      (hfits : ∀ v' ∈ vs, v'.SumsFit i.terms) (hreaches : v.Reaches i.terms f) (hf : ¬f.Fits) :
      i.Goes vs f.shift.store
  /-- It breaks off after a step, when it counts the events of all steps. -/
  | afterStep {vs : List Visit} {v : Visit} (hvs : vs ++ [v] <+: i.visits)
      (hfits : ∀ v' ∈ vs ++ [v], v'.SumsFit i.terms)
      (hrecords : ¬Cell.InRange ((vs ++ [v]).map Visit.folded).sum) : i.Goes vs v.after.store

/-- **An invocation and how it goes.** -/
structure Course where
  /-- The invocation. -/
  invocation : Invocation
  /-- The visits it finishes. -/
  visits : List Visit
  /-- What it leaves. -/
  left : Store
  /-- That is how it goes. -/
  goes : invocation.Goes visits left

/-- An invocation that goes to its end. -/
def Invocation.whole (i : Invocation) (h : i.SumsFit) : Course :=
  ⟨i, i.visits, i.run.2.store, .whole h⟩

/-- **An invocation whose sums fit goes to its end.** -/
theorem Course.left_eq (c : Course) (h : c.invocation.SumsFit) :
    c.left = c.invocation.run.2.store := by
  obtain ⟨i, vs, left, hgoes⟩ := c
  cases hgoes with
  | whole => rfl
  | inStep hvs _ hreaches hf =>
    exact absurd (h.visits _ (hvs.subset List.mem_concat_self) _ hreaches) hf
  | afterStep hvs _ hrecords =>
    obtain ⟨rest, hrest⟩ := hvs
    have hall := h.records
    change Cell.InRange (i.visits.map Visit.folded).sum at hall
    rw [← hrest, List.map_append, List.sum_append] at hall
    unfold Cell.InRange Cell.least Cell.greatest at hall hrecords
    omega

/-- **Invocations one after another**, as they go: each finds the aggregations as the one before has
left them. In between anything else may happen, to the clock in particular. -/
inductive InTurn : Store → List Course → Prop
  /-- None is left. -/
  | nil (s : Store) : InTurn s []
  /-- One more, and then the rest. -/
  | cons {s : Store} {c : Course} {cs : List Course}
      (hrows : c.invocation.world.store.aggregations = s.aggregations) (h : InTurn c.left cs) :
      InTurn s (c :: cs)

namespace InTurn

variable {s : Store} {cs : List Course} {m : Mode} {T : Int}

/-- **Invocations take from the front of the queue**: at least as many rows as they are, or all. -/
theorem exists_stepped (h : InTurn s cs)
    (hid : s.aggregations.Pairwise fun a b => a.id ≠ b.id)
    (hcs : ∀ c ∈ cs, c.invocation.options.mode = m ∧ T ≤ c.invocation.world.now.millis)
    (hfits : ∀ c ∈ cs, c.invocation.SumsFit) :
    ∃ front rest, s.dueInOrder m T = front ++ rest ∧
      (∀ r ∈ front, ∃ c ∈ cs, c.invocation.Steps r) ∧
      ((∀ c ∈ cs, c.invocation.Begins) → cs.length ≤ front.length ∨ rest = []) ∧
      ((∃ c ∈ cs, c.invocation.CaughtUp) → rest = []) := by
  induction h with
  | nil s =>
    refine ⟨[], _, rfl, List.forall_mem_nil _, fun _ => .inl (Nat.le_refl _), ?_⟩
    rintro ⟨c, hc, -⟩
    cases hc
  | @cons s c cs hrows h ih =>
    obtain ⟨⟨rfl, hT⟩, hlater⟩ := List.forall_mem_cons.1 hcs
    obtain ⟨hfit, hfits⟩ := List.forall_mem_cons.1 hfits
    rw [← hrows] at hid
    obtain ⟨front, hfront, hsteps, hbegins, hcaught, hid'⟩ := c.invocation.exists_stepped hid hT
    rw [← c.left_eq hfit] at hfront hcaught hid'
    obtain ⟨front', rest, hfront', hsteps', hbegins', hcaught'⟩ := ih hid' hlater hfits
    rw [Store.dueInOrder_congr hrows.symm]
    refine ⟨front ++ front', rest, ?_, ?_, ?_, ?_⟩
    · rw [hfront, hfront', List.append_assoc]
    · intro r hr
      rcases List.mem_append.1 hr with hr | hr
      · exact ⟨c, List.mem_cons_self, hsteps r hr⟩
      · obtain ⟨d, hd, hsteps⟩ := hsteps' r hr
        exact ⟨d, List.mem_cons_of_mem c hd, hsteps⟩
    · intro hall
      obtain ⟨hfirst, hrest⟩ := List.forall_mem_cons.1 hall
      by_cases hnone : c.invocation.world.store.dueInOrder c.invocation.options.mode T = []
      · rw [hfront, hfront'] at hnone
        exact .inr (List.append_eq_nil_iff.1 (List.append_eq_nil_iff.1 hnone).2).2
      · have hpos := List.length_pos_iff.2 (hbegins hfirst hnone)
        rw [List.length_append, List.length_cons]
        exact (hbegins' hrest).imp_left fun hle => by omega
    · rintro ⟨d, hd, hdcaught⟩
      rcases List.mem_cons.1 hd with rfl | hd
      · rw [hcaught hdcaught] at hfront'
        exact (List.append_eq_nil_iff.1 hfront'.symm).2
      · exact hcaught' ⟨d, hd, hdcaught⟩

/-- **No aggregation starves.** Of the aggregations that are due at some time, each has been stepped
after as many invocations as there are, whatever their budgets, batches, pages and circumstances, if
their sums fit and none fails before it has begun a step; and one invocation is enough if it catches
up. -/
theorem none_starves (h : InTurn s cs) (hid : s.aggregations.Pairwise fun a b => a.id ≠ b.id)
    (hcs : ∀ c ∈ cs, c.invocation.options.mode = m ∧ T ≤ c.invocation.world.now.millis)
    (hfits : ∀ c ∈ cs, c.invocation.SumsFit)
    (hend : (s.due m T).length ≤ cs.length ∧ (∀ c ∈ cs, c.invocation.Begins) ∨
      ∃ c ∈ cs, c.invocation.CaughtUp) :
    ∀ r ∈ s.due m T, ∃ c ∈ cs, c.invocation.Steps r := by
  obtain ⟨front, rest, hsplit, hsteps, hbegins, hcaught⟩ := h.exists_stepped hid hcs hfits
  have hlength := (s.dueInOrder_perm m T).length_eq
  obtain rfl : rest = [] := by
    rcases hend with ⟨hle, hall⟩ | hcaughtUp
    · rcases hbegins hall with hmany | hnone
      · rw [hsplit, List.length_append] at hlength
        exact List.length_eq_zero_iff.1 (by omega)
      · exact hnone
    · exact hcaught hcaughtUp
  intro r hr
  refine hsteps r ?_
  rw [← List.append_nil front, ← hsplit]
  exact (s.dueInOrder_perm m T).mem_iff.2 hr

end InTurn

/-! ### Two invocations without time -/

/-- All steps fail. -/
def refusing : Circumstances := fun _ _ => { fails := true }

/-- An invocation that has no time, on some rows. -/
def hurried (rows : List AggregationRow) : Invocation where
  options := { maxRuntime := .zero }
  pageSize := defaultPageSize
  circumstances := refusing
  world := { clock := { wall := .epoch }, database := { store := { aggregations := rows } } }

/-- Two aggregations that never ran. -/
def waitingRows : List AggregationRow := [{ id := 1, target := 7 }, { id := 2, target := 8 }]

/-- The first one was tried. -/
def triedRows : List AggregationRow :=
  [{ id := 1, target := 7, lastRun := ⟨some 0, none⟩ }, { id := 2, target := 8 }]

theorem readable_waitingRows : ∀ r ∈ waitingRows, ∃ a, r.read = .ok a :=
  List.forall_mem_cons.2 ⟨⟨_, rfl⟩, List.forall_mem_singleton.2 ⟨_, rfl⟩⟩

theorem readable_triedRows : ∀ r ∈ triedRows, ∃ a, r.read = .ok a :=
  List.forall_mem_cons.2 ⟨⟨_, rfl⟩, List.forall_mem_singleton.2 ⟨_, rfl⟩⟩

/-- An invocation that has no time goes to its end, since it makes no sums. -/
def hurriedCourse (rows : List AggregationRow) : Course :=
  (hurried rows).whole (sumsFit_of_fails fun _ _ => rfl)

/-- The second invocation finds the rows as the first has left them. -/
theorem inTurn_hurried :
    InTurn (hurried waitingRows).world.store
      [hurriedCourse waitingRows, hurriedCourse triedRows] := by
  refine .cons rfl (.cons ?_ (.nil _))
  have hdue : (hurried waitingRows).world.store.dueInOrder .incremental 0 = waitingRows :=
    Store.dueInOrder_eq (.refl _) (by decide +kernel) (by decide +kernel)
  have hrun := perform_of_readable (w := (hurried waitingRows).world) { maxRuntime := .zero }
    defaultPageSize refusing rfl (by decide +kernel) fun r hr =>
      readable_waitingRows r (Store.mem_dueInOrder.1 hr).1
  refine Eq.trans ?_ (congrArg (fun x => x.2.store.aggregations) hrun).symm
  change triedRows = ((Shift.opening { maxRuntime := .zero } (hurried waitingRows).world).tour
    ((hurried waitingRows).world.terms { maxRuntime := .zero } defaultPageSize refusing)
    ((hurried waitingRows).world.store.dueInOrder .incremental 0)).last.store.aggregations
  rw [hdue]
  rfl

/-- **Two invocations step two aggregations**, though neither has time and every step fails. -/
theorem none_starves_hurried :
    (hurried waitingRows).world.store.due .incremental 0 = waitingRows ∧
      ∀ r ∈ waitingRows, ∃ c ∈ [hurriedCourse waitingRows, hurriedCourse triedRows],
        c.invocation.Steps r := by
  have hterms : ∀ c ∈ [hurriedCourse waitingRows, hurriedCourse triedRows],
      c.invocation.options.mode = .incremental ∧ 0 ≤ c.invocation.world.now.millis := by
    decide +kernel
  have hwaiting : (hurried waitingRows).Begins :=
    Invocation.begins_of_readable rfl (by decide +kernel) readable_waitingRows
  have htried : (hurried triedRows).Begins :=
    Invocation.begins_of_readable rfl (by decide +kernel) readable_triedRows
  have hfits : ∀ rows, (hurried rows).SumsFit := fun _ => sumsFit_of_fails fun _ _ => rfl
  refine ⟨rfl, inTurn_hurried.none_starves (by decide +kernel) hterms ?_ (.inl ⟨?_, ?_⟩)⟩
  · exact List.forall_mem_cons.2 ⟨hfits _, List.forall_mem_singleton.2 (hfits _)⟩
  · exact Nat.le_refl 2
  · exact List.forall_mem_cons.2 ⟨hwaiting, List.forall_mem_singleton.2 htried⟩

/-! ### A row at the front that cannot be read -/

/-- Two aggregations that never ran, and somebody else has written the statistics of the first. -/
def blockedRows : List AggregationRow :=
  [{ id := 1, target := 7, stats := ⟨.foreign "x", .foreign "\x7b\x7d"⟩ }, { id := 2, target := 8 }]

/-- A hurried invocation on them fails before it has begun a step, and leaves them as they are. -/
theorem run_blockedRows : (hurried blockedRows).run = (.error (.statsUnreadable .incremental),
    (Shift.opening { maxRuntime := .zero } (hurried blockedRows).world).world) := by
  have hdue : (hurried blockedRows).world.store.dueInOrder .incremental 0 = blockedRows :=
    Store.dueInOrder_eq (.refl _) (by decide +kernel) (by decide +kernel)
  have hbatch : (Shift.opening { maxRuntime := .zero } (hurried blockedRows).world).batch
      .incremental (hurried blockedRows).world.now (max 100 1) =
        (Store.limited (max 100 1) ((hurried blockedRows).world.store.dueInOrder .incremental
          0)).mapM AggregationRow.read := rfl
  rw [hdue] at hbatch
  have hrun := perform_eq { maxRuntime := .zero } defaultPageSize refusing
    (hurried blockedRows).world
  rw [Shift.runBatches_of_error (p := (hurried blockedRows).world.terms { maxRuntime := .zero }
    defaultPageSize refusing) (hbatch.trans rfl)] at hrun
  exact hrun

/-- **Both aggregations starve** if every invocation fails when it loads its first batch. -/
theorem not_none_starves_blocked :
    InTurn (hurried blockedRows).world.store
        [hurriedCourse blockedRows, hurriedCourse blockedRows] ∧
      (hurried blockedRows).options.mode = .incremental ∧
      0 ≤ (hurried blockedRows).world.now.millis ∧
      (hurried blockedRows).world.store.due .incremental 0 = blockedRows ∧
      ∀ c ∈ [hurriedCourse blockedRows, hurriedCourse blockedRows], ∀ r,
        ¬c.invocation.Steps r := by
  have hnone : ∀ r, ¬(hurried blockedRows).Steps r := by
    rintro r ⟨vs, hvs, hr⟩
    have hbegun := hvs.begun
    change (hurried blockedRows).run.2.begun = _ at hbegun
    rw [run_blockedRows] at hbegun
    have hnil := List.append_eq_nil_iff.1 hbegun.symm
    rw [List.reverse_eq_nil_iff, List.map_eq_nil_iff] at hnil
    rw [hnil.1] at hr
    cases hr
  refine ⟨.cons rfl (.cons ?_ (.nil _)), rfl, by decide +kernel, rfl, ?_⟩
  · exact congrArg (fun x => x.2.store.aggregations) run_blockedRows.symm
  · exact List.forall_mem_cons.2 ⟨hnone, List.forall_mem_singleton.2 hnone⟩

end Leasehold
