import Leasehold.Proofs.Hook.Updates
import Mathlib.Data.List.Nodup

/-!
# No delivery is lost or applied twice

However updates interleave, each hook ends up as if its deliveries had been applied one after
another, in the order in which their updates took the lease, each at the instant that its update
saw. The deliveries that count are those of the updates that answer so; one that was refused, or
failed, leaves no trace.

The invariant behind this (`Leasehold.Updates.Serial`) says it of every moment, with the deliveries
that are in the hook by then. It rests on mutual exclusion in two places:

* while an update is inside, no later one in the order is about its hook, so the delivery that it
  writes is the last one of the hook;
* what an update has read of its hook stays true until it writes the hook itself
  (`Leasehold.UpdatePhase.Knows`).

A hook that a delivery does not change is not written, which makes no difference: it was read with
whole milliseconds, so writing it would have left it as it is.
-/

namespace Leasehold

/-! ### Deliveries in a hook -/

namespace Phase

/-- Whether a client has yet to take its lease. -/
def IsBefore : Phase → Prop
  | waiting => True
  | trying _ => True
  | _ => False

/-- Whether a client has nothing more to do with its lease than to give it back. -/
def IsPast : Phase → Prop
  | leaving _ => True
  | ended => True
  | _ => False

variable {p : Phase}

theorem IsPast.not_isBefore (h : p.IsPast) : ¬p.IsBefore := by
  cases p with
  | leaving guard => exact False.elim
  | ended => exact False.elim
  | _ => exact h.elim

theorem IsPast.ne_inside (h : p.IsPast) (guard : LeaseGuard) : p ≠ inside guard := by
  rintro rfl
  exact h

end Phase

/-- The instant at which the delivery was applied, if it was. -/
def Outcome.applied? : Outcome → Option Instant
  | applied _ _ now => some now
  | _ => none

namespace UpdatePhase

/-- **The instant of the delivery**, once it is in the hook. -/
def written? : UpdatePhase → Option Instant
  | noting _ _ _ now => some now
  | leaving _ outcome => outcome.applied?
  | ended outcome => outcome.applied?
  | _ => none

/-- **The instant of the delivery**, once the update has answered that it was applied. -/
def applied? : UpdatePhase → Option Instant
  | ended outcome => outcome.applied?
  | _ => none

theorem written?_of_applied? {p : UpdatePhase} {now : Instant} (h : p.applied? = some now) :
    p.written? = some now := by
  cases p with
  | ended outcome => exact h
  | _ => cases h

/-- An update without the lease has answered, or its delivery is not in the hook. -/
theorem written?_of_guard? {p : UpdatePhase} (h : p.toPhase.guard? = none) :
    p.written? = p.applied? := by
  cases p with
  | noting guard after changed now => cases h
  | leaving guard outcome => cases h
  | _ => rfl

/-- **What an update inside knows of its hook.** -/
def Knows (s : Store) (u : UpdateCall) : UpdatePhase → Prop
  | applying _ before => s.hook? u.hook = .ok (some before)
  | saving _ after now =>
    ∃ before, s.hook? u.hook = .ok (some before) ∧ after = before.apply u.category now
  | _ => True

variable {p : UpdatePhase} {s s' : Store} {u : UpdateCall}

theorem Knows.of_hook?_eq (hk : p.Knows s u) (h : s'.hook? u.hook = s.hook? u.hook) :
    p.Knows s' u := by
  cases p with
  | applying guard before => exact h.trans hk
  | saving guard after now =>
    obtain ⟨before, hbefore, rfl⟩ := hk
    exact ⟨before, h.trans hbefore, rfl⟩
  | _ => trivial

/-- An update that is not inside claims nothing. -/
theorem knows_of_not_inside (h : ∀ guard, p.toPhase ≠ .inside guard) : p.Knows s u := by
  cases p with
  | applying guard before => exact absurd rfl (h guard)
  | saving guard after now => exact absurd rfl (h guard)
  | _ => trivial

end UpdatePhase

namespace Updates

open Parties (phase_put phase_put_self phase_put_of_ne forall_put)

variable {ι : Type} [DecidableEq ι]

omit [DecidableEq ι] in
/-- The delivery of an update, if it is for some hook and its update has got somewhere. -/
def delivery? (calls : ι → UpdateCall) (c : Updates ι) (at? : UpdatePhase → Option Instant)
    (id : Int) (i : ι) : Option (Category × Instant) :=
  if (calls i).hook = id then (at? (c.phase i)).map fun now => ((calls i).category, now) else none

omit [DecidableEq ι] in
/-- **The deliveries to a hook** whose updates have got somewhere, in the order in which they took
their leases. -/
def deliveries (calls : ι → UpdateCall) (c : Updates ι) (at? : UpdatePhase → Option Instant)
    (id : Int) : List (Category × Instant) :=
  c.order.filterMap (c.delivery? calls at? id)

variable {calls : ι → UpdateCall} {c c' : Updates ι} {i : ι} {p : UpdatePhase} {w : World}
  {at? at?' : UpdatePhase → Option Instant} {id : Int}

omit [DecidableEq ι] in
theorem delivery?_of_none (h : at? (c.phase i) = none) : c.delivery? calls at? id i = none := by
  rw [delivery?, h, Option.map_none, ite_self]

theorem delivery?_put_of_ne {j : ι} (hj : j ≠ i) :
    (c.put i p w).delivery? calls at? id j = c.delivery? calls at? id j := by
  rw [delivery?, toParties_put, phase_put_of_ne hj, delivery?]

omit [DecidableEq ι] in
theorem deliveries_congr (horder : c'.order = c.order)
    (h : ∀ i, (calls i).hook = id → at?' (c'.phase i) = at? (c.phase i)) :
    c'.deliveries calls at?' id = c.deliveries calls at? id := by
  rw [deliveries, deliveries, horder]
  refine List.filterMap_congr fun i _ => ?_
  rw [delivery?, delivery?]
  split
  · rename_i hi
    rw [h i hi]
  · rfl

/-- An update that goes on without anything new for the hook. -/
theorem deliveries_put (h : at? p = at? (c.phase i)) (w : World) (id : Int) :
    (c.put i p w).deliveries calls at? id = c.deliveries calls at? id := by
  refine deliveries_congr rfl fun j _ => ?_
  rw [toParties_put, phase_put]
  split
  · rename_i hj
    rw [hj, h]
  · rfl

omit [DecidableEq ι] in
/-- An update that has just taken its lease has nothing in the hook. -/
theorem deliveries_taken (h : at? (c.phase i) = none) (id : Int) :
    (c.taken i).deliveries calls at? id = c.deliveries calls at? id := by
  change (c.order ++ [i]).filterMap (c.delivery? calls at? id) = _
  rw [List.filterMap_append, List.filterMap_cons_none (delivery?_of_none h), List.filterMap_nil,
    List.append_nil]
  rfl

/-! ### The order of the updates -/

omit [DecidableEq ι] in
/-- **An update is the last one of its hook** in an order. -/
def LastOfHook (calls : ι → UpdateCall) (order : List ι) (i : ι) : Prop :=
  ∃ xs ys, order = xs ++ i :: ys ∧ ∀ j ∈ ys, (calls j).hook ≠ (calls i).hook

section LastOfHook

variable {order : List ι} {j : ι}

omit [DecidableEq ι]

theorem LastOfHook.mem (h : LastOfHook calls order i) : i ∈ order := by
  obtain ⟨xs, ys, horder, -⟩ := h
  rw [horder]
  exact List.mem_append_right _ List.mem_cons_self

theorem lastOfHook_append_self (order : List ι) (i : ι) : LastOfHook calls (order ++ [i]) i :=
  ⟨order, [], rfl, fun _ hj => absurd hj List.not_mem_nil⟩

/-- An update of another hook takes its lease. -/
theorem LastOfHook.append (h : LastOfHook calls order j) (hne : (calls i).hook ≠ (calls j).hook) :
    LastOfHook calls (order ++ [i]) j := by
  obtain ⟨xs, ys, rfl, hlast⟩ := h
  refine ⟨xs, ys ++ [i], by rw [List.append_assoc, List.cons_append], fun k hk => ?_⟩
  rcases List.mem_append.1 hk with hk | hk
  · exact hlast k hk
  · rw [List.mem_singleton.1 hk]
    exact hne

end LastOfHook

/-- **A delivery is written** by the last update of its hook in the order: it is the last one in
the hook, and nothing new for any other hook. -/
theorem deliveries_put_written {now : Instant} (hnodup : c.order.Nodup)
    (hlast : LastOfHook calls c.order i)
    (hbefore : at? (c.phase i) = none) (hafter : at? p = some now) (w : World) (id : Int) :
    (c.put i p w).deliveries calls at? id = c.deliveries calls at? id ++
      if (calls i).hook = id then [((calls i).category, now)] else [] := by
  obtain ⟨xs, ys, horder, hlast⟩ := hlast
  rw [horder] at hnodup
  have hxs : i ∉ xs := fun h => (List.disjoint_of_nodup_append hnodup) h List.mem_cons_self
  have hys : i ∉ ys := (List.nodup_cons.1 hnodup.of_append_right).1
  -- Nobody else in the order has moved.
  have hothers : ∀ zs : List ι, i ∉ zs → zs.filterMap ((c.put i p w).delivery? calls at? id) =
      zs.filterMap (c.delivery? calls at? id) := by
    intro zs hi
    refine List.filterMap_congr fun j hj => delivery?_put_of_ne ?_
    rintro rfl
    exact hi hj
  have hput : (c.put i p w).order = c.order := rfl
  have hnew : (c.put i p w).delivery? calls at? id i =
      if (calls i).hook = id then some ((calls i).category, now) else none := by
    rw [delivery?, toParties_put, phase_put_self, hafter, Option.map_some]
  rw [deliveries, deliveries, hput, horder, List.filterMap_append, List.filterMap_append,
    List.filterMap_cons_none (delivery?_of_none hbefore), hothers xs hxs]
  by_cases hid : (calls i).hook = id
  · -- Later ones in the order are about other hooks, so the new delivery is the last.
    have hnone : ys.filterMap (c.delivery? calls at? id) = [] := by
      refine List.filterMap_eq_nil_iff.2 fun j hj => if_neg ?_
      rw [← hid]
      exact hlast j hj
    rw [if_pos hid] at hnew
    rw [if_pos hid, List.filterMap_cons_some hnew, hothers ys hys, hnone, List.append_nil]
  · rw [if_neg hid] at hnew
    rw [if_neg hid, List.filterMap_cons_none hnew, hothers ys hys, List.append_nil]

/-! ### The invariant -/

omit [DecidableEq ι] in
/-- **At most one update of a hook is inside.** -/
def OnePerHook (calls : ι → UpdateCall) (c : Updates ι) : Prop :=
  ∀ i j guard guard', c.clients.phase i = .inside guard → c.clients.phase j = .inside guard' →
    (calls i).hook = (calls j).hook → i = j

omit [DecidableEq ι] in
theorem onePerHook_of_held (hh : c.clients.Held) (hs : c.clients.Sound fun i => (calls i).key) :
    c.OnePerHook calls :=
  fun _ _ _ _ hi hj hhook => hh.eq_of_inside hs hi hj (congrArg WebHook.leaseKey hhook)

/-- **Every hook is as its deliveries leave it**, one after another, when the hooks were those of
some store at first. -/
structure Serial (calls : ι → UpdateCall) (s : Store) (c : Updates ι) : Prop where
  /-- No update takes its lease twice. -/
  nodup : c.order.Nodup
  /-- An update that has yet to take its lease is not in the order. -/
  not_mem : ∀ i, (c.clients.phase i).IsBefore → i ∉ c.order
  /-- An update whose delivery is in the hook is in the order. -/
  mem : ∀ i now, (c.phase i).written? = some now → i ∈ c.order
  /-- An update inside is the last one of its hook in the order. -/
  last : ∀ i guard, c.clients.phase i = .inside guard → LastOfHook calls c.order i
  /-- Every hook is as the deliveries leave it. -/
  hook : ∀ id, c.world.store.hook? id =
    (s.hook? id).map (Option.map (·.replay (c.deliveries calls UpdatePhase.written? id)))
  /-- What the updates inside know of their hooks is true. -/
  knows : ∀ i, (c.phase i).Knows c.world.store (calls i)

variable {s : Store} {q : UpdatePhase} {guard : LeaseGuard}

/-- **An update goes on**, with nothing new for any hook. -/
theorem Serial.put (hs : c.Serial calls s) (hi : c.phase i = q)
    (hhook : ∀ id, w.store.hook? id = c.world.store.hook? id) (hwritten : p.written? = q.written?)
    (hbefore : p.toPhase.IsBefore → q.toPhase.IsBefore)
    (hinside : ∀ guard, p.toPhase = .inside guard → q.toPhase = .inside guard)
    (hknows : p.Knows c.world.store (calls i)) : (c.put i p w).Serial calls s := by
  subst hi
  refine ⟨hs.nodup, ?_, ?_, ?_, fun id => ?_, ?_⟩
  · exact forall_put (P := fun j (r : UpdatePhase) => r.toPhase.IsBefore → j ∉ c.order)
      (fun h => hs.not_mem i (hbefore h)) fun j _ => hs.not_mem j
  · exact forall_put (P := fun j (r : UpdatePhase) => ∀ now, r.written? = some now → j ∈ c.order)
      (fun now h => hs.mem i now (hwritten.symm.trans h)) fun j _ => hs.mem j
  · exact forall_put
      (P := fun j (r : UpdatePhase) =>
        ∀ guard, r.toPhase = .inside guard → LastOfHook calls c.order j)
      (fun guard h => hs.last i guard (hinside guard h)) fun j _ => hs.last j
  · rw [deliveries_put hwritten]
    exact (hhook id).trans (hs.hook id)
  · exact forall_put (P := fun j (r : UpdatePhase) => r.Knows w.store (calls j))
      (hknows.of_hook?_eq (hhook _)) fun j _ => (hs.knows j).of_hook?_eq (hhook _)

/-- **An update is past its work**, with nothing new for any hook. -/
theorem Serial.past (hs : c.Serial calls s) (hi : c.phase i = q)
    (hhook : ∀ id, w.store.hook? id = c.world.store.hook? id) (hwritten : p.written? = q.written?)
    (hpast : p.toPhase.IsPast) : (c.put i p w).Serial calls s :=
  hs.put hi hhook hwritten (fun h => absurd h hpast.not_isBefore)
    (fun guard h => absurd h (hpast.ne_inside guard))
    (UpdatePhase.knows_of_not_inside hpast.ne_inside)

/-- **An update takes its lease** while no other one of its hook is inside. -/
theorem Serial.taken {left : Nat} (hs : c.Serial calls s) (hi : c.phase i = .trying left)
    (hhook : ∀ id, w.store.hook? id = c.world.store.hook? id)
    (hother : ∀ j guard', c.clients.phase j = .inside guard' → (calls j).hook ≠ (calls i).hook) :
    ((c.put i (.reading guard) w).taken i).Serial calls s := by
  have hmem : i ∉ c.order := by
    refine hs.not_mem i ?_
    rw [phase_clients hi]
    trivial
  have hwritten : (c.phase i).written? = none := by
    rw [hi]
    rfl
  refine ⟨?_, ?_, ?_, ?_, fun id => ?_, ?_⟩
  · exact List.nodup_append_comm.1 (List.nodup_cons.2 ⟨hmem, hs.nodup⟩)
  · refine forall_put (w := w)
      (P := fun j (r : UpdatePhase) => r.toPhase.IsBefore → j ∉ c.order ++ [i]) False.elim ?_
    intro j hne hj h
    rcases List.mem_append.1 h with h | h
    · exact hs.not_mem j hj h
    · exact hne (List.mem_singleton.1 h)
  · refine forall_put (w := w)
      (P := fun j (r : UpdatePhase) => ∀ now, r.written? = some now → j ∈ c.order ++ [i]) ?_ ?_
    · intro now h
      cases h
    · intro j _ now hj
      exact List.mem_append_left _ (hs.mem j now hj)
  · -- Those that were inside before are about other hooks, and so still the last of their own.
    exact forall_put (w := w)
      (P := fun j (r : UpdatePhase) =>
        ∀ guard, r.toPhase = .inside guard → LastOfHook calls (c.order ++ [i]) j)
      (fun _ _ => lastOfHook_append_self c.order i)
      fun j _ guard' hj => (hs.last j guard' hj).append fun h => hother j guard' hj h.symm
  · rw [deliveries_taken (by rw [toParties_put, phase_put_self]; rfl), deliveries_put hwritten.symm]
    exact (hhook id).trans (hs.hook id)
  · exact forall_put (w := w) (P := fun j (r : UpdatePhase) => r.Knows w.store (calls j)) trivial
      fun j _ => (hs.knows j).of_hook?_eq (hhook _)

/-- **An update brings its delivery into the hook**, which no other update inside is about. -/
theorem Serial.written {before after : WebHook} {changed : Bool} {now : Instant}
    (hs : c.Serial calls s) (hone : c.OnePerHook calls) (hi : c.phase i = q)
    (hinside : q.toPhase = .inside guard) (hnone : q.written? = none)
    (hbefore : c.world.store.hook? (calls i).hook = .ok (some before))
    (hself : w.store.hook? (calls i).hook =
      .ok (some (before.apply (calls i).category now).stored))
    (hothers : ∀ id ≠ (calls i).hook, w.store.hook? id = c.world.store.hook? id) :
    (c.put i (.noting guard after changed now) w).Serial calls s := by
  subst hi
  have hlast := hs.last i guard hinside
  have hclients : (c.put i (.noting guard after changed now) w).clients =
      { c.clients with world := w } := (clients_put _ _ _ _).trans (Parties.put_self hinside w)
  refine ⟨hs.nodup, ?_, ?_, ?_, fun id => ?_, ?_⟩
  · rw [hclients]
    exact hs.not_mem
  · exact forall_put (P := fun j (r : UpdatePhase) => ∀ now, r.written? = some now → j ∈ c.order)
      (fun _ _ => hlast.mem) fun j _ => hs.mem j
  · rw [hclients]
    exact hs.last
  · rw [deliveries_put_written hs.nodup hlast hnone rfl]
    by_cases hid : (calls i).hook = id
    · subst hid
      rw [if_pos rfl, Store.hook?_replay_append ((hs.hook _).symm.trans hbefore)]
      exact hself
    · rw [if_neg hid, List.append_nil]
      exact (hothers id fun h => hid h.symm).trans (hs.hook id)
  · refine forall_put (P := fun j (r : UpdatePhase) => r.Knows w.store (calls j)) trivial
      fun j hne => ?_
    -- Nobody else inside has read this hook.
    by_cases hid : (calls j).hook = (calls i).hook
    · exact UpdatePhase.knows_of_not_inside fun guard' hj =>
        hne (hone j i guard' guard hj hinside hid)
    · exact (hs.knows j).of_hook?_eq (hothers _ hid)

/-- **Every step keeps the hooks as their deliveries leave them**, as long as at most one update of
each hook is inside before and after it. -/
theorem Serial.step (hs : c.Serial calls s) (hone : c.OnePerHook calls)
    (hone' : c'.OnePerHook calls) (h : Step calls c c') : c'.Serial calls s := by
  have hlock : ∀ {key ttl answer w}, Lease.tryObtain key ttl c.world = (answer, w) →
      ∀ id, w.store.hook? id = c.world.store.hook? id := by
    intro key ttl answer w h id
    have honly := Lease.onlyLeases_tryObtain key ttl c.world
    rw [h] at honly
    exact honly.hook? id
  cases h with
  | begin i hi =>
    refine hs.put hi (fun _ => rfl) rfl (fun _ => trivial) (fun guard hp => ?_) trivial
    cases hp
  | take i left guard w hi h =>
    refine hs.taken hi (hlock h) fun j guard' hj hhook => ?_
    have hne : j ≠ i := by
      rintro rfl
      rw [phase_clients hi] at hj
      cases hj
    have hphase : ((c.put i (.reading guard) w).taken i).clients.phase j = .inside guard' := by
      change ((c.put i (.reading guard) w).phase j).toPhase = _
      rw [toParties_put, phase_put_of_ne hne]
      exact hj
    have hself : ((c.put i (.reading guard) w).taken i).clients.phase i = .inside guard :=
      congrArg UpdatePhase.toPhase (phase_put_self c.toParties i (.reading guard) w)
    exact hne (hone' j i guard' guard hphase hself hhook)
  | miss i left w hi h =>
    refine hs.put hi (hlock h) rfl (fun _ => trivial) (fun guard hp => ?_) trivial
    cases hp
  | fault i left e w hi h =>
    cases e with
    | notObtained _ _ => exact hs.past hi (hlock h) rfl trivial
    | backend _ => exact hs.past hi (hlock h) rfl trivial
  | giveUp i hi => exact hs.past hi (fun _ => rfl) rfl trivial
  | read i guard answer w hi h =>
    rcases findHook_cases (calls i).hook c.world with ⟨before, hfind, hbefore, -⟩ | ⟨e, hfind⟩
    · cases h.symm.trans hfind
      exact hs.put hi (fun _ => rfl) rfl False.elim (fun _ hp => hp) hbefore
    · cases h.symm.trans hfind
      exact hs.past hi (fun _ => rfl) rfl trivial
  | apply i guard before hi =>
    have hbefore := hs.knows i
    rw [hi] at hbefore
    rw [UpdatePhase.afterApplying]
    split
    · exact hs.put hi (fun _ => rfl) rfl False.elim (fun _ hp => hp) ⟨before, hbefore, rfl⟩
    · -- The hook is not written, but writing it would have left it as it is.
      rename_i hsame
      have hstored : (before.apply (calls i).category c.world.now).stored = before := by
        rw [not_not.1 hsame]
        exact Store.stored_of_hook? hbefore
      refine hs.written hone hi rfl rfl hbefore ?_ fun _ _ => rfl
      rw [hstored]
      exact hbefore
  | save i guard after now answer w hi h =>
    have hknows := hs.knows i
    rw [hi] at hknows
    obtain ⟨before, hbefore, rfl⟩ := hknows
    rcases saveHook_cases hbefore (before.same_apply (calls i).category now) with
      ⟨w', hsave, -, hself, hothers⟩ | ⟨-, e, hsave⟩
    · cases h.symm.trans hsave
      exact hs.written hone hi rfl rfl hbefore hself hothers
    · cases h.symm.trans hsave
      exact hs.past hi (fun _ => rfl) rfl trivial
  | note i guard after changed now w hi h =>
    have hhook := (noteDown_cases after now c.world).2.1
    rw [h] at hhook
    exact hs.past hi hhook rfl trivial
  | release i guard outcome hi =>
    exact hs.past hi (Lease.onlyLeases_release guard c.world).hook? rfl trivial
  | look i e answer w hi h =>
    rw [eq_of_findHook h]
    cases answer with
    | error f => exact hs.past hi (fun _ => rfl) rfl trivial
    | ok found => exact hs.past hi (fun _ => rfl) rfl trivial
  | compare i e h hi =>
    rw [UpdatePhase.afterComparing]
    split
    · exact hs.past hi (fun _ => rfl) rfl trivial
    · exact hs.past hi (fun _ => rfl) rfl trivial
  | elsewhere w hlease hissued hhook =>
    refine ⟨hs.nodup, hs.not_mem, hs.mem, hs.last, fun id => (hhook id).trans (hs.hook id),
      fun i => (hs.knows i).of_hook?_eq (hhook _)⟩

/-- **Every run in time keeps the hooks as their deliveries leave them.** -/
theorem Serial.run (hs : c.Serial calls s) (hh : c.clients.Held)
    (hc : c.clients.Sound fun i => (calls i).key) (h : RunInTime calls c c') :
    c'.Serial calls s ∧ c'.clients.Held ∧ c'.clients.Sound fun i => (calls i).key := by
  induction h with
  | refl => exact ⟨hs, hh, hc⟩
  | tail _ hstep ih =>
    obtain ⟨hs, hh, hc⟩ := ih
    obtain ⟨hh', hc'⟩ := hh.run hc (clients_step hstep.2 hstep.1)
    exact ⟨hs.step (onePerHook_of_held hh hc) (onePerHook_of_held hh' hc') hstep.2, hh', hc'⟩

omit [DecidableEq ι] in
theorem serial_of_waiting (h : ∀ i, c.phase i = .waiting) (horder : c.order = []) :
    c.Serial calls c.world.store := by
  have hwritten : ∀ i now, (c.phase i).written? ≠ some now := by
    intro i now hi
    rw [h i] at hi
    cases hi
  have hinside : ∀ i guard, c.clients.phase i ≠ .inside guard := by
    intro i guard hi
    rw [phase_clients (h i)] at hi
    cases hi
  have hdeliveries : ∀ id, c.deliveries calls UpdatePhase.written? id = [] := by
    intro id
    rw [deliveries, horder, List.filterMap_nil]
  refine ⟨?_, fun i _ => ?_, fun i now hi => absurd hi (hwritten i now),
    fun i guard hi => absurd hi (hinside i guard), fun id => ?_,
    fun i => UpdatePhase.knows_of_not_inside (hinside i)⟩
  · rw [horder]
    exact List.nodup_nil
  · rw [horder]
    exact List.not_mem_nil
  · rw [hdeliveries]
    cases c.world.store.hook? id with
    | error f => rfl
    | ok found => cases found <;> rfl

/-! ### The deliveries that count -/

/-- **No delivery is lost or applied twice.** Let any number of updates of any hooks, none of which
has begun, go on in time. Then each of them took its lease at most once, those that answer that
their delivery was applied among them; and every hook of which no update holds the lease is as it
was at first with the deliveries of exactly these updates applied one after another, in the order
in which they took their leases, each at the instant its update saw. -/
theorem replays_applied (h : ∀ i, c.phase i = .waiting) (horder : c.order = [])
    (hrun : RunInTime calls c c') :
    c'.order.Nodup ∧
    (∀ i now, (c'.phase i).applied? = some now → i ∈ c'.order) ∧
    ∀ id, (∀ i, (calls i).hook = id → (c'.clients.phase i).guard? = none) →
      c'.world.store.hook? id = (c.world.store.hook? id).map
        (Option.map (·.replay (c'.deliveries calls UpdatePhase.applied? id))) := by
  have hwaiting : ∀ i, c.clients.phase i = .waiting := fun i => phase_clients (h i)
  obtain ⟨hs, -, -⟩ := (serial_of_waiting h horder).run (Clients.held_of_waiting hwaiting)
    (Clients.sound_of_waiting hwaiting) hrun
  refine ⟨hs.nodup, fun i now hi => hs.mem i now ?_, fun id hid => ?_⟩
  · exact UpdatePhase.written?_of_applied? hi
  · have hdeliveries : c'.deliveries calls UpdatePhase.applied? id =
        c'.deliveries calls UpdatePhase.written? id :=
      deliveries_congr rfl fun i hi => (UpdatePhase.written?_of_guard? (hid i hi)).symm
    rw [hdeliveries]
    exact hs.hook id

/-! Two updates of one hook back off. The second is refused once while the first is inside; it
takes the lease when the first is done and the clock has moved, and backs off for twice as long. -/

/-- Nobody has begun, the ledger is in memory, and the time is not in whole milliseconds. -/
def twoUpdates : Updates Bool where
  world :=
    { clock := { wall := ⟨1500000, by decide, by decide⟩ }
      database := { store := (({} : Store).addHook 7 "https://example.org").2 }
      leases := { backend := .memory [] } }
  phase := fun _ => .waiting

/-- Both updates are about the same hook. -/
def backOffOfAll : Bool → UpdateCall := fun _ => ⟨1, .error, {}⟩

/-- The guard of an update, by the number of the attempt that it came from. -/
def guardOf (serial : Nat) : LeaseGuard := ⟨WebHook.leaseKey 1, .issued serial, .ofSeconds 60⟩

/-- The world after an attempt. -/
def tried (w : World) : World := (Lease.tryObtain (WebHook.leaseKey 1) (.ofSeconds 60) w).2

/-- The hook as it is at first. -/
def freshHook : WebHook := { id := 1, project := 7, url := "https://example.org" }

/-- The world after the hook was written and the failure of its project noted. -/
def written (h : WebHook) (w : World) : World := (noteDown h w.now (saveHook h w).2).2

/-- The world in which the first update is inside and the second was refused. -/
def busyWorld : World := tried (tried twoUpdates.world)

/-- The hook as the first update leaves it. -/
def firstHook : WebHook := freshHook.apply .error busyWorld.now

/-- The world in which the first update is done. -/
def freeWorld : World := Lease.release (guardOf 0) (written firstHook busyWorld)

/-- The same world a second later. -/
def laterWorld : World := { freeWorld with clock := freeWorld.clock.advance (.ofSeconds 1) }

/-- The hook as the second update leaves it. -/
def secondHook : WebHook := firstHook.stored.apply .error laterWorld.now

set_option maxRecDepth 4000 in
theorem miss_busyWorld : Lease.tryObtain (WebHook.leaseKey 1) (.ofSeconds 60)
    (tried twoUpdates.world) = (.ok none, busyWorld) := rfl

/-- A step of the two updates while all leases in memory are live. -/
theorem runInTime_tail {c c' : Updates Bool} {holds : Ledger Span}
    (hrun : RunInTime backOffOfAll twoUpdates c) (h : Step backOffOfAll c c')
    (hb : c.world.leases.backend = .memory holds)
    (hlive : ∀ e ∈ holds, c.world.clock.elapsed < e.2.expiry) :
    RunInTime backOffOfAll twoUpdates c' :=
  hrun.tail ⟨Clients.inTime_of_memory hb hlive, h⟩

set_option maxRecDepth 4000 in
theorem replays_applied_backOff :
    ∃ c, RunInTime backOffOfAll twoUpdates c ∧ c.order = [false, true] ∧
      c.world.store.hook? 1 = .ok (some
        { id := 1, project := 7, url := "https://example.org", backoffCount := 2
          disabledUntil := some ⟨1201001000000, by decide, by decide⟩ }) := by
  have r₁ := runInTime_tail .refl (.begin twoUpdates false rfl) rfl (by decide +kernel)
  have r₂ := runInTime_tail r₁ (.begin _ true rfl) rfl (by decide +kernel)
  have r₃ := runInTime_tail r₂ (.take _ false 10 (guardOf 0) (tried twoUpdates.world) rfl rfl) rfl
    (by decide +kernel)
  have r₄ := runInTime_tail r₃ (.miss _ true 10 busyWorld rfl miss_busyWorld) rfl
    (by decide +kernel)
  have r₅ := runInTime_tail r₄ (.read _ false (guardOf 0) (.ok freshHook) busyWorld rfl rfl) rfl
    (by decide +kernel)
  have r₆ := runInTime_tail r₅ (.apply _ false (guardOf 0) freshHook rfl) rfl (by decide +kernel)
  have r₇ := runInTime_tail r₆ (.save _ false (guardOf 0) firstHook busyWorld.now (.ok ()) _ rfl
    rfl) rfl (by decide +kernel)
  have r₈ := runInTime_tail r₇ (.note _ false (guardOf 0) firstHook true busyWorld.now
    (written firstHook busyWorld) rfl rfl) rfl (by decide +kernel)
  have r₉ := runInTime_tail r₈ (.release _ false (guardOf 0) _ rfl) rfl (by decide +kernel)
  have r₁₀ := runInTime_tail r₉ (.elsewhere _ laterWorld (fun _ => rfl) (Nat.le_refl _)
    fun _ => rfl) rfl (by decide +kernel)
  have r₁₁ := runInTime_tail r₁₀ (.take _ true 9 (guardOf 2) (tried laterWorld) rfl rfl) rfl
    (by decide +kernel)
  have r₁₂ := runInTime_tail r₁₁ (.read _ true (guardOf 2) (.ok firstHook.stored) (tried laterWorld)
    rfl rfl) rfl (by decide +kernel)
  have r₁₃ := runInTime_tail r₁₂ (.apply _ true (guardOf 2) firstHook.stored rfl) rfl
    (by decide +kernel)
  have r₁₄ := runInTime_tail r₁₃ (.save _ true (guardOf 2) secondHook laterWorld.now (.ok ()) _ rfl
    rfl) rfl (by decide +kernel)
  have r₁₅ := runInTime_tail r₁₄ (.note _ true (guardOf 2) secondHook true laterWorld.now
    (written secondHook (tried laterWorld)) rfl rfl) rfl (by decide +kernel)
  have r₁₆ := runInTime_tail r₁₅ (.release _ true (guardOf 2) _ rfl) rfl (by decide +kernel)
  refine ⟨_, r₁₆, rfl, ((replays_applied (fun _ => rfl) rfl r₁₆).2.2 1 fun i _ => ?_).trans ?_⟩
  · cases i <;> rfl
  · rfl

end Updates

end Leasehold
