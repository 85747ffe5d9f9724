import Leasehold.Proofs.Hook.Saving
import Leasehold.Proofs.Lease.Lock
import Mathlib.Algebra.Group.Nat.Defs
import Mathlib.Data.List.DropRight

/-!
# The failure state is a function of what happened

Whatever happened to a hook before a delivery that went well is forgotten. From what happened since
one can tell its failure state without going through it step by step (`Leasehold.WebHook.Reflects`):

* the two counts are the numbers of failed deliveries and of errors, up to a hundred;
* the hook waits since its last error, for a time that the number of errors before tells; but a
  delivery that failed later takes the waiting off, unless a hundred had failed already.

The description leaves no choice (`Leasehold.WebHook.Reflects.state_eq`), and a delivery that is
saved keeps it (`Leasehold.WebHook.Reflects.apply`). The times of the deliveries need not be in
order.

A hook gets there by its updates, with anything else in between (`Leasehold.HookHistory`): other
hooks are made and updated, updates fail or are refused, the clock moves either way. Updates are
the only calls that change a hook, and one that answers that it was applied has applied its
delivery once (`Leasehold.updateHook_cases`).
-/

namespace Leasehold

namespace WebHook

/-! ### What happened, counted -/

variable {s front tail : List (Category × Instant)} {c : Category} {t : Instant}

/-- How many deliveries went one way. -/
def tally (c : Category) (s : List (Category × Instant)) : Nat := s.countP (·.1 = c)

/-- **What happened since a delivery went well** for the last time. -/
def sinceOk (s : List (Category × Instant)) : List (Category × Instant) := s.rtakeWhile (·.1 ≠ .ok)

theorem tally_append (c : Category) (s s' : List (Category × Instant)) :
    tally c (s ++ s') = tally c s + tally c s' := List.countP_append

theorem tally_cons (c : Category) (d : Category × Instant) (s : List (Category × Instant)) :
    tally c (d :: s) = tally c s + if d.1 = c then 1 else 0 := by
  rw [tally, List.countP_cons, tally]
  simp only [decide_eq_true_eq]

theorem tally_singleton (c : Category) (d : Category × Instant) :
    tally c [d] = if d.1 = c then 1 else 0 := by
  rw [tally_cons]
  exact Nat.zero_add _

theorem sinceOk_concat_ok (s : List (Category × Instant)) (t : Instant) :
    sinceOk (s ++ [(.ok, t)]) = [] := List.rtakeWhile_concat_neg _ _ _ (by simp)

theorem sinceOk_concat (s : List (Category × Instant)) (hc : c ≠ .ok) (t : Instant) :
    sinceOk (s ++ [(c, t)]) = sinceOk s ++ [(c, t)] := List.rtakeWhile_concat_pos _ _ _ (by simpa)

theorem sinceOk_append {s' : List (Category × Instant)} (h : ∀ d ∈ s', d.1 ≠ .ok) :
    sinceOk (s ++ s') = sinceOk s ++ s' := by
  induction s' using List.reverseRecOn with
  | nil => rw [List.append_nil, List.append_nil]
  | append_singleton s' d ih =>
    have hd : d.1 ≠ .ok := h d (List.mem_append_right _ List.mem_cons_self)
    have hs' : sinceOk (s ++ s') = sinceOk s ++ s' :=
      ih fun d' hd' => h d' (List.mem_append_left _ hd')
    rw [← List.append_assoc, show d = (d.1, d.2) from rfl, sinceOk_concat _ hd, hs',
      List.append_assoc]

/-- The last error of a history that has one. -/
theorem exists_last_error (h : tally .error s ≠ 0) :
    ∃ front t tail, s = front ++ (.error, t) :: tail ∧ tally .error tail = 0 := by
  induction s using List.reverseRecOn with
  | nil => exact absurd rfl h
  | append_singleton s d ih =>
    obtain ⟨c, t⟩ := d
    by_cases hc : c = .error
    · exact ⟨s, t, [], by rw [hc], rfl⟩
    · have hd : tally .error [(c, t)] = 0 := by rw [tally_singleton, if_neg hc]
      rw [tally_append, hd, Nat.add_zero] at h
      obtain ⟨front, t', tail, rfl, htail⟩ := ih h
      refine ⟨front, t', tail ++ [(c, t)], by simp, ?_⟩
      rw [tally_append, htail, hd]

/-- Where a history that has grown by one entry can be cut. -/
theorem concat_eq_append_cons {α : Type} {s front tail : List α} {d e : α}
    (h : s ++ [d] = front ++ e :: tail) :
    (tail = [] ∧ front = s ∧ e = d) ∨
      ∃ tail', tail = tail' ++ [d] ∧ s = front ++ e :: tail' := by
  rcases tail.eq_nil_or_concat with rfl | ⟨tail', d', rfl⟩
  · obtain ⟨hs, hd⟩ := List.append_inj' h rfl
    exact .inl ⟨rfl, hs.symm, (List.singleton_inj.1 hd).symm⟩
  · rw [List.concat_eq_append, ← List.cons_append, ← List.append_assoc] at h
    obtain ⟨hs, hd⟩ := List.append_inj' h rfl
    exact .inr ⟨tail', by rw [List.concat_eq_append, List.singleton_inj.1 hd], hs⟩

/-! ### The failure state -/

/-- **When the waiting ends** that an error began after some others: in nanoseconds since the start
of 1970, but in whole milliseconds. -/
def backoffEnd (t : Instant) (errors : Nat) : Int :=
  min (t.nanos + (min (600 * 2 ^ errors) 86400 : Nat) * 1000000000) Instant.last.nanos / 1000000 *
    1000000

/-- **The failure state that a history leads to**, when no delivery in it went well. -/
structure Reflects (h : WebHook) (s : List (Category × Instant)) : Prop where
  /-- Failed deliveries are counted up to a hundred. -/
  failures_eq : h.recentFailures.val = min 100 (tally .failed s)
  /-- So are errors. -/
  backoffs_eq : h.backoffCount.val = min 100 (tally .error s)
  /-- Without an error there is no waiting. -/
  calm : tally .error s = 0 → h.disabledUntil = none
  /-- The waiting since the last error is taken off by a failed delivery that is counted. -/
  cleared : ∀ front t mid t' rest, s = front ++ (.error, t) :: (mid ++ (.failed, t') :: rest) →
    tally .error (mid ++ rest) = 0 → tally .failed (front ++ (.error, t) :: mid) < 100 →
    h.disabledUntil = none
  /-- Otherwise it goes on. -/
  waiting : ∀ front t tail, s = front ++ (.error, t) :: tail → tally .error tail = 0 →
    (∀ mid t' rest, tail = mid ++ (.failed, t') :: rest →
      100 ≤ tally .failed (front ++ (.error, t) :: mid)) →
    h.disabledUntil.map Instant.nanos = some (backoffEnd t (tally .error front))

/-- How long a hook backs off, counted in nanoseconds. -/
theorem nanos_nextBackoff_eq (h : WebHook) :
    h.nextBackoff.nanos = min (600 * 2 ^ min h.backoffCount.val 64) 86400 * 1000000000 := by
  have hlt : min (600 * 2 ^ min h.backoffCount.val 64) 86400 < 2 ^ 64 := by omega
  rw [nextBackoff, Span.ofSeconds]
  exact congrArg (· * 1000000000) (Nat.mod_eq_of_lt hlt)

/-- **A hook backs off for ten minutes at least and a day at most**, whatever its count is. -/
theorem nextBackoff_bounds (h : WebHook) :
    Span.ofSeconds 600 ≤ h.nextBackoff ∧ h.nextBackoff ≤ .ofSeconds 86400 := by
  have hpow : 0 < 2 ^ min h.backoffCount.val 64 := Nat.two_pow_pos _
  rw [Span.le_def, Span.le_def, h.nanos_nextBackoff_eq]
  change 600 * 1000000000 ≤ _ ∧ _ ≤ 86400 * 1000000000
  omega

namespace Reflects

variable {h h' : WebHook}

/-- **The history determines the failure state.** -/
theorem state_eq (hs : h.Reflects s) (hs' : h'.Reflects s) :
    h.recentFailures = h'.recentFailures ∧ h.backoffCount = h'.backoffCount ∧
      h.disabledUntil = h'.disabledUntil := by
  refine ⟨Fin.ext (hs.failures_eq.trans hs'.failures_eq.symm),
    Fin.ext (hs.backoffs_eq.trans hs'.backoffs_eq.symm), ?_⟩
  by_cases herror : tally .error s = 0
  · rw [hs.calm herror, hs'.calm herror]
  · obtain ⟨front, t, tail, hcut, htail⟩ := exists_last_error herror
    by_cases hfailed : ∃ mid t' rest, tail = mid ++ (.failed, t') :: rest ∧
        tally .failed (front ++ (.error, t) :: mid) < 100
    · obtain ⟨mid, t', rest, rfl, hcount⟩ := hfailed
      have hnone : tally .error (mid ++ rest) = 0 := by
        rw [tally_append, tally_cons] at htail
        rw [tally_append]
        omega
      rw [hs.cleared front t mid t' rest hcut hnone hcount,
        hs'.cleared front t mid t' rest hcut hnone hcount]
    · have hlate : ∀ mid t' rest, tail = mid ++ (.failed, t') :: rest →
          100 ≤ tally .failed (front ++ (.error, t) :: mid) := by
        intro mid t' rest hmid
        by_contra hcount
        exact hfailed ⟨mid, t', rest, hmid, Nat.lt_of_not_le hcount⟩
      have hends := (hs.waiting front t tail hcut htail hlate).trans
        (hs'.waiting front t tail hcut htail hlate).symm
      exact Option.map_injective (fun _ _ => Instant.ext) hends

/-- **A hook is disabled** just when more than three deliveries failed since one went well. -/
theorem status_eq_disabled_iff (hs : h.Reflects s) (now : Instant) :
    h.status now = .disabled ↔ 3 < tally .failed s := by
  have hcount : h.isDisabled = true ↔ 3 < tally .failed s := by
    change decide (3 < h.recentFailures.val) = true ↔ _
    rw [decide_eq_true_eq, hs.failures_eq]
    omega
  rw [status, ← hcount]
  cases h.isDisabled with
  | true => simp
  | false =>
    simp only [Bool.false_eq_true, if_false, iff_false]
    cases h.disabledUntil with
    | none => simp
    | some deadline =>
      simp only
      split <;> simp

/-- How long the hook backs off after as many errors. -/
theorem nanos_nextBackoff (hs : h.Reflects s) :
    h.nextBackoff.nanos = min (600 * 2 ^ tally .error s) 86400 * 1000000000 := by
  rw [h.nanos_nextBackoff_eq, hs.backoffs_eq]
  by_cases hfew : tally .error s ≤ 64
  · rw [show min (min 100 (tally .error s)) 64 = tally .error s by omega]
  · -- Beyond the bound on the exponent both times are a day.
    have hmany : 2 ^ 8 ≤ 2 ^ tally .error s := Nat.pow_le_pow_right (by decide) (by omega)
    rw [show min (min 100 (tally .error s)) 64 = 64 by omega]
    omega

/-- A hook without a failure state. -/
theorem of_nil (hfailures : h.recentFailures = 0) (hbackoffs : h.backoffCount = 0)
    (hdeadline : h.disabledUntil = none) : h.Reflects [] := by
  refine ⟨congrArg Fin.val hfailures, congrArg Fin.val hbackoffs, fun _ => hdeadline, ?_, ?_⟩
  · intro front t mid t' rest hcut
    cases front <;> cases hcut
  · intro front t tail hcut
    cases front <;> cases hcut

/-- **A delivery that goes well** leaves nothing to tell. -/
theorem apply_ok (h : WebHook) (t : Instant) : (h.apply .ok t).stored.Reflects [] := by
  rw [WebHook.apply, enable]
  split
  · rename_i hclear
    obtain ⟨hfailures, hbackoffs, hdeadline⟩ := hclear
    exact of_nil hfailures hbackoffs (congrArg (Option.map Instant.floor) hdeadline)
  · exact of_nil rfl rfl rfl

/-- **An error** begins a new wait. -/
theorem apply_error (hs : h.Reflects s) (t : Instant) :
    (h.apply .error t).stored.Reflects (s ++ [(.error, t)]) := by
  have hone : tally .error [(.error, t)] = 1 := rfl
  have hnone : tally .failed [(.error, t)] = 0 := rfl
  refine ⟨?_, ?_, ?_, ?_, ?_⟩
  · rw [tally_append, hnone]
    exact hs.failures_eq
  · rw [tally_append, hone]
    -- A count of at most a hundred is far from the greatest one.
    have hcount := h.val_backoffCount_backOff t
    rw [hs.backoffs_eq, if_neg (by omega)] at hcount
    change (h.backOff t).backoffCount.val = _
    omega
  · rw [tally_append, hone]
    omega
  · intro front t' mid t'' rest hcut hmid
    rcases concat_eq_append_cons hcut with ⟨htail, -⟩ | ⟨tail', htail, -⟩
    · simp at htail
    · -- The new error is behind the one that is taken for the last.
      have hcount := congrArg (tally .error) htail
      rw [tally_append, tally_append, hone, tally_cons] at hcount
      rw [tally_append] at hmid
      simp only [reduceCtorEq, if_false] at hcount
      omega
  · intro front t' tail hcut htail _
    rcases concat_eq_append_cons hcut with ⟨-, rfl, hlast⟩ | ⟨tail', rfl, -⟩
    · cases hlast
      change some ((t + h.nextBackoff).nanos / 1000000 * 1000000) = _
      rw [Instant.nanos_add, hs.nanos_nextBackoff, Int.natCast_mul]
      rfl
    · rw [tally_append, hone] at htail
      omega

/-- **A failed delivery** is counted and takes the waiting off, unless a hundred were counted
already. -/
theorem apply_failed (hs : h.Reflects s) (hstored : h.stored = h) (t : Instant) :
    (h.apply .failed t).stored.Reflects (s ++ [(.failed, t)]) := by
  have hone : tally .failed [(.failed, t)] = 1 := rfl
  have hnone : tally .error [(.failed, t)] = 0 := rfl
  have herrors : tally .error (s ++ [(.failed, t)]) = tally .error s := by
    rw [tally_append, hnone, Nat.add_zero]
  have hfailures : h.fail.2.recentFailures.val = min 100 (tally .failed (s ++ [(.failed, t)])) := by
    rw [h.val_recentFailures_fail, hs.failures_eq, tally_append, hone]
    split <;> omega
  rw [WebHook.apply]
  by_cases hlimit : countLimit ≤ h.recentFailures
  · have hmany : 100 ≤ tally .failed s := by
      have hcount : 100 ≤ h.recentFailures.val := hlimit
      rw [hs.failures_eq] at hcount
      omega
    rw [fail, if_pos hlimit] at hfailures ⊢
    rw [hstored]
    refine ⟨hfailures, ?_, ?_, ?_, ?_⟩
    · rw [herrors]
      exact hs.backoffs_eq
    · rw [herrors]
      exact hs.calm
    · intro front t₁ mid t₂ rest hcut hmid hcount
      rcases concat_eq_append_cons hcut with ⟨-, -, hlast⟩ | ⟨tail', htail, rfl⟩
      · cases hlast
      · rcases concat_eq_append_cons htail.symm with ⟨-, rfl, -⟩ | ⟨rest', rfl, rfl⟩
        · -- The new delivery is the one that would be counted, but the count is at its limit.
          omega
        · refine hs.cleared front t₁ mid t₂ rest' rfl ?_ hcount
          rwa [← List.append_assoc, tally_append, hnone] at hmid
    · intro front t₁ tail hcut htail hlate
      rcases concat_eq_append_cons hcut with ⟨-, -, hlast⟩ | ⟨tail', rfl, rfl⟩
      · cases hlast
      · rw [tally_append, hnone] at htail
        refine hs.waiting front t₁ tail' rfl htail fun mid t₂ rest hmid => ?_
        refine hlate mid t₂ (rest ++ [(.failed, t)]) ?_
        rw [hmid, List.append_assoc, List.cons_append]
  · have hfew : tally .failed s < 100 := by
      have hcount : ¬100 ≤ h.recentFailures.val := hlimit
      rw [hs.failures_eq] at hcount
      omega
    rw [fail, if_neg hlimit] at hfailures ⊢
    refine ⟨hfailures, ?_, fun _ => rfl, fun _ _ _ _ _ _ _ _ => rfl, ?_⟩
    · rw [herrors]
      exact hs.backoffs_eq
    · intro front t₁ tail hcut htail hlate
      rcases concat_eq_append_cons hcut with ⟨-, -, hlast⟩ | ⟨tail', rfl, rfl⟩
      · cases hlast
      · have hlate := hlate tail' t [] rfl
        omega

/-- **One more delivery**, saved. -/
theorem apply {s : List (Category × Instant)} (hs : h.Reflects (sinceOk s)) (hstored : h.stored = h)
    (c : Category) (t : Instant) :
    (h.apply c t).stored.Reflects (sinceOk (s ++ [(c, t)])) := by
  cases c with
  | ok =>
    rw [sinceOk_concat_ok]
    exact apply_ok h t
  | error =>
    rw [sinceOk_concat s (by decide)]
    exact hs.apply_error t
  | failed =>
    rw [sinceOk_concat s (by decide)]
    exact hs.apply_failed hstored t

end Reflects

end WebHook

/-! ### What happens to hooks -/

/-- **What may happen** to hooks. -/
inductive HookEvent where
  /-- A hook was made. -/
  | made (id : Int)
  /-- An update has applied its delivery to a hook, at some instant. -/
  | applied (id : Int) (c : Category) (t : Instant)
  /-- Something else. -/
  | other
deriving DecidableEq

namespace HookEvent

/-- What has happened when an update answers. -/
def ofAnswer (id : Int) (c : Category) (t : Instant) : Except HookError HookUpdate → HookEvent
  | .ok (.applied _ _) => applied id c t
  | .ok (.alreadyConsistent _) => other
  | .error _ => other

/-- The delivery that was applied to a hook. -/
def delivery? (id : Int) : HookEvent → Option (Category × Instant)
  | applied id' c t => if id' = id then some (c, t) else none
  | _ => none

end HookEvent

namespace Store

theorem nextHook_saveFailureState (s : Store) (h : WebHook) :
    (s.saveFailureState h).2.nextHook = s.nextHook := by
  rw [saveFailureState]
  split
  · rfl
  · rfl

theorem lastFailures_saveFailureState (s : Store) (h : WebHook) :
    (s.saveFailureState h).2.lastFailures = s.lastFailures := by
  rw [saveFailureState]
  split
  · rfl
  · rfl

theorem nextHook_recordLastFailure (s : Store) (project : Int) (t : Instant) :
    (s.recordLastFailure project t).2.nextHook = s.nextHook := by
  rw [recordLastFailure]
  split
  · rfl
  · split
    · rfl
    · rfl

/-- **A new hook** is found under the next number, and every other one as before. -/
theorem hook?_addHook {s : Store} (project : Int) (url : String)
    (hfresh : s.hook? s.nextHook = .ok none) (id : Int) :
    (s.addHook project url).2.hook? id =
      if id = s.nextHook then .ok (some { id := s.nextHook, project, url }) else s.hook? id := by
  have hnone : s.hooks.find? (·.id = s.nextHook) = none := by
    rw [hook?] at hfresh
    split at hfresh
    · assumption
    · obtain ⟨h, -, hsome⟩ := exists_of_map_eq_ok hfresh
      cases hsome
  rw [addHook, hook?]
  by_cases hid : id = s.nextHook
  · rw [if_pos hid, hid, find?_append_singleton_self hnone (decide_eq_true rfl)]
    rfl
  · have hothers : (s.hooks ++ [HookRow.mk s.nextHook project url 0 0 none]).find? (·.id = id) =
        s.hooks.find? (·.id = id) :=
      find?_append_singleton_of_not (decide_eq_false (Ne.symm hid))
    rw [if_neg hid, hook?, hothers]

end Store

/-- **All hooks are as before**, and so is the number of the next one. -/
structure KeepsHooks (w w' : World) : Prop where
  /-- Every hook. -/
  hook : ∀ id, w'.store.hook? id = w.store.hook? id
  /-- The next number. -/
  next : w'.store.nextHook = w.store.nextHook

/-- **One hook has become another**, and the others are as before. -/
structure ChangesHook (id : Int) (h : WebHook) (w w' : World) : Prop where
  /-- The hook. -/
  self : w'.store.hook? id = .ok (some h)
  /-- The other hooks. -/
  others : ∀ id' ≠ id, w'.store.hook? id' = w.store.hook? id'
  /-- The next number. -/
  next : w'.store.nextHook = w.store.nextHook

section Updates

variable {id : Int} {h : WebHook} {w w' w'' : World}

theorem KeepsHooks.refl (w : World) : KeepsHooks w w := ⟨fun _ => rfl, rfl⟩

theorem KeepsHooks.trans (hw : KeepsHooks w w') (hw' : KeepsHooks w' w'') : KeepsHooks w w'' :=
  ⟨fun id => (hw'.hook id).trans (hw.hook id), hw'.next.trans hw.next⟩

theorem ChangesHook.keeps (hw : ChangesHook id h w w') (hw' : KeepsHooks w' w'') :
    ChangesHook id h w w'' :=
  ⟨(hw'.hook id).trans hw.self, fun id' hne => (hw'.hook id').trans (hw.others id' hne),
    hw'.next.trans hw.next⟩

theorem KeepsHooks.changes (hw : KeepsHooks w w') (hw' : ChangesHook id h w' w'') :
    ChangesHook id h w w'' :=
  ⟨hw'.self, fun id' hne => (hw'.others id' hne).trans (hw.hook id'), hw'.next.trans hw.next⟩

theorem World.OnlyLeases.keepsHooks (h : w.OnlyLeases w') : KeepsHooks w w' :=
  ⟨h.hook?, by have hnext := congrArg Store.nextHook h.store; exact hnext⟩

/-- **Writing a hook back** that was found. -/
theorem saveHook_eq_ok {before : WebHook} (hp : w.database.isPoisoned = false)
    (hw : w.store.hook? id = .ok (some before)) (hsame : h.Same before) :
    ∃ w', saveHook h w = (.ok (), w') ∧ w'.database.isPoisoned = false ∧
      w'.store.lastFailures = w.store.lastFailures ∧ ChangesHook id h.stored w w' := by
  obtain ⟨-, hself, hothers⟩ := Store.hook?_saveFailureState hw hsame
  exact ⟨_, saveHook_of_sound hp hw hsame, hp, Store.lastFailures_saveFailureState w.store h, hself,
    hothers, Store.nextHook_saveFailureState w.store h⟩

theorem keepsHooks_noteDown (h : WebHook) (now : Instant) (w : World) :
    KeepsHooks w (noteDown h now w).2 := by
  refine ⟨(noteDown_cases h now w).2.1, ?_⟩
  rw [noteDown]
  split
  · rfl
  · rw [noteFailure, Action.world_mapFault]
    cases hp : w.database.isPoisoned with
    | true => rw [Action.edit_of_poisoned hp]
    | false =>
      rw [Action.edit_of_sound hp]
      exact Store.nextHook_recordLastFailure w.store h.project now

/-- **The work under the lease** writes the hook and then takes note of its project, or does
nothing. -/
theorem applyToHook_parts (id : Int) (c : Category) (w : World) :
    (∃ before changed w₁, w.store.hook? id = .ok (some before) ∧
        w₁.database.isPoisoned = false ∧ w₁.store.lastFailures = w.store.lastFailures ∧
        ChangesHook id (before.apply c w.now).stored w w₁ ∧
        applyToHook id c w = (.ok (.applied (before.apply c w.now) changed),
          (noteDown (before.apply c w.now) w.now w₁).2)) ∨
      ∃ e, applyToHook id c w = (.error e, w) := by
  rw [applyToHook]
  rcases findHook_cases id w with ⟨before, hfind, hbefore, hp⟩ | ⟨e, hfind⟩
  · refine .inl ⟨before, ?_⟩
    rw [Action.bind_of_ok hfind,
      Action.bind_of_ok (show wallTime w = (.ok w.now, w) from rfl)]
    have hsame := before.same_apply c w.now
    generalize before.apply c w.now = after at hsame
    dsimp only
    by_cases hchanged : after ≠ before
    · obtain ⟨w₁, hsave, hp₁, hfailures, hchanges⟩ := saveHook_eq_ok hp hbefore hsame
      rw [decide_eq_true hchanged, if_pos rfl, Action.bind_of_ok hsave]
      exact ⟨true, w₁, hbefore, hp₁, hfailures, hchanges, noteDown_bind hp₁ after w.now _⟩
    · obtain rfl : after = before := Decidable.not_not.1 hchanged
      rw [decide_eq_false hchanged, if_neg Bool.false_ne_true]
      have hself : ChangesHook id after.stored w w := by
        rw [Store.stored_of_hook? hbefore]
        exact ⟨hbefore, fun _ _ => rfl, rfl⟩
      exact ⟨false, w, hbefore, hp, rfl, hself, noteDown_bind hp after w.now _⟩
  · rw [Action.bind_of_error hfind]
    exact .inr ⟨e, rfl⟩

/-- The world in which an update reads the hook: the one after all attempts to take the lease. -/
def heldWorld (o : LockOptions) (id : Int) (w : World) : World :=
  (Lease.obtain (WebHook.leaseKey id) o w).2

/-- **An update** that answers that it was applied has written the hook, taken note of its project
and given the lease back; any other one has done nothing but to ask for the lease. -/
theorem updateHook_parts (o : LockOptions) (id : Int) (c : Category) (w : World) :
    (∃ before changed guard w₁, w.store.hook? id = .ok (some before) ∧
        w₁.database.isPoisoned = false ∧ w₁.store.lastFailures = w.store.lastFailures ∧
        ChangesHook id (before.apply c (heldWorld o id w).now).stored w w₁ ∧
        updateHook o id c w = (.ok (.applied (before.apply c (heldWorld o id w).now) changed),
          Lease.release guard
            (noteDown (before.apply c (heldWorld o id w).now) (heldWorld o id w).now w₁).2)) ∨
      (∀ h changed, (updateHook o id c w).1 ≠ .ok (.applied h changed)) ∧
        w.OnlyLeases (updateHook o id c w).2 := by
  have hheld : w.OnlyLeases (heldWorld o id w) := Lease.onlyLeases_obtain _ o w
  have herror : ∀ (e : HookError) (h : WebHook) (changed : Bool),
      (Except.error e : Except HookError HookUpdate) ≠ .ok (.applied h changed) :=
    fun _ _ _ => nofun
  have hagrees : ∀ (found h : WebHook) (changed : Bool),
      (Except.ok (.alreadyConsistent found) : Except HookError HookUpdate) ≠
        .ok (.applied h changed) := fun _ _ _ => nofun
  unfold updateHook Lease.inLock
  cases hobtain : Lease.obtain (WebHook.leaseKey id) o w with
  | mk answer w₁ =>
    have hw₁ : heldWorld o id w = w₁ := congrArg Prod.snd hobtain
    rw [hw₁] at hheld ⊢
    match answer with
    | .ok (guard, isRetry) =>
      dsimp only
      rcases applyToHook_parts id c w₁ with
        ⟨before, changed, w₂, hbefore, hp, hfailures, hchanges, hwork⟩ | ⟨e, hwork⟩
      · rw [hwork]
        have hbefore₀ : w.store.hook? id = .ok (some before) := (hheld.hook? id).symm.trans hbefore
        have hfailures₀ : w₁.store.lastFailures = w.store.lastFailures := by
          have hstore := congrArg Store.lastFailures hheld.store
          exact hstore
        exact .inl ⟨before, changed, guard, w₂, hbefore₀, hp, hfailures.trans hfailures₀,
          hheld.keepsHooks.changes hchanges, rfl⟩
      · rw [hwork]
        exact .inr ⟨herror e, hheld.trans (Lease.onlyLeases_release guard w₁)⟩
    | .error (.backend f) => exact .inr ⟨herror _, hheld⟩
    | .error (.notObtained key attempts) =>
      dsimp only
      right
      rw [reconcileHook]
      rcases findHook_cases id w₁ with ⟨h, hfind, -⟩ | ⟨e, hfind⟩
      · rw [Action.bind_of_ok hfind,
          Action.bind_of_ok (show wallTime w₁ = (.ok w₁.now, w₁) from rfl)]
        split
        · exact ⟨hagrees h, hheld⟩
        · exact ⟨herror _, hheld⟩
      · rw [Action.bind_of_error hfind]
        exact ⟨herror e, hheld⟩

/-- An answer of an update that was not applied. -/
theorem HookEvent.ofAnswer_eq_other {answer : Except HookError HookUpdate}
    (h : ∀ hook changed, answer ≠ .ok (.applied hook changed)) (id : Int) (c : Category)
    (t : Instant) : HookEvent.ofAnswer id c t answer = .other := by
  match answer with
  | .ok (.applied hook changed) => exact absurd rfl (h hook changed)
  | .ok (.alreadyConsistent _) => rfl
  | .error _ => rfl

/-- **An update** that answers that it was applied has applied its delivery, at the time that it
was under the lease; and any other update leaves all hooks as they are. -/
theorem updateHook_cases (o : LockOptions) (id : Int) (c : Category) (w : World) :
    (∃ before changed, w.store.hook? id = .ok (some before) ∧
        (updateHook o id c w).1 = .ok (.applied (before.apply c (heldWorld o id w).now) changed) ∧
        ChangesHook id (before.apply c (heldWorld o id w).now).stored w (updateHook o id c w).2) ∨
      (∀ t, HookEvent.ofAnswer id c t (updateHook o id c w).1 = .other) ∧
        KeepsHooks w (updateHook o id c w).2 := by
  rcases updateHook_parts o id c w with
    ⟨before, changed, guard, w₁, hbefore, -, -, hchanges, hupdate⟩ | ⟨hnot, honly⟩
  · rw [hupdate]
    refine .inl ⟨before, changed, hbefore, rfl, ?_⟩
    exact (hchanges.keeps (keepsHooks_noteDown _ _ w₁)).keeps
      (Lease.onlyLeases_release guard _).keepsHooks
  · exact .inr ⟨HookEvent.ofAnswer_eq_other hnot id c, honly.keepsHooks⟩

end Updates

/-! ### Histories -/

/-- **What happened** to the hooks from some world on, and the world that it led to. -/
inductive HookHistory (w₀ : World) : List HookEvent → World → Prop
  /-- Nothing has happened yet. -/
  | start : HookHistory w₀ [] w₀
  /-- A hook is made. -/
  | make {es : List HookEvent} {w : World} (h : HookHistory w₀ es w) (project : Int)
      (url : String) :
      HookHistory w₀ (es ++ [.made w.store.nextHook])
        (w.withStore (w.store.addHook project url).2)
  /-- A hook is updated. -/
  | update {es : List HookEvent} {w : World} (h : HookHistory w₀ es w) (o : LockOptions) (id : Int)
      (c : Category) :
      HookHistory w₀
        (es ++ [.ofAnswer id c (heldWorld o id w).now (updateHook o id c w).1])
        (updateHook o id c w).2
  /-- Anything else happens that leaves all hooks as they are. -/
  | elsewhere {es : List HookEvent} {w w' : World} (h : HookHistory w₀ es w)
      (hkeeps : KeepsHooks w w') : HookHistory w₀ es w'

/-- The deliveries that were applied to a hook. -/
def deliveriesTo (id : Int) (es : List HookEvent) : List (Category × Instant) :=
  es.filterMap (HookEvent.delivery? id)

/-- **Every hook that was made** is as its deliveries leave it, and every other number is free. -/
structure HooksReflect (es : List HookEvent) (w : World) : Prop where
  /-- The hooks that were made. -/
  made : ∀ id, .made id ∈ es → ∃ h, w.store.hook? id = .ok (some h) ∧
    h.Reflects (WebHook.sinceOk (deliveriesTo id es))
  /-- The numbers that are to come. -/
  fresh : ∀ id, w.store.nextHook ≤ id → w.store.hook? id = .ok none ∧ deliveriesTo id es = []

section Histories

variable {w₀ w w' : World} {es es' : List HookEvent} {id : Int}

theorem deliveriesTo_append (id : Int) (es es' : List HookEvent) :
    deliveriesTo id (es ++ es') = deliveriesTo id es ++ deliveriesTo id es' := List.filterMap_append

/-- What is no delivery to a hook. -/
theorem deliveriesTo_concat_of_none {x : HookEvent} (hx : x.delivery? id = none)
    (es : List HookEvent) : deliveriesTo id (es ++ [x]) = deliveriesTo id es := by
  rw [deliveriesTo_append, deliveriesTo, deliveriesTo, List.filterMap_cons, hx]
  exact List.append_nil _

theorem deliveriesTo_concat_self (c : Category) (t : Instant) (es : List HookEvent) :
    deliveriesTo id (es ++ [.applied id c t]) = deliveriesTo id es ++ [(c, t)] := by
  rw [deliveriesTo_append]
  have hlast : (HookEvent.applied id c t).delivery? id = some (c, t) := if_pos rfl
  rw [deliveriesTo, deliveriesTo, List.filterMap_cons, hlast]
  rfl

theorem HookHistory.trans (h : HookHistory w₀ es w) (h' : HookHistory w es' w') :
    HookHistory w₀ (es ++ es') w' := by
  induction h' with
  | start =>
    rw [List.append_nil]
    exact h
  | make _ project url ih =>
    rw [← List.append_assoc]
    exact ih.make project url
  | update _ o id c ih =>
    rw [← List.append_assoc]
    exact ih.update o id c
  | elsewhere _ hkeeps ih => exact ih.elsewhere hkeeps

namespace HooksReflect

theorem made_hook (hr : HooksReflect es w) (project : Int) (url : String) :
    HooksReflect (es ++ [.made w.store.nextHook]) (w.withStore (w.store.addHook project url).2) := by
  obtain ⟨hfree, hnone⟩ := hr.fresh w.store.nextHook (Int.le_refl _)
  have hfound := Store.hook?_addHook project url hfree
  refine ⟨fun id hid => ?_, fun id hid => ?_⟩
  · rw [deliveriesTo_concat_of_none rfl, World.store_withStore, hfound]
    split
    · rename_i heq
      rw [heq, hnone]
      exact ⟨_, rfl, WebHook.Reflects.of_nil rfl rfl rfl⟩
    · rename_i hne
      refine hr.made id ((List.mem_append.1 hid).resolve_right fun hlast => hne ?_)
      exact HookEvent.made.inj (List.mem_singleton.1 hlast)
  · have hlt : w.store.nextHook < id := Int.lt_of_add_one_le hid
    obtain ⟨hstill, hnone'⟩ := hr.fresh id (Int.le_of_lt hlt)
    rw [deliveriesTo_concat_of_none rfl, World.store_withStore, hfound, if_neg (Int.ne_of_gt hlt)]
    exact ⟨hstill, hnone'⟩

theorem keeps (hr : HooksReflect es w) (hkeeps : KeepsHooks w w') : HooksReflect es w' := by
  refine ⟨fun id hid => ?_, fun id hid => ?_⟩
  · rw [hkeeps.hook]
    exact hr.made id hid
  · rw [hkeeps.hook]
    exact hr.fresh id (hkeeps.next ▸ hid)

/-- What is no delivery and makes no hook is not told of. -/
theorem other (hr : HooksReflect es w) : HooksReflect (es ++ [.other]) w := by
  refine ⟨fun id hid => ?_, fun id hid => ?_⟩
  · rw [deliveriesTo_concat_of_none rfl]
    refine hr.made id ((List.mem_append.1 hid).resolve_right fun hlast => ?_)
    cases List.mem_singleton.1 hlast
  · rw [deliveriesTo_concat_of_none rfl]
    exact hr.fresh id hid

/-- **A delivery is applied** to one hook. -/
theorem applied (hr : HooksReflect es w) {before : WebHook} {c : Category} {t : Instant}
    (hbefore : w.store.hook? id = .ok (some before))
    (hchanges : ChangesHook id (before.apply c t).stored w w') :
    HooksReflect (es ++ [.applied id c t]) w' := by
  have hothers : ∀ id' ≠ id, (HookEvent.applied id c t).delivery? id' = none :=
    fun id' hne => if_neg (Ne.symm hne)
  refine ⟨fun id' hid' => ?_, fun id' hid' => ?_⟩
  · have hmade : HookEvent.made id' ∈ es := by
      refine (List.mem_append.1 hid').resolve_right fun hlast => ?_
      cases List.mem_singleton.1 hlast
    obtain ⟨h, hfound, hreflects⟩ := hr.made id' hmade
    by_cases heq : id' = id
    · obtain rfl := heq
      obtain rfl : h = before := by
        rw [hbefore] at hfound
        cases hfound
        rfl
      rw [deliveriesTo_concat_self]
      exact ⟨_, hchanges.self, hreflects.apply (Store.stored_of_hook? hbefore) c t⟩
    · rw [deliveriesTo_concat_of_none (hothers id' heq), hchanges.others id' heq]
      exact ⟨h, hfound, hreflects⟩
  · rw [hchanges.next] at hid'
    obtain ⟨hfree, hnone⟩ := hr.fresh id' hid'
    have hne : id' ≠ id := by
      rintro rfl
      rw [hbefore] at hfree
      cases hfree
    rw [deliveriesTo_concat_of_none (hothers id' hne), hchanges.others id' hne]
    exact ⟨hfree, hnone⟩

end HooksReflect

/-- **Whatever happens**, hooks are as their deliveries leave them. -/
theorem HookHistory.hooksReflect (h : HookHistory w₀ es w) (hempty : w₀.store.hooks = []) :
    HooksReflect es w := by
  induction h with
  | start =>
    refine ⟨nofun, fun id _ => ⟨?_, rfl⟩⟩
    rw [Store.hook?, hempty]
    rfl
  | make _ project url ih => exact ih.made_hook project url
  | @update es w _ o id c ih =>
    rcases updateHook_cases o id c w with
      ⟨before, changed, hbefore, hanswer, hchanges⟩ | ⟨hother, hkeeps⟩
    · rw [hanswer]
      exact ih.applied hbefore hchanges
    · rw [hother]
      exact (ih.keeps hkeeps).other
  | elsewhere _ hkeeps ih => exact ih.keeps hkeeps

/-- **The counts of a hook that was made in a history stay at most a hundred**, and far from the
greatest count, from which a sum would start again at zero. -/
theorem HookHistory.counts_le (h : HookHistory w₀ es w) (hempty : w₀.store.hooks = [])
    (hmade : .made id ∈ es) {hook : WebHook} (hfound : w.store.hook? id = .ok (some hook)) :
    hook.recentFailures ≤ WebHook.countLimit ∧ hook.backoffCount ≤ WebHook.countLimit := by
  obtain ⟨hook', hfound', hreflects⟩ := (h.hooksReflect hempty).made id hmade
  rw [hfound] at hfound'
  cases hfound'
  have hfailures := hreflects.failures_eq
  have hbackoffs := hreflects.backoffs_eq
  constructor
  · change hook.recentFailures.val ≤ 100
    omega
  · change hook.backoffCount.val ≤ 100
    omega

/-- **The failure state of a hook is a function of what happened to it.** Take any history that
begins without hooks, and a hook that was made in it. The hook is there, and has the one failure
state that its deliveries since the last one that went well lead to. It is disabled at all times or
at none, the first just when more than three of them failed; and then it stays so as long as no
delivery goes well. -/
theorem HookHistory.hook_reflects (h : HookHistory w₀ es w) (hempty : w₀.store.hooks = [])
    (hmade : .made id ∈ es) :
    ∃ hook, w.store.hook? id = .ok (some hook) ∧
      hook.Reflects (WebHook.sinceOk (deliveriesTo id es)) ∧
      (∀ other : WebHook, other.Reflects (WebHook.sinceOk (deliveriesTo id es)) →
        hook.recentFailures = other.recentFailures ∧ hook.backoffCount = other.backoffCount ∧
          hook.disabledUntil = other.disabledUntil) ∧
      (∀ now, hook.status now = .disabled ↔
        3 < WebHook.tally .failed (WebHook.sinceOk (deliveriesTo id es))) ∧
      (3 < WebHook.tally .failed (WebHook.sinceOk (deliveriesTo id es)) →
        ∀ es' w', HookHistory w es' w' → (∀ t, .applied id .ok t ∉ es') →
          ∃ hook', w'.store.hook? id = .ok (some hook') ∧ ∀ now, hook'.status now = .disabled) := by
  obtain ⟨hook, hfound, hreflects⟩ := (h.hooksReflect hempty).made id hmade
  refine ⟨hook, hfound, hreflects, fun other hother => hreflects.state_eq hother,
    hreflects.status_eq_disabled_iff, ?_⟩
  intro hfailed es' w' h' hnone
  obtain ⟨hook', hfound', hreflects'⟩ :=
    ((h.trans h').hooksReflect hempty).made id (List.mem_append_left _ hmade)
  refine ⟨hook', hfound', fun now => (hreflects'.status_eq_disabled_iff now).2 ?_⟩
  have hsince : ∀ d ∈ deliveriesTo id es', d.1 ≠ .ok := by
    intro d hd hok
    obtain ⟨x, hx, hdelivery⟩ := List.mem_filterMap.1 hd
    cases x with
    | applied id' c t =>
      rw [HookEvent.delivery?] at hdelivery
      split at hdelivery
      · rename_i heq
        cases hdelivery
        obtain rfl : c = .ok := hok
        exact hnone t (heq ▸ hx)
      · cases hdelivery
    | made id' => cases hdelivery
    | other => cases hdelivery
  rw [deliveriesTo_append, WebHook.sinceOk_append hsince, WebHook.tally_append]
  omega

/-! A hook backs off twice, the second time by a clock that was set back. -/

/-- A world without hooks, at a time that is not in whole milliseconds. -/
def quietWorld : World := { clock := { wall := ⟨2500000, by decide, by decide⟩ } }

/-- The world after a hook was made. -/
def oneHook : World := quietWorld.withStore (quietWorld.store.addHook 7 "https://example.org").2

/-- The world after its first error, with the clock set back. -/
def setBack : World :=
  { (updateHook hookLockOptions 1 .error oneHook).2 with clock := { wall := .epoch } }

/-- What has happened after a second error. -/
def twoErrors : List HookEvent :=
  [.made 1, .applied 1 .error oneHook.now, .applied 1 .error setBack.now]

set_option maxRecDepth 4000 in
theorem hook_reflects_twoErrors :
    ∃ w, HookHistory quietWorld twoErrors w ∧
      ∃ hook, w.store.hook? 1 = .ok (some hook) ∧
        hook.Reflects [(.error, oneHook.now), (.error, setBack.now)] ∧
        hook.disabledUntil.map Instant.nanos = some (1200 * 1000000000) := by
  have hmake : HookHistory quietWorld [.made 1] oneHook :=
    HookHistory.start.make 7 "https://example.org"
  have hfirst : HookHistory quietWorld _ setBack :=
    (hmake.update hookLockOptions 1 .error).elsewhere ⟨fun _ => rfl, rfl⟩
  have hsecond := hfirst.update hookLockOptions 1 .error
  have hevents : ([.made 1] ++ [HookEvent.ofAnswer 1 .error
      (heldWorld hookLockOptions 1 oneHook).now (updateHook hookLockOptions 1 .error oneHook).1]) ++
      [HookEvent.ofAnswer 1 .error (heldWorld hookLockOptions 1 setBack).now
        (updateHook hookLockOptions 1 .error setBack).1] = twoErrors := by
    decide +kernel
  rw [hevents] at hsecond
  obtain ⟨hook, hfound, hreflects, -⟩ :=
    hsecond.hook_reflects rfl (List.mem_cons_self : HookEvent.made 1 ∈ twoErrors)
  refine ⟨_, hsecond, hook, hfound, hreflects, ?_⟩
  refine hreflects.waiting [(.error, oneHook.now)] setBack.now [] rfl rfl fun mid t' rest hcut => ?_
  cases mid <;> cases hcut

end Histories

end Leasehold
