import Leasehold.Proofs.Lease.Ledger
import Leasehold.Store.Leases

/-!
# Purging is invisible

Purging removes the leases that are not live any more, and whoever takes, renews or looks at a key
afterwards cannot tell: a lease that is over counts no more than one that is missing
(`Leasehold.Ledger.Lacks.live?_eq`). Only its former holder can tell, who gives it back too late: a
lease that was purged is not found any more (`Leasehold.Store.purge_invisible`).

The proof looks at both tables side by side, the purged one and the other. They differ by the leases
that were purged and that nobody has taken over or given back since, and each call leaves that
difference as it is or settles it for its own key (`Leasehold.Store.LeaseQuery.lacks_serve`).
-/

namespace Leasehold

/-! ### Ledgers that lack some leases -/

namespace Ledger

/-- **A ledger that lacks some leases of another one**, all of them over at some time. Of every
other key both say the same. -/
structure Lacks (p : Int) (lost : String → Hold Int → Prop) (l l' : Ledger Int) : Prop where
  /-- What is lost is in the other ledger only, and is over. -/
  missing : ∀ key h, lost key h → l.find? key = some h ∧ l'.find? key = none ∧ h.expiry ≤ p
  /-- Of other keys both say the same. -/
  same : ∀ key, (∀ h, ¬lost key h) → l'.find? key = l.find? key

variable {p now : Int} {lost lost' : String → Hold Int → Prop} {l l' m m' : Ledger Int}
  {key : String}

/-- A key that no entry has is not found. -/
theorem find?_eq_none (h : ∀ e ∈ l, e.1 ≠ key) : l.find? key = none := by
  rw [find?, List.find?_eq_none.2 fun e he => by simpa using h e he]
  rfl

/-- What a purged ledger says of a key. -/
theorem find?_purge_eq_filter (hl : l.Pairwise fun a b => a.1 ≠ b.1) (p : Int) (key : String) :
    (l.purge p).2.find? key = (l.find? key).filter fun h => p < h.expiry := by
  induction l with
  | nil => rfl
  | cons e l ih =>
    obtain ⟨hne, hl⟩ := List.pairwise_cons.1 hl
    have ih := ih hl
    change find? key (l.filter fun e => p < e.2.expiry) = _ at ih
    change find? key ((e :: l).filter fun e => p < e.2.expiry) = _
    by_cases hkey : e.1 = key
    · have hfound : find? key (e :: l) = some e.2 := by simp [find?, hkey]
      rw [hfound, List.filter_cons]
      by_cases hlive : p < e.2.expiry
      · rw [if_pos (decide_eq_true hlive), Option.filter_some, if_pos (decide_eq_true hlive)]
        simp [find?, hkey]
      · -- No other entry has the key, so nothing is found once this one is purged.
        rw [if_neg (by simpa using hlive), Option.filter_some, if_neg (by simpa using hlive)]
        refine find?_eq_none fun x hx => ?_
        rw [← hkey]
        exact (hne x (List.mem_filter.1 hx).1).symm
    · have hrest : ∀ l, find? key (e :: l) = find? key l := fun l => by simp [find?, hkey]
      rw [hrest, ← ih, List.filter_cons]
      split
      · exact hrest _
      · rfl

/-- **A purged ledger lacks the leases that were over.** -/
theorem lacks_purge (hl : l.Pairwise fun a b => a.1 ≠ b.1) (p : Int) :
    Lacks p (fun key h => l.find? key = some h ∧ h.expiry ≤ p) l (l.purge p).2 := by
  constructor
  · rintro key h ⟨hh, hover⟩
    refine ⟨hh, ?_, hover⟩
    rw [find?_purge_eq_filter hl, hh, Option.filter_some, if_neg (by simpa using hover)]
  · intro key hkey
    rw [find?_purge_eq_filter hl]
    cases hh : l.find? key with
    | none => rfl
    | some h =>
      have hlive : ¬h.expiry ≤ p := fun hover => hkey h ⟨hh, hover⟩
      rw [Option.filter_some, if_pos (by simpa using hlive)]

namespace Lacks

/-- **Leases that are over do not show**: the live leases of both are the same. -/
theorem live?_eq (h : Lacks p lost l l') (hnow : p ≤ now) (key : String) :
    l'.live? key now = l.live? key now := by
  by_cases hlost : ∃ x, lost key x
  · obtain ⟨x, hx⟩ := hlost
    obtain ⟨hl, hl', hover⟩ := h.missing key x hx
    rw [live?, live?, hl, hl', Option.filter_some, if_neg]
    · rfl
    · rw [decide_eq_true_eq]
      omega
  · rw [live?, live?, h.same key fun x hx => hlost ⟨x, hx⟩]

/-- A key with a live lease has lost none. -/
theorem not_lost (h : Lacks p lost l l') (hnow : p ≤ now) {x : Hold Int}
    (hx : l.live? key now = some x) (y : Hold Int) : ¬lost key y := by
  intro hy
  obtain ⟨hfind, hlive⟩ := live?_eq_some.1 hx
  obtain ⟨hl, -, hover⟩ := h.missing key y hy
  obtain rfl : x = y := Option.some.inj (hfind.symm.trans hl)
  omega

/-- **What settles a key** in both ledgers leaves them different in other keys only. -/
theorem settle (h : Lacks p lost l l') (key : String) (hself : m'.find? key = m.find? key)
    (hm : ∀ key' ≠ key, m.find? key' = l.find? key')
    (hm' : ∀ key' ≠ key, m'.find? key' = l'.find? key') :
    Lacks p (fun key' x => lost key' x ∧ key' ≠ key) m m' := by
  constructor
  · rintro key' x ⟨hx, hne⟩
    obtain ⟨hl, hl', hover⟩ := h.missing key' x hx
    exact ⟨(hm key' hne).trans hl, (hm' key' hne).trans hl', hover⟩
  · intro key' hkey'
    by_cases hne : key' = key
    · rw [hne, hself]
    · rw [hm key' hne, hm' key' hne]
      exact h.same key' fun x hx => hkey' x ⟨hx, hne⟩

theorem congr (h : Lacks p lost l l') (hlost : ∀ key x, lost' key x ↔ lost key x) :
    Lacks p lost' l l' := by
  obtain rfl : lost' = lost := funext fun key => funext fun x => propext (hlost key x)
  exact h

/-- **Taking a key** works in both ledgers or in neither, and settles it. -/
theorem take? (h : Lacks p lost l l') (hnow : p ≤ now) (key : String) (token : Token)
    (expiry : Int) :
    (l'.take? key token now expiry).isSome = (l.take? key token now expiry).isSome ∧
      Lacks p (fun key' x => lost key' x ∧ key' ≠ key) ((l.take? key token now expiry).getD l)
        ((l'.take? key token now expiry).getD l') := by
  rw [Ledger.take?, Ledger.take?, h.live?_eq hnow]
  split
  · rename_i hlive
    obtain ⟨x, hx⟩ := Option.isSome_iff_exists.1 hlive
    refine ⟨rfl, h.settle key (h.same key (h.not_lost hnow hx)) ?_ ?_⟩
    · exact fun _ _ => rfl
    · exact fun _ _ => rfl
  · refine ⟨rfl, h.settle key ?_ (fun key' hne => ?_) fun key' hne => ?_⟩
    · exact (find?_put_self _ _ _).trans (find?_put_self _ _ _).symm
    · exact find?_put_of_ne hne _ _
    · exact find?_put_of_ne hne _ _

/-- **Renewing a lease** works in both ledgers or in neither. -/
theorem renew? (h : Lacks p lost l l') (hnow : p ≤ now) (key : String) (token : Token)
    (expiry : Int) :
    (l'.renew? key token now expiry).isSome = (l.renew? key token now expiry).isSome ∧
      Lacks p lost ((l.renew? key token now expiry).getD l)
        ((l'.renew? key token now expiry).getD l') := by
  rw [Ledger.renew?, Ledger.renew?, h.live?_eq hnow]
  split
  · rename_i x hx
    split
    · have hnone := h.not_lost hnow hx
      refine ⟨rfl, (h.settle key ?_ (fun key' hne => ?_) fun key' hne => ?_).congr ?_⟩
      · exact (find?_put_self _ _ _).trans (find?_put_self _ _ _).symm
      · exact find?_put_of_ne hne _ _
      · exact find?_put_of_ne hne _ _
      · -- The key has a live lease, so it has lost none.
        exact fun key' y =>
          (and_iff_left_of_imp fun hy (hkey : key' = key) => hnone y (hkey ▸ hy)).symm
    · exact ⟨rfl, h⟩
  · exact ⟨rfl, h⟩

/-- **A lease that is lost** can be given back in one ledger only. -/
theorem cancel?_of_lost (h : Lacks p lost l l') {x : Hold Int} (hx : lost key x) :
    (l.cancel? key x.token).isSome = true ∧ (l'.cancel? key x.token).isSome = false ∧
      Lacks p (fun key' y => lost key' y ∧ key' ≠ key) ((l.cancel? key x.token).getD l)
        ((l'.cancel? key x.token).getD l') := by
  obtain ⟨hl, hl', -⟩ := h.missing key x hx
  rw [Ledger.cancel?, Ledger.cancel?, hl, hl']
  dsimp only
  rw [if_pos rfl]
  refine ⟨rfl, rfl, h.settle key ?_ (fun key' hne => ?_) fun key' hne => ?_⟩
  · exact hl'.trans (find?_drop_self key l).symm
  · exact find?_drop_of_ne hne l
  · rfl

/-- **Giving back any other lease** works in both ledgers or in neither. -/
theorem cancel?_of_not_lost (h : Lacks p lost l l') (token : Token)
    (hnone : ∀ x, lost key x → x.token ≠ token) :
    (l'.cancel? key token).isSome = (l.cancel? key token).isSome ∧
      Lacks p lost ((l.cancel? key token).getD l) ((l'.cancel? key token).getD l') := by
  by_cases hlost : ∃ x, lost key x
  · obtain ⟨x, hx⟩ := hlost
    obtain ⟨hl, hl', -⟩ := h.missing key x hx
    rw [Ledger.cancel?, Ledger.cancel?, hl, hl']
    dsimp only
    rw [if_neg (hnone x hx)]
    exact ⟨rfl, h⟩
  · have hsame := h.same key fun x hx => hlost ⟨x, hx⟩
    rw [Ledger.cancel?, Ledger.cancel?, hsame]
    split
    · split
      · refine ⟨rfl, (h.settle key ?_ (fun key' hne => ?_) fun key' hne => ?_).congr ?_⟩
        · exact (find?_drop_self key l').trans (find?_drop_self key l).symm
        · exact find?_drop_of_ne hne l
        · exact find?_drop_of_ne hne l'
        · exact fun key' y =>
            (and_iff_left_of_imp fun hy (hkey : key' = key) => hlost ⟨y, hkey ▸ hy⟩).symm
      · exact ⟨rfl, h⟩
    · exact ⟨rfl, h⟩

end Lacks

end Ledger

namespace Store

/-! ### Calls on the leases of a store -/

/-- **A call on the leases of a store.** -/
inductive LeaseQuery where
  /-- A key is taken, unless its lease is live. -/
  | take (key : String) (token : Token) (now deadline : Instant)
  /-- The deadline of a lease is moved. -/
  | renew (key : String) (token : Token) (now deadline : Instant)
  /-- Who holds a key. -/
  | holder (key : String) (now : Instant)
  /-- A lease is given back. -/
  | cancel (key : String) (token : Token)

/-- **What a call answers.** -/
inductive LeaseReply where
  /-- Whether it was done. -/
  | done (isDone : Bool)
  /-- The holder and the deadline, if there is a holder. -/
  | holder (answer : Except Fault (Option (Token × Instant)))

namespace LeaseQuery

/-- **One call**: its answer, and the store afterwards. -/
def serve (s : Store) : LeaseQuery → LeaseReply × Store
  | take key token now deadline =>
    let (isDone, s) := s.takeLease key token now deadline
    (.done isDone, s)
  | renew key token now deadline =>
    let (isDone, s) := s.renewLease key token now deadline
    (.done isDone, s)
  | holder key now => (.holder (s.leaseHolder? key now), s)
  | cancel key token =>
    let (isDone, s) := s.cancelLease key token
    (.done isDone, s)

/-- **A call reads no earlier time** than some instant. -/
def ReadsFrom (p : Instant) : LeaseQuery → Prop
  | take _ _ now _ => p ≤ now
  | renew _ _ now _ => p ≤ now
  | holder _ now => p ≤ now
  | cancel _ _ => True

instance (p : Instant) : (q : LeaseQuery) → Decidable (q.ReadsFrom p)
  | take _ _ now _ => inferInstanceAs (Decidable (p ≤ now))
  | renew _ _ now _ => inferInstanceAs (Decidable (p ≤ now))
  | holder _ now => inferInstanceAs (Decidable (p ≤ now))
  | cancel _ _ => inferInstanceAs (Decidable True)

/-- **A call settles a lease that is over**: it takes the key over, or gives the lease back. -/
def Settles (key : String) (token : Token) : LeaseQuery → Prop
  | take key' _ _ _ => key' = key
  | cancel key' token' => key' = key ∧ token' = token
  | _ => False

instance (key : String) (token : Token) : (q : LeaseQuery) → Decidable (q.Settles key token)
  | take key' _ _ _ => inferInstanceAs (Decidable (key' = key))
  | renew _ _ _ _ => inferInstanceAs (Decidable False)
  | holder _ _ => inferInstanceAs (Decidable False)
  | cancel key' token' => inferInstanceAs (Decidable (key' = key ∧ token' = token))

variable {s s' : Store} {p : Instant} {lost lost' : String → Hold Int → Prop} {q : LeaseQuery}
  {qs : List LeaseQuery} {key : String} {token : Token}

theorem replaceLeases_eq (s : Store) (l : Option (Ledger Int)) :
    s.replaceLeases l = (l.isSome, { s with leases := l.getD s.leases }) := by
  cases l <;> rfl

/-- **After a call** the stores differ by the leases that it has not settled. -/
theorem lacks_serve (h : Ledger.Lacks p.millis lost s.leases s'.leases) (hq : q.ReadsFrom p) :
    Ledger.Lacks p.millis (fun key x => lost key x ∧ ¬q.Settles key x.token)
      (q.serve s).2.leases (q.serve s').2.leases := by
  cases q with
  | take key token now deadline =>
    obtain ⟨-, htake⟩ := h.take? (Instant.millis_le_millis hq) key token deadline.millis
    simp only [serve, takeLease, replaceLeases_eq]
    exact htake.congr fun key' x => and_congr_right' (not_congr eq_comm)
  | renew key token now deadline =>
    obtain ⟨-, hrenew⟩ := h.renew? (Instant.millis_le_millis hq) key token deadline.millis
    simp only [serve, renewLease, replaceLeases_eq]
    exact hrenew.congr fun key' x => and_iff_left not_false
  | holder key now => exact h.congr fun key' x => and_iff_left not_false
  | cancel key token =>
    simp only [serve, cancelLease, replaceLeases_eq]
    by_cases hlost : ∃ x, lost key x ∧ x.token = token
    · obtain ⟨x, hx, rfl⟩ := hlost
      obtain ⟨-, -, hcancel⟩ := h.cancel?_of_lost hx
      refine hcancel.congr fun key' y => and_congr_right fun hy => not_congr ?_
      refine ⟨fun hsettles => hsettles.1.symm, ?_⟩
      rintro rfl
      refine ⟨rfl, ?_⟩
      have hxy := (h.missing key' x hx).1.symm.trans (h.missing key' y hy).1
      rw [Option.some.inj hxy]
    · obtain ⟨-, hcancel⟩ := h.cancel?_of_not_lost token fun x hx htoken =>
        hlost ⟨x, hx, htoken⟩
      refine hcancel.congr fun key' y => and_iff_left_of_imp ?_
      rintro hy ⟨rfl, htoken⟩
      exact hlost ⟨y, hy, htoken.symm⟩

/-- **Both stores answer a call alike**, unless it gives back a lease that is lost. -/
theorem serve_eq (h : Ledger.Lacks p.millis lost s.leases s'.leases) (hq : q.ReadsFrom p)
    (hlost : ∀ key x, lost key x → q ≠ cancel key x.token) : (q.serve s').1 = (q.serve s).1 := by
  cases q with
  | take key token now deadline =>
    obtain ⟨htake, -⟩ := h.take? (Instant.millis_le_millis hq) key token deadline.millis
    simp only [serve, takeLease, replaceLeases_eq, htake]
  | renew key token now deadline =>
    obtain ⟨hrenew, -⟩ := h.renew? (Instant.millis_le_millis hq) key token deadline.millis
    simp only [serve, renewLease, replaceLeases_eq, hrenew]
  | holder key now =>
    simp only [serve, leaseHolder?, h.live?_eq (Instant.millis_le_millis hq)]
  | cancel key token =>
    obtain ⟨hcancel, -⟩ := h.cancel?_of_not_lost token fun x hx htoken =>
      hlost key x hx (htoken ▸ rfl)
    simp only [serve, cancelLease, replaceLeases_eq, hcancel]

/-- **A lease that is lost is given back** in one store only. -/
theorem serve_of_lost (h : Ledger.Lacks p.millis lost s.leases s'.leases) {x : Hold Int}
    (hx : lost key x) :
    ((cancel key x.token).serve s).1 = .done true ∧
      ((cancel key x.token).serve s').1 = .done false := by
  obtain ⟨hcancel, hcancel', -⟩ := h.cancel?_of_lost hx
  simp only [serve, cancelLease, replaceLeases_eq, hcancel, hcancel', and_self]

end LeaseQuery

/-! ### Calls one after another -/

/-- **The store after calls**, one after another. -/
def serveLeases (s : Store) (qs : List LeaseQuery) : Store :=
  qs.foldl (fun s q => (q.serve s).2) s

/-- **After any calls** the stores differ by the leases that none of them has settled. -/
theorem lacks_serveLeases {s s' : Store} {p : Instant} {lost : String → Hold Int → Prop}
    {qs : List LeaseQuery} (h : Ledger.Lacks p.millis lost s.leases s'.leases)
    (hqs : ∀ q ∈ qs, q.ReadsFrom p) :
    Ledger.Lacks p.millis (fun key x => lost key x ∧ ∀ q ∈ qs, ¬q.Settles key x.token)
      (s.serveLeases qs).leases (s'.serveLeases qs).leases := by
  induction qs generalizing s s' lost with
  | nil => exact h.congr fun key x => and_iff_left (List.forall_mem_nil _)
  | cons q qs ih =>
    obtain ⟨hq, hqs⟩ := List.forall_mem_cons.1 hqs
    refine (ih (LeaseQuery.lacks_serve h hq) hqs).congr fun key x => ?_
    rw [List.forall_mem_cons, and_assoc]

/-- **A lease that was purged** at some time, and that no call has taken over or given back
since. -/
def IsPurged (s : Store) (p : Instant) (qs : List LeaseQuery) (key : String) (token : Token) :
    Prop :=
  (∃ expiry ≤ p.millis, s.leases.find? key = some ⟨token, expiry⟩) ∧
    ∀ q ∈ qs, ¬q.Settles key token

/-- **Purging is invisible.** It removes the leases that are over, and says how many. Whatever calls
come later, each of them is answered as if nothing had been purged, except that a lease which was
purged, and which nobody has taken over or given back since, is not there to be given back. -/
theorem purge_invisible (s : Store) (hs : s.leases.Pairwise fun a b => a.1 ≠ b.1) (p : Instant) :
    (s.purgeLeases p).1 = s.leases.countP (fun e => e.2.expiry ≤ p.millis) ∧
      (s.purgeLeases p).2 = { s with leases := s.leases.filter fun e => ¬e.2.expiry ≤ p.millis } ∧
      ∀ (qs : List LeaseQuery) (q : LeaseQuery), (∀ q' ∈ qs, q'.ReadsFrom p) → q.ReadsFrom p →
        ((∀ key token, s.IsPurged p qs key token → q ≠ .cancel key token) →
          (q.serve ((s.purgeLeases p).2.serveLeases qs)).1 = (q.serve (s.serveLeases qs)).1) ∧
        ∀ key token, s.IsPurged p qs key token → q = .cancel key token →
          (q.serve (s.serveLeases qs)).1 = .done true ∧
            (q.serve ((s.purgeLeases p).2.serveLeases qs)).1 = .done false := by
  refine ⟨?_, ?_, ?_⟩
  · rw [purgeLeases, Ledger.purge, List.countP_eq_length_filter]
    simp only [Int.not_lt]
  · rw [purgeLeases, Ledger.purge]
    simp only [Int.not_le]
  · intro qs q hqs hq
    have hlacks : Ledger.Lacks p.millis _ _ ((s.purgeLeases p).2.serveLeases qs).leases :=
      lacks_serveLeases (Ledger.lacks_purge hs p.millis) hqs
    refine ⟨fun hother => LeaseQuery.serve_eq hlacks hq ?_, ?_⟩
    · rintro key ⟨token, expiry⟩ ⟨⟨hfind, hover⟩, hsettled⟩
      exact hother key token ⟨⟨expiry, hover, hfind⟩, hsettled⟩
    · rintro key token ⟨⟨expiry, hover, hfind⟩, hsettled⟩ rfl
      exact LeaseQuery.serve_of_lost (x := ⟨token, expiry⟩) hlacks ⟨⟨hfind, hover⟩, hsettled⟩

/-! Two leases, of which one is over, and what may happen to it after a purge. -/

/-- A store with a lease that is over after five seconds, and another one. -/
def overdueStore : Store :=
  { leases := [("old", ⟨.named "a", 5000⟩), ("live", ⟨.named "b", 50000⟩)] }

/-- Ten seconds after the start of 1970. -/
def tenSeconds : Instant := Instant.epoch + Span.ofSeconds 10

/-- Somebody looks at both keys. -/
def lookingOn : List LeaseQuery :=
  [.holder "old" tenSeconds, .take "live" (.named "c") tenSeconds .last]

/-- Somebody takes the key over whose lease is over. -/
def takingOver : List LeaseQuery := [.take "old" (.named "c") tenSeconds .last]

/-- **The lease that is over cannot be given back after the purge**, and once it has been taken over
it cannot be given back either way. -/
theorem purge_invisible_overdueStore :
    (overdueStore.purgeLeases tenSeconds).1 = 1 ∧
      ((LeaseQuery.cancel "old" (.named "a")).serve (overdueStore.serveLeases lookingOn)).1 =
        .done true ∧
      ((LeaseQuery.cancel "old" (.named "a")).serve
        ((overdueStore.purgeLeases tenSeconds).2.serveLeases lookingOn)).1 = .done false ∧
      ((LeaseQuery.cancel "old" (.named "a")).serve
          ((overdueStore.purgeLeases tenSeconds).2.serveLeases takingOver)).1 =
        ((LeaseQuery.cancel "old" (.named "a")).serve (overdueStore.serveLeases takingOver)).1 := by
  obtain ⟨hcount, -, hanswers⟩ := purge_invisible overdueStore (by decide) tenSeconds
  obtain ⟨-, hgone⟩ := hanswers lookingOn (.cancel "old" (.named "a")) (by decide) trivial
  obtain ⟨hsame, -⟩ := hanswers takingOver (.cancel "old" (.named "a")) (by decide) trivial
  have hpurged : overdueStore.IsPurged tenSeconds lookingOn "old" (.named "a") :=
    ⟨⟨5000, by decide, by decide⟩, by decide⟩
  refine ⟨hcount, (hgone "old" (.named "a") hpurged rfl).1,
    (hgone "old" (.named "a") hpurged rfl).2, hsame ?_⟩
  rintro key token ⟨-, hsettled⟩ hcancel
  cases hcancel
  exact hsettled _ List.mem_cons_self rfl

end Store

end Leasehold
