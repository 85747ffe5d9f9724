import Leasehold.Proofs.Lease.Lock
import Leasehold.Proofs.World.Views

/-!
# Leases under one key

A lease service keeps the leases of all keys, but a call under one key looks at no other key's
lease, and changes none. The view that says so is what can be seen under a key
(`Leasehold.World.sight`): the key's lease, and any rows of the tables besides. Taking a lease and
giving it back depend on the sight of their own key and on the occasion
(`Leasehold.Lease.alikeOn_obtain`, `Leasehold.Lease.alikeOn_release`), and keep the sight of every
other (`Leasehold.Lease.keeps_obtain`, `Leasehold.Lease.sight_release`). Work under a lease has both
properties when the work has them.
-/

namespace Leasehold

/-- **What can be seen under a key.** -/
structure Sight (ρ : Type) where
  /-- Whether the database is poisoned. -/
  isPoisoned : Bool
  /-- The key's lease in memory, if that is where leases are kept. -/
  inMemory : Option (Option (Hold Span))
  /-- The key's lease in the store. -/
  inStore : Option (Hold Int)
  /-- Some rows of the tables. -/
  rows : ρ

namespace World

variable {ρ : Type}

/-- **The sight of a key**, with some rows. -/
def sight (key : String) (rows : Store → ρ) (w : World) : Sight ρ where
  isPoisoned := w.database.isPoisoned
  inMemory :=
    match w.leases.backend with
    | .memory holds => some (holds.find? key)
    | .shared => none
  inStore := w.store.leases.find? key
  rows := rows w.store

/-- The sight of a key on an occasion. -/
def scene (key : String) (rows : Store → ρ) (w : World) : Sight ρ × Occasion :=
  (w.sight key rows, w.occasion)

variable {key : String} {rows : Store → ρ} {w w' : World}

theorem inMemory_sight_of_memory {holds : Ledger Span} (h : w.leases.backend = .memory holds) :
    (w.sight key rows).inMemory = some (holds.find? key) := by
  rw [sight, h]

/-- Other tables. -/
theorem sight_withStore (w : World) (s : Store) :
    (w.withStore s).sight key rows =
      { w.sight key rows with inStore := s.leases.find? key, rows := rows s } := rfl

/-- Another ledger in memory. -/
theorem sight_withMemory (w : World) (holds : Ledger Span) :
    World.sight key rows { w with leases := { w.leases with backend := .memory holds } } =
      { w.sight key rows with inMemory := some (holds.find? key) } := rfl

/-- What can be seen under a key says which lease it has. -/
theorem lease?_eq_of_sight_eq (h : w.sight key rows = w'.sight key rows) :
    w.lease? key = w'.lease? key := by
  have hmemory := congrArg Sight.inMemory h
  have hstore := congrArg Sight.inStore h
  cases hb : w.leases.backend <;> cases hb' : w'.leases.backend <;>
    simp only [sight, hb, hb', reduceCtorEq, Option.some.injEq] at hmemory hstore
  · rw [lease?_of_memory hb, lease?_of_memory hb', hmemory]
  · rw [lease?_of_shared hb, lease?_of_shared hb', hstore]

theorem isPoisoned_eq_of_scene_eq (h : w.scene key rows = w'.scene key rows) :
    w.database.isPoisoned = w'.database.isPoisoned :=
  congrArg (fun s => s.1.isPoisoned) h

/-- Another occasion shows the same under every key. -/
theorem scene_meet (h : w.sight key rows = w'.sight key rows) (o : Occasion) :
    (w.meet o).scene key rows = (w'.meet o).scene key rows :=
  Prod.ext h rfl

end World

namespace Ledger

variable {D : Type} {l l' : Ledger D} {key : String} {token : Token}

/-- Whether a lease can be given back, and what that leaves, is for its own entry to say. -/
theorem find?_cancel? (h : l.find? key = l'.find? key) :
    (l.cancel? key token).map (find? key) = (l'.cancel? key token).map (find? key) := by
  rw [cancel?, cancel?, h]
  split
  · split
    · simp only [Option.map_some, find?_drop_self]
    · rfl
  · rfl

/-- Whether a key can be taken, and what that leaves, is for its own entry to say. -/
theorem find?_take? [LT D] [DecidableLT D] {now expiry : D} (h : l.find? key = l'.find? key) :
    (l.take? key token now expiry).map (find? key) =
      (l'.take? key token now expiry).map (find? key) := by
  have hlive : l.live? key now = l'.live? key now := congrArg (Option.filter _) h
  rw [take?, take?, hlive]
  split
  · rfl
  · simp only [Option.map_some, find?_put_self]

end Ledger

namespace Lease

open Leasehold.Action (Keeps AlikeOn keeps_pure alikeOn_pure alikeOn_throw)

variable {ε α ρ : Type} {key key' : String} {rows : Store → ρ} {ttl : Span}

/-! ### Parts of calls that see no lease -/

theorem keeps_countTry : Keeps (World.sight key rows) countTry := fun _ => rfl

theorem keeps_issueToken : Keeps (World.sight key rows) issueToken := fun _ => rfl

theorem keeps_meetContention : Keeps (World.sight key rows) meetContention := fun _ => rfl

theorem keeps_wallTime : Keeps (World.sight key rows) (wallTime : Action ε Instant) := fun _ => rfl

theorem keeps_sleep (d : Span) : Keeps (World.sight key rows) (sleep d : Action ε Unit) :=
  fun _ => rfl

theorem keeps_meetFault (call : LeaseCall) : Keeps (World.sight key rows) (meetFault call) := by
  intro w
  rw [meetFault]
  split
  · rfl
  · rename_i fails rest _
    cases fails <;> rfl

/-- An action that neither looks at leases and tables nor changes them depends on the occasion. -/
theorem alikeOn_of_keeps {a : Action ε α} (ha : Keeps (World.sight key rows) a)
    (f : Occasion → Except ε α × Occasion)
    (hf : ∀ w, ((a w).1, (a w).2.occasion) = f w.occasion) :
    AlikeOn (World.scene key rows) a a := by
  intro w w' hw
  obtain ⟨hsight, hoccasion⟩ := Prod.mk.inj hw
  obtain ⟨hanswer, hafter⟩ := Prod.mk.inj ((hf w).trans (hoccasion ▸ (hf w').symm))
  exact ⟨hanswer, Prod.ext ((ha w).trans (hsight.trans (ha w').symm)) hafter⟩

theorem alikeOn_countTry : AlikeOn (World.scene key rows) countTry countTry :=
  alikeOn_of_keeps keeps_countTry (fun o => (.ok (), { o with tries := o.tries + 1 })) fun _ => rfl

theorem alikeOn_issueToken : AlikeOn (World.scene key rows) issueToken issueToken :=
  alikeOn_of_keeps keeps_issueToken
    (fun o => (.ok (.issued o.issued), { o with issued := o.issued + 1 })) fun _ => rfl

theorem alikeOn_meetContention : AlikeOn (World.scene key rows) meetContention meetContention :=
  alikeOn_of_keeps keeps_meetContention
    (fun o => (.ok (), { o with clock := o.clock.advance (o.contention o.tries) })) fun _ => rfl

theorem alikeOn_sleep (d : Span) :
    AlikeOn (World.scene key rows) (sleep d : Action LeaseError Unit) (sleep d) :=
  alikeOn_of_keeps (keeps_sleep d) (fun o => (.ok (), o)) fun _ => rfl

theorem alikeOn_wallTime :
    AlikeOn (World.scene key rows) (wallTime : Action LeaseError Instant) wallTime :=
  alikeOn_of_keeps keeps_wallTime (fun o => (.ok o.clock.now, o)) fun _ => rfl

theorem alikeOn_readElapsed :
    AlikeOn (World.scene key rows) (readElapsed : Action LeaseError Span) readElapsed :=
  alikeOn_of_keeps (fun _ => rfl)
    (fun o => (.ok o.clock.read.1, { o with clock := o.clock.read.2 })) fun _ => rfl

/-- Meets the fault that waits for a call on an occasion, if there is one. -/
def meetFaultOn (call : LeaseCall) (o : Occasion) : Except LeaseError Unit × Occasion :=
  match o.faults call with
  | [] => (.ok (), o)
  | fails :: rest =>
    (if fails then .error (.backend (.injected call)) else .ok (),
      { o with faults := fun c => if c = call then rest else o.faults c })

/-- The fault that waits for a call is met on the same occasion. -/
theorem alikeOn_meetFault (call : LeaseCall) :
    AlikeOn (World.scene key rows) (meetFault call) (meetFault call) := by
  refine alikeOn_of_keeps (keeps_meetFault call) (meetFaultOn call) fun w => ?_
  have hfaults : w.occasion.faults = w.leases.faults := rfl
  rw [meetFault, meetFaultOn, hfaults]
  cases w.leases.faults call with
  | nil => rfl
  | cons fails rest => cases fails <;> rfl

/-! ### Parts of calls on a ledger -/

section Ledgers

/-- **The ledgers are taken along**, of which the calls use one entry. -/
theorem alikeOn_backend {f : LeaseBackend → Action LeaseError α}
    (hmemory : ∀ holds holds' : Ledger Span, holds.find? key = holds'.find? key →
      AlikeOn (World.scene key rows) (f (.memory holds)) (f (.memory holds')))
    (hshared : AlikeOn (World.scene key rows) (f .shared) (f .shared)) :
    AlikeOn (World.scene key rows) (backend >>= f) (backend >>= f) := by
  intro w w' hw
  have hmem := congrArg (fun s => s.1.inMemory) hw
  rw [Action.bind_of_ok (show backend w = (.ok w.leases.backend, w) from rfl),
    Action.bind_of_ok (show backend w' = (.ok w'.leases.backend, w') from rfl)]
  -- Worlds that show the same keep their leases in the same place.
  cases hb : w.leases.backend <;> cases hb' : w'.leases.backend <;>
    simp only [World.scene, World.sight, hb, hb', reduceCtorEq, Option.some.injEq] at hmem
  · exact hmemory _ _ hmem w w' hw
  · exact hshared w w' hw

theorem alikeOn_editMemory {holds holds' : Ledger Span} {f : Ledger Span → Option (Ledger Span)}
    (hf : (f holds).map (Ledger.find? key) = (f holds').map (Ledger.find? key)) :
    AlikeOn (World.scene key rows) (editMemory holds f) (editMemory holds' f) := by
  intro w w' hw
  obtain ⟨hsight, hoccasion⟩ := Prod.mk.inj hw
  -- Either both ledgers are changed or neither is.
  rcases editMemory_cases holds f w with ⟨l, h, hedit⟩ | ⟨h, hedit⟩ <;>
    rcases editMemory_cases holds' f w' with ⟨l', h', hedit'⟩ | ⟨h', hedit'⟩ <;>
    rw [h, h'] at hf <;> rw [hedit, hedit']
  · refine ⟨rfl, Prod.ext ?_ hoccasion⟩
    have hl : l.find? key = l'.find? key := Option.some.inj hf
    change World.sight key rows _ = World.sight key rows _
    rw [World.sight_withMemory, World.sight_withMemory, hsight, hl]
  · cases hf
  · cases hf
  · exact ⟨rfl, hw⟩

/-- **Only the entry of another key has changed** in the ledger that is kept. -/
theorem keeps_backend {f : LeaseBackend → Action LeaseError α}
    (hmemory : ∀ holds w, w.leases.backend = .memory holds →
      (f (.memory holds) w).2.sight key rows = w.sight key rows)
    (hshared : Keeps (World.sight key rows) (f .shared)) :
    Keeps (World.sight key rows) (backend >>= f) := by
  intro w
  rw [Action.bind_of_ok (show backend w = (.ok w.leases.backend, w) from rfl)]
  cases hb : w.leases.backend with
  | memory holds => exact hmemory holds w hb
  | shared => exact hshared w

theorem sight_editMemory {w : World} {holds : Ledger Span} (hb : w.leases.backend = .memory holds)
    {f : Ledger Span → Option (Ledger Span)}
    (hf : ∀ l, f holds = some l → l.find? key = holds.find? key) :
    (editMemory holds f w).2.sight key rows = w.sight key rows := by
  rcases editMemory_cases holds f w with ⟨l, h, hedit⟩ | ⟨-, hedit⟩
  · rw [hedit, World.sight_withMemory, hf l h, ← World.inMemory_sight_of_memory hb]
  · rw [hedit]

variable (hrows : ∀ (s : Store) (leases : Ledger Int), rows { s with leases } = rows s)

include hrows

theorem alikeOn_editShared {f : Ledger Int → Option (Ledger Int)}
    (hf : ∀ l l' : Ledger Int, l.find? key = l'.find? key →
      (f l).map (Ledger.find? key) = (f l').map (Ledger.find? key)) :
    AlikeOn (World.scene key rows) (editShared fun s => s.replaceLeases (f s.leases))
      (editShared fun s => s.replaceLeases (f s.leases)) := by
  refine (Action.alikeOn_edit (fun w w' => World.isPoisoned_eq_of_scene_eq) ?_).mapFault _
  intro w w' hw
  obtain ⟨hsight, hoccasion⟩ := Prod.mk.inj hw
  have hsame : rows w.store = rows w'.store := congrArg Sight.rows hsight
  have hleases := hf _ _ (congrArg Sight.inStore hsight)
  dsimp only
  cases hl : f w.store.leases <;> cases hl' : f w'.store.leases <;> rw [hl, hl'] at hleases
  · exact ⟨rfl, hw⟩
  · cases hleases
  · cases hleases
  · rename_i l l'
    refine ⟨rfl, Prod.ext ?_ hoccasion⟩
    change World.sight key rows _ = World.sight key rows _
    have hl : l.find? key = l'.find? key := Option.some.inj hleases
    rw [World.sight_withStore, World.sight_withStore, hsight]
    simp only [Store.replaceLeases, hrows, hl, hsame]

theorem keeps_editShared {f : Ledger Int → Option (Ledger Int)}
    (hf : ∀ l l', f l = some l' → l'.find? key = l.find? key) :
    Keeps (World.sight key rows) (editShared fun s => s.replaceLeases (f s.leases)) := by
  intro w
  rcases editShared_cases f w with ⟨l, h, hedit⟩ | ⟨answer, -, hedit⟩
  · rw [hedit, World.sight_withStore, hf _ l h, hrows]
    rfl
  · rw [hedit]

/-! ### Calls -/

theorem alikeOn_tryObtain (key : String) (ttl : Span) :
    AlikeOn (World.scene key rows) (tryObtain key ttl) (tryObtain key ttl) := by
  refine alikeOn_countTry.bind fun _ => (alikeOn_meetFault .obtain).bind fun _ =>
    alikeOn_issueToken.bind fun token => ?_
  let rest (isTaken : Bool) : Action LeaseError (Option LeaseGuard) :=
    if isTaken then pure (some ⟨key, token, ttl⟩) else meetContention >>= fun _ => pure none
  have hrest : ∀ isTaken, AlikeOn (World.scene key rows) (rest isTaken) (rest isTaken) := by
    rintro (_ | _)
    · exact alikeOn_meetContention.bind fun _ => alikeOn_pure none
    · exact alikeOn_pure (some (LeaseGuard.mk key token ttl))
  refine alikeOn_backend ?_ ?_
  · intro holds holds' hholds
    exact alikeOn_readElapsed.bind fun now => alikeOn_readElapsed.bind fun start =>
      (alikeOn_editMemory (Ledger.find?_take? hholds)).bind hrest
  · exact alikeOn_wallTime.bind fun now =>
      (alikeOn_editShared hrows fun l l' => Ledger.find?_take?).bind hrest

theorem alikeOn_cancel {guard : LeaseGuard} (hk : guard.key = key) :
    AlikeOn (World.scene key rows) (cancel guard) (cancel guard) := by
  subst hk
  refine (alikeOn_meetFault .cancel).bind fun _ => alikeOn_backend ?_ ?_
  · intro holds holds' hholds
    exact alikeOn_editMemory (Ledger.find?_cancel? hholds)
  · exact alikeOn_editShared hrows fun l l' => Ledger.find?_cancel?

/-- **Attempts to take a key** depend on what can be seen under it. -/
theorem alikeOn_obtainWithin (key : String) (o : LockOptions) (left : Nat) (isRetry : Bool) :
    AlikeOn (World.scene key rows) (obtainWithin key o left isRetry)
      (obtainWithin key o left isRetry) := by
  induction left generalizing isRetry with
  | zero => exact alikeOn_pure none
  | succ left ih =>
    have hrest : ∀ isRetry taken, AlikeOn (World.scene key rows)
        (followUp key o left isRetry taken) (followUp key o left isRetry taken) := by
      rintro isRetry (_ | guard)
      · exact ih true
      · exact alikeOn_pure (some (guard, isRetry))
    have hattempt := alikeOn_tryObtain hrows key o.ttl
    cases isRetry with
    | false => exact hattempt.bind (hrest false)
    | true => exact (alikeOn_sleep o.sleep).bind fun _ => hattempt.bind (hrest true)

/-- **Taking a lease** depends on what can be seen under its key. -/
theorem alikeOn_obtain (key : String) (o : LockOptions) :
    AlikeOn (World.scene key rows) (obtain key o) (obtain key o) := by
  refine (alikeOn_obtainWithin hrows key o o.attempts false).bind ?_
  rintro (_ | taken)
  · exact alikeOn_throw _
  · exact alikeOn_pure taken

/-! #### Under another key -/

section Others

variable (hk : key ≠ key')

include hk

theorem keeps_tryObtain (ttl : Span) : Keeps (World.sight key rows) (tryObtain key' ttl) := by
  refine keeps_countTry.bind fun _ => (keeps_meetFault .obtain).bind fun _ =>
    keeps_issueToken.bind fun token => ?_
  let rest (isTaken : Bool) : Action LeaseError (Option LeaseGuard) :=
    if isTaken then pure (some ⟨key', token, ttl⟩) else meetContention >>= fun _ => pure none
  have hrest : ∀ isTaken, Keeps (World.sight key rows) (rest isTaken) := by
    rintro (_ | _)
    · exact keeps_meetContention.bind fun _ => keeps_pure none
    · exact keeps_pure (some (LeaseGuard.mk key' token ttl))
  refine keeps_backend ?_ ?_
  · intro holds w hb
    let w₁ : World := { w with clock := w.clock.read.2 }
    let w₂ : World := { w₁ with clock := w₁.clock.read.2 }
    dsimp only
    rw [Action.bind_of_ok (show readElapsed w = (.ok w.clock.elapsed, w₁) from rfl),
      Action.bind_of_ok (show readElapsed w₁ = (.ok w₁.clock.elapsed, w₂) from rfl)]
    let take := Ledger.take? key' token w.clock.elapsed (w₁.clock.elapsed + ttl)
    have hedit : (editMemory holds take w₂).2.sight key rows = w₂.sight key rows :=
      sight_editMemory (w := w₂) hb fun l hl => (Ledger.take?_eq_some hl).2.2 key hk
    rcases editMemory_cases holds take w₂ with ⟨l, -, hanswer⟩ | ⟨-, hanswer⟩
    all_goals
      rw [hanswer] at hedit
      rw [Action.bind_of_ok hanswer]
      exact (hrest _ _).trans hedit
  · refine keeps_wallTime.bind fun now => (keeps_editShared hrows ?_).bind hrest
    intro l l' hl
    exact (Ledger.take?_eq_some hl).2.2 key hk

/-- **Giving a guard of another key back** is not seen. -/
theorem keeps_cancel {guard : LeaseGuard} (hguard : guard.key = key') :
    Keeps (World.sight key rows) (cancel guard) := by
  subst hguard
  refine (keeps_meetFault .cancel).bind fun _ => keeps_backend ?_ ?_
  · intro holds w hb
    refine sight_editMemory hb ?_
    intro l hl
    exact (Ledger.cancel?_eq_some hl).2.2 key hk
  · refine keeps_editShared hrows ?_
    intro l l' hl
    exact (Ledger.cancel?_eq_some hl).2.2 key hk

/-- **Taking another key** is not seen. -/
theorem keeps_obtain (o : LockOptions) : Keeps (World.sight key rows) (obtain key' o) :=
  keeps_obtain_of_tryObtain (keeps_tryObtain hrows hk o.ttl) (keeps_sleep o.sleep)

end Others

/-! ### Work under a lease -/

variable {work : Bool → Action ε α}

/-- **Work under a lease** depends on what can be seen under its key, when the work does. -/
theorem alikeOn_inLock (key : String) (o : LockOptions)
    (hwork : ∀ isRetry, AlikeOn (World.scene key rows) (work isRetry) (work isRetry)) :
    AlikeOn (World.scene key rows) (inLock key o work) (inLock key o work) := by
  intro w w' hw
  obtain ⟨hanswer, hobtained⟩ := alikeOn_obtain hrows key o w w' hw
  have hkey {guard isRetry} (h : (obtain key o w).1 = .ok (guard, isRetry)) : guard.key = key := by
    obtain ⟨v, -, htaken⟩ := exists_taken_of_obtain h
    exact htaken.key_eq
  rw [inLock, inLock]
  cases ho : obtain key o w with
  | mk answer u =>
    cases ho' : obtain key o w' with
    | mk answer' u' =>
      rw [ho, ho'] at hanswer hobtained
      rw [ho] at hkey
      obtain rfl : answer = answer' := hanswer
      cases answer with
      | error e => exact ⟨rfl, hobtained⟩
      | ok taken =>
        obtain ⟨guard, isRetry⟩ := taken
        obtain ⟨hworked, hleft⟩ := hwork isRetry u u' hobtained
        have hrelease := fun v v' h => (alikeOn_cancel hrows (hkey rfl) v v' h).2
        cases hu : work isRetry u with
        | mk answer v =>
          cases hu' : work isRetry u' with
          | mk answer' v' =>
            rw [hu, hu'] at hworked hleft
            obtain rfl : answer = answer' := hworked
            dsimp only
            rw [hu, hu']
            cases answer with
            | error e => exact ⟨rfl, hrelease v v' hleft⟩
            | ok x => exact ⟨rfl, hrelease v v' hleft⟩

/-- **Work under the lease of another key** is not seen, when the work is not. -/
theorem keeps_inLock (hk : key ≠ key') (o : LockOptions)
    (hwork : ∀ isRetry, Keeps (World.sight key rows) (work isRetry)) :
    Keeps (World.sight key rows) (inLock key' o work) := by
  intro w
  have hobtain := keeps_obtain hrows hk o w
  rcases inLock_cases key' o work w with ⟨guard, isRetry, hok, hworld⟩ | ⟨-, hworld⟩
  · obtain ⟨v, -, htaken⟩ := exists_taken_of_obtain hok
    rw [hworld]
    exact (keeps_cancel hrows hk htaken.key_eq _).trans ((hwork isRetry _).trans hobtain)
  · rw [hworld]
    exact hobtain

end Ledgers

end Lease

end Leasehold
