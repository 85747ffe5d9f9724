import Leasehold.Cli.Run
import Leasehold.Proofs.Aggregation.Exclusive

/-!
# When the program breaks off

The worker takes its lease for a minute longer than its budget, and of the numbers that settings lead
to the sum of the two is the one that may leave its range: then the program breaks off, and nothing
can be said about it (`Leasehold.Cli.CommandError.breaksOff`). This file says when that happens
(`Leasehold.Cli.run_breaksOff_iff`): only to the command that runs the worker, and only by a budget
within a minute of the longest span.

Most of a command is written so that its errors can be told, whatever they are. That is settled part
by part (`Leasehold.Cli.Work.StaysUp`): reading and changing files, opening a database, acting in the
world, and one after the other. What is left is the one part that may break off
(`Leasehold.Cli.Work.breaksOff_act_performExclusive_iff`), and a part that breaks off makes the whole
do so (`Leasehold.Cli.Work.breaksOff_bind_iff`).

The other numbers that settings lead to have a guard each, and stay in the range of the machine
integers that hold them:

| what is computed | where it stops | |
|---|---|---|
| attempts to take a lease | the largest count | `Leasehold.LockOptions.attempts_bounds` |
| a time in the store | the ends of the time line | `Leasehold.Instant.millis_bounds` |
| the deadline of a lease | the end of the time line | `Leasehold.World.exists_instant_deadline` |
| how long a hook backs off | a day | `Leasehold.WebHook.nextBackoff_bounds` |
| the counts of a hook | a hundred | `Leasehold.HookHistory.counts_le` |
| the time that passed | a truncated difference | `Leasehold.Budget.wasOver_check_iff` |
| a limit of rows | none, if negative when read | `Leasehold.Store.limited_toNat` |

Sums over what the store holds are left out: those of events, and the count of a hook that somebody
else has brought to its end. Where they are checked they may break a command off as well, but no
setting leads there.
-/

namespace Leasehold.Cli

namespace Work

variable {α β ε : Type}

/-- **Some work never breaks the program off**: whatever the desk, an error in the end is one that can
be told. -/
def StaysUp (a : Work α) : Prop := ∀ d e, (a d).1 = .error e → e.breaksOff = false

theorem bind_of_ok {a : Work α} {d d' : Desk} {x : α} (h : a d = (.ok x, d')) (f : α → Work β) :
    (a >>= f) d = f x d' := by
  change StateT.bind a (ExceptT.bindCont f) d = _
  rw [StateT.bind, h]
  rfl

theorem bind_of_error {a : Work α} {d d' : Desk} {e : CommandError} (h : a d = (.error e, d'))
    (f : α → Work β) : (a >>= f) d = (.error e, d') := by
  change StateT.bind a (ExceptT.bindCont f) d = _
  rw [StateT.bind, h]
  rfl

/-- Work that answers at every desk. -/
theorem staysUp_of_ok {a : Work α} (h : ∀ d, ∃ x, (a d).1 = .ok x) : StaysUp a := by
  intro d e he
  obtain ⟨x, hx⟩ := h d
  rw [hx] at he
  cases he

theorem staysUp_pure (x : α) : StaysUp (pure x : Work α) := staysUp_of_ok fun _ => ⟨x, rfl⟩

theorem staysUp_throw {e : CommandError} (he : e.breaksOff = false) :
    StaysUp (throw e : Work α) := by
  intro d e' he'
  obtain rfl : e = e' := Except.error.inj he'
  exact he

theorem StaysUp.bind {a : Work α} {f : α → Work β} (ha : StaysUp a) (hf : ∀ x, StaysUp (f x)) :
    StaysUp (a >>= f) := by
  intro d e he
  rcases h : a d with ⟨e' | x, d'⟩
  · rw [bind_of_error h] at he
    cases he
    exact ha d e (congrArg Prod.fst h)
  · rw [bind_of_ok h] at he
    exact hf x d' e he

/-- An answer in other words for its errors, none of which breaks off. -/
theorem breaksOff_of_mapError {fault : ε → CommandError} (hfault : ∀ e, (fault e).breaksOff = false)
    {answer : Except ε α} {e : CommandError} (h : answer.mapError fault = .error e) :
    e.breaksOff = false := by
  cases answer with
  | ok x => cases h
  | error e' =>
    cases h
    exact hfault e'

theorem staysUp_lift {fault : ε → CommandError} (hfault : ∀ e, (fault e).breaksOff = false)
    (answer : Except ε α) : StaysUp (lift fault answer) :=
  fun _ _ he => breaksOff_of_mapError hfault he

theorem staysUp_act {fault : ε → CommandError} (hfault : ∀ e, (fault e).breaksOff = false)
    (a : Action ε α) : StaysUp (act fault a) :=
  fun _ _ he => breaksOff_of_mapError hfault he

theorem staysUp_withFiles {fault : ε → CommandError} (hfault : ∀ e, (fault e).breaksOff = false)
    (f : FileTree → Except ε α × FileTree) : StaysUp (withFiles f fault) :=
  fun _ _ he => breaksOff_of_mapError hfault he

theorem staysUp_modify (f : Desk → Desk) : StaysUp (modify f : Work Unit) :=
  staysUp_of_ok fun _ => ⟨(), rfl⟩

theorem staysUp_get : StaysUp (get : Work Desk) := staysUp_of_ok fun d => ⟨d, rfl⟩

theorem staysUp_say (line : String) : StaysUp (say line) := staysUp_modify _

theorem staysUp_sayAll (lines : List String) : StaysUp (sayAll lines) := by
  induction lines with
  | nil => exact staysUp_pure ()
  | cons line lines ih => exact (staysUp_say line).bind fun _ => ih

theorem staysUp_query (f : Store → Except Store.Fault α) : StaysUp (query f) :=
  staysUp_act (fun _ => rfl) _

theorem staysUp_change (f : Store → α × Store) : StaysUp (change f) :=
  staysUp_act (fun _ => rfl) _

theorem staysUp_files : StaysUp files := staysUp_get.bind fun _ => staysUp_pure _

theorem staysUp_now : StaysUp now := staysUp_get.bind fun _ => staysUp_pure _

theorem staysUp_resolve (directory : Path) (i : Invocation) : StaysUp (resolve directory i) :=
  staysUp_files.bind fun _ => staysUp_lift (fun _ => rfl) _

theorem staysUp_openDatabase (file : Path) {fault : FileTree.OpenError → CommandError}
    (hfault : ∀ e, (fault e).breaksOff = false) : StaysUp (openDatabase file fault) :=
  (staysUp_withFiles hfault _).bind fun _ => staysUp_modify _

theorem staysUp_openProject (directory : Path) (i : Invocation) :
    StaysUp (openProject directory i) := by
  have hrest : StaysUp (do
      let p ← resolve directory i
      openDatabase p.databaseFile fun _ => .closed p.databaseFile
      modify fun d => { d with
        world := { d.world with leases := { d.world.leases with backend := backendOf p } } }
      pure p) :=
    (staysUp_resolve directory i).bind fun _ => (staysUp_openDatabase _ fun _ => rfl).bind fun _ =>
      (staysUp_modify _).bind fun _ => staysUp_pure _
  -- Without a project it fails before the rest, and that can be told, too.
  refine staysUp_files.bind fun t => ?_
  dsimp only
  split
  · exact (staysUp_throw rfl).bind fun _ => hrest
  · exact hrest

/-! ### Commands about the project -/

theorem staysUp_setUpProject (directory : Path) : StaysUp (setUpProject directory) := by
  refine staysUp_files.bind fun t => (staysUp_withFiles (fun _ => rfl) _).bind fun made => ?_
  split
  · exact staysUp_say _
  · exact staysUp_sayAll _

theorem staysUp_showStatus (directory : Path) (i : Invocation) :
    StaysUp (showStatus directory i) := by
  refine (staysUp_say _).bind fun _ => staysUp_files.bind fun t => ?_
  split
  · exact staysUp_sayAll _
  · refine (staysUp_resolve directory i).bind fun p => (staysUp_sayAll _).bind fun _ =>
      (staysUp_openDatabase _ fun _ => rfl).bind fun _ => staysUp_now.bind fun present =>
        (staysUp_change _).bind fun purged => ?_
    have hrest : StaysUp (do sayAll (countTable (← query fun s => .ok s.counts)); say "") :=
      (staysUp_query _).bind fun _ => (staysUp_sayAll _).bind fun _ => staysUp_say _
    dsimp only
    split
    · exact (staysUp_sayAll _).bind fun _ => hrest
    · exact hrest

theorem staysUp_showSettings (directory : Path) (v : Variables) :
    StaysUp (showSettings directory v) := by
  refine staysUp_files.bind fun t => (staysUp_sayAll _).bind fun _ => ?_
  split
  · exact (staysUp_say _).bind fun _ => (staysUp_lift (fun _ => rfl) _).bind fun _ =>
      (staysUp_sayAll _).bind fun _ => (staysUp_say _).bind fun _ =>
        (staysUp_lift (fun _ => rfl) _).bind fun _ => staysUp_sayAll _
  · exact (staysUp_sayAll _).bind fun _ => (staysUp_sayAll _).bind fun _ => staysUp_sayAll _

theorem staysUp_checkSettings (directory : Path) : StaysUp (checkSettings directory) := by
  refine staysUp_files.bind fun t => (staysUp_sayAll _).bind fun _ => ?_
  split
  · refine (staysUp_lift (fun _ => rfl) _).bind fun settings => ?_
    dsimp only
    split
    · exact (staysUp_say _).bind fun _ => staysUp_say _
    · exact (staysUp_sayAll _).bind fun _ => staysUp_say _
  · exact staysUp_say _

theorem staysUp_writeSettings (directory : Path) : StaysUp (writeSettings directory) := by
  refine staysUp_files.bind fun t => ?_
  split
  · exact staysUp_sayAll _
  · exact (staysUp_withFiles (fun _ => rfl) _).bind fun _ =>
      (staysUp_withFiles (fun _ => rfl) _).bind fun _ => staysUp_sayAll _

/-! ### Commands about targets, hooks and counters -/

theorem staysUp_listTargets : StaysUp listTargets := by
  refine (staysUp_query _).bind fun as => ?_
  split
  · exact staysUp_say _
  · exact staysUp_sayAll _

theorem staysUp_enableTarget (target : Int) (enabled : Bool) :
    StaysUp (enableTarget target enabled) := by
  refine (staysUp_query _).bind fun found => ?_
  cases found with
  | none => exact staysUp_throw rfl
  | some a => exact (staysUp_change _).bind fun _ => staysUp_say _

theorem staysUp_addEvent (target value : Int) : StaysUp (addEvent target value) := by
  refine staysUp_now.bind fun present => (staysUp_query _).bind fun found => ?_
  cases found with
  | none => exact staysUp_throw rfl
  | some a => exact (staysUp_change _).bind fun _ => staysUp_say _

theorem staysUp_listHooks : StaysUp listHooks := by
  refine (staysUp_query _).bind fun hooks => ?_
  split
  · exact staysUp_say _
  · exact staysUp_now.bind fun _ => staysUp_sayAll _

theorem staysUp_deliverTo (p : Project) (transport : Transport) (hook : Int) (event : String)
    (payload : Option String) : StaysUp (deliverTo p transport hook event payload) := by
  rw [deliverTo]
  split
  · exact staysUp_throw rfl
  · refine (staysUp_act (fun _ => rfl) _).bind fun outcome => ?_
    cases outcome with
    | skipped status => exact staysUp_say _
    | delivered c answer u =>
      exact (staysUp_say _).bind fun _ => staysUp_now.bind fun _ => staysUp_sayAll _

theorem staysUp_increment (c : Counters) (record quantity : String) (amount : Int) :
    StaysUp (increment c record quantity amount) := by
  refine (staysUp_act (fun _ => rfl) _).bind fun answer => ?_
  cases answer with
  | none => exact staysUp_say _
  | some n => exact staysUp_say _

theorem staysUp_flush (c : Counters) (record quantity : String) :
    StaysUp (flush c record quantity) := by
  refine (staysUp_act (fun _ => rfl) _).bind fun answer => ?_
  cases answer with
  | none => exact staysUp_say _
  | some f => exact staysUp_say _

theorem staysUp_showCounter (c : Counters) (record quantity : String) :
    StaysUp (showCounter c record quantity) :=
  (staysUp_act (fun _ => rfl) _).bind fun _ => (staysUp_act (fun _ => rfl) _).bind fun _ =>
    staysUp_sayAll _

theorem staysUp_clear (c : Counters) (record quantity : String) :
    StaysUp (clear c record quantity) :=
  (staysUp_act (fun _ => rfl) _).bind fun _ => staysUp_say _

end Work

/-- **No command but the one that runs the worker** breaks the program off. -/
theorem Invocation.staysUp_task (s : Surroundings) (directory : Path) (i : Invocation)
    (hother : ∀ mode asked asJson, i.command ≠ .aggregate mode asked asJson) :
    (i.task s directory).StaysUp := by
  have hopened : ∀ f : Project → Work Unit, (∀ p, (f p).StaysUp) →
      (Work.openProject directory i >>= f).StaysUp :=
    fun f hf => (Work.staysUp_openProject directory i).bind hf
  rw [task]
  split
  · exact Work.staysUp_setUpProject directory
  · exact Work.staysUp_showStatus directory i
  · exact Work.staysUp_showSettings directory s.environment
  · exact Work.staysUp_checkSettings directory
  · exact Work.staysUp_writeSettings directory
  · rename_i mode asked asJson hcommand
    exact absurd hcommand (hother mode asked asJson)
  · exact hopened _ fun _ => (Work.staysUp_act (fun _ => rfl) _).bind fun _ => Work.staysUp_say _
  · exact hopened _ fun _ => Work.staysUp_listTargets
  · exact hopened _ fun _ => Work.staysUp_enableTarget _ _
  · exact hopened _ fun _ => Work.staysUp_addEvent _ _
  · exact hopened _ fun _ => (Work.staysUp_change _).bind fun _ => Work.staysUp_say _
  · exact hopened _ fun _ => Work.staysUp_listHooks
  · exact hopened _ fun _ => (Work.staysUp_act (fun _ => rfl) _).bind fun _ =>
      Work.staysUp_now.bind fun _ => Work.staysUp_sayAll _
  · exact hopened _ fun _ => Work.staysUp_deliverTo _ _ _ _ _
  · exact hopened _ fun _ => Work.staysUp_increment _ _ _ _
  · exact hopened _ fun _ => Work.staysUp_flush _ _ _
  · exact hopened _ fun _ => Work.staysUp_showCounter _ _ _
  · exact hopened _ fun _ => Work.staysUp_clear _ _ _

/-! ### The command that runs the worker -/

namespace Work

variable {α β : Type}

/-- **Some work breaks the program off** at a desk. -/
def BreaksOff (a : Work α) (d : Desk) : Prop := ∃ e, (a d).1 = .error e ∧ e.breaksOff = true

theorem StaysUp.not_breaksOff {a : Work α} (ha : StaysUp a) (d : Desk) : ¬a.BreaksOff d := by
  rintro ⟨e, he, hoff⟩
  rw [ha d e he] at hoff
  cases hoff

/-- Work whose first part answers breaks off as the rest does. -/
theorem breaksOff_bind_of_ok {a : Work α} {d d' : Desk} {x : α} (h : a d = (.ok x, d'))
    (f : α → Work β) : (a >>= f).BreaksOff d ↔ (f x).BreaksOff d' := by
  rw [BreaksOff, bind_of_ok h, BreaksOff]

/-- Work whose rest never breaks off does so as its first part does. -/
theorem breaksOff_bind_iff {a : Work α} {f : α → Work β} (hf : ∀ x, StaysUp (f x)) (d : Desk) :
    (a >>= f).BreaksOff d ↔ a.BreaksOff d := by
  rcases h : a d with ⟨e | x, d'⟩
  · rw [BreaksOff, bind_of_error h, BreaksOff, h]
    simp only [Except.error.injEq]
  · rw [breaksOff_bind_of_ok h]
    refine iff_of_false ((hf x).not_breaksOff d') ?_
    rintro ⟨e, he, -⟩
    rw [h] at he
    cases he

/-- **A run of the worker breaks off** just when no lease can outlast its budget. -/
theorem breaksOff_act_performExclusive_iff (o : WorkerOptions) (lock : LockOptions) (size : Nat)
    (cs : Circumstances) (d : Desk) :
    (act .worker (performExclusive o lock size cs)).BreaksOff d ↔ o.lock? lock = none := by
  cases hlock : o.lock? lock with
  | none =>
    refine iff_of_true ⟨.worker .endlessBudget, ?_, rfl⟩ rfl
    rw [act, performExclusive_of_endless hlock]
    rfl
  | some raised =>
    refine iff_of_false ?_ (Option.some_ne_none raised)
    rintro ⟨e, he, hoff⟩
    rw [act, performExclusive_eq hlock] at he
    generalize Lease.inLock _ raised _ _ = outcome at he
    match outcome with
    | (.ok report, w) => cases he
    | (.error (.lease (.notObtained key attempts)), w) => cases he
    | (.error (.lease (.backend f)), w) =>
      cases he
      cases hoff
    | (.error (.work f), w) =>
      cases he
      cases hoff

/-- **No lease outlasts a budget** that comes within a minute of the longest span. -/
theorem lock?_eq_none_iff (o : WorkerOptions) (lock : LockOptions) :
    o.lock? lock = none ↔ 18446744073709551616 ≤ o.maxRuntime.seconds + 60 := by
  have hmargin : leaseMargin.nanos = 60000000000 := rfl
  rw [WorkerOptions.lock?, Option.map_eq_none_iff, Span.add?, Span.seconds, hmargin]
  split
  · refine iff_of_false (Option.some_ne_none _) ?_
    omega
  · refine iff_of_true rfl ?_
    omega

theorem breaksOff_aggregate_iff (p : Project) (v : Variables) (mode : Option Mode) (asJson : Bool)
    (d : Desk) :
    (aggregate p v mode asJson).BreaksOff d ↔
      18446744073709551616 ≤ (p.maxRuntime v).seconds + 60 := by
  rw [aggregate, breaksOff_bind_iff fun report => ?_, breaksOff_act_performExclusive_iff,
    lock?_eq_none_iff]
  · rfl
  · cases report with
    | none => exact staysUp_say _
    | some r =>
      dsimp only
      split
      · exact staysUp_say _
      · exact staysUp_sayAll _

end Work

/-! ### Whole runs -/

/-- The directory of the project of an invocation. -/
def Invocation.directory (s : Surroundings) (i : Invocation) : Path :=
  i.project.getD (Path.ofPlace s.files.here)

/-- The desk at which a command begins. -/
def Surroundings.desk (s : Surroundings) : Desk :=
  { files := s.files, world := { clock := s.clock, leases := { issued := s.firstToken } } }

/-- The end of a command tells whether it broke off. -/
theorem Desk.status_close_eq_iff (d : Desk) (answer : Except CommandError Unit) :
    (d.close answer).1.status = 101 ↔ ∃ e, answer = .error e ∧ e.breaksOff = true := by
  cases answer with
  | ok x =>
    refine iff_of_false (by decide : ¬(0 = 101)) ?_
    rintro ⟨e, he, -⟩
    cases he
  | error e =>
    rw [close]
    cases hoff : e.breaksOff with
    | true => exact iff_of_true rfl ⟨e, rfl, hoff⟩
    | false =>
      refine iff_of_false (by decide : ¬(1 = 101)) ?_
      rintro ⟨e', he, hoff'⟩
      cases he
      rw [hoff] at hoff'
      cases hoff'

theorem Invocation.status_run_eq_iff (s : Surroundings) (i : Invocation) :
    (i.run s).1.status = 101 ↔ (i.task s (i.directory s)).BreaksOff s.desk :=
  Desk.status_close_eq_iff _ _

/-- **The budget of an invocation is endless**: it runs the worker in a project that can be opened,
with a budget that comes within a minute of the longest span. -/
def Invocation.IsEndless (s : Surroundings) (i : Invocation) : Prop :=
  ∃ mode asked asJson p d, i.command = .aggregate mode asked asJson ∧
    Work.openProject (i.directory s) i s.desk = (.ok p, d) ∧
    18446744073709551616 ≤
      (({ p with askedMaxRuntime := asked } : Project).maxRuntime s.environment).seconds + 60

theorem Invocation.breaksOff_task_iff (s : Surroundings) (i : Invocation) :
    (i.task s (i.directory s)).BreaksOff s.desk ↔ i.IsEndless s := by
  by_cases hother : ∀ mode asked asJson, i.command ≠ .aggregate mode asked asJson
  · refine iff_of_false ((i.staysUp_task s _ hother).not_breaksOff _) ?_
    rintro ⟨mode, asked, asJson, p, d, hcommand, -⟩
    exact hother mode asked asJson hcommand
  · simp only [not_forall, Decidable.not_not] at hother
    obtain ⟨mode, asked, asJson, hcommand⟩ := hother
    rw [task, hcommand]
    dsimp only
    rcases hopen : Work.openProject (i.directory s) i s.desk with ⟨e | p, d⟩
    · -- What keeps a project from being opened can be told.
      refine iff_of_false ?_ ?_
      · rintro ⟨e', he, hoff⟩
        rw [Work.bind_of_error hopen] at he
        cases he
        rw [Work.staysUp_openProject _ i _ e (congrArg Prod.fst hopen)] at hoff
        cases hoff
      · rintro ⟨mode', asked', asJson', p', d', -, hopen', -⟩
        rw [hopen] at hopen'
        cases hopen'
    · rw [Work.breaksOff_bind_of_ok hopen, Work.breaksOff_aggregate_iff]
      constructor
      · intro hle
        exact ⟨mode, asked, asJson, p, d, hcommand, hopen, hle⟩
      · rintro ⟨mode', asked', asJson', p', d', hcommand', hopen', hle⟩
        rw [hcommand] at hcommand'
        rw [hopen] at hopen'
        cases hcommand'
        cases hopen'
        exact hle

/-! ### Command lines -/

/-- **When the program breaks off.** Whatever stands in the files, the environment and the command
line, and whatever the clock shows: a run breaks off just when it runs the worker with a budget that
comes within a minute of the longest span. -/
theorem run_breaksOff_iff (s : Surroundings) (words : List String) :
    (run s words).1.status = 101 ↔
      ∃ r i, program.read s.given words = .ok r ∧ Invocation.ofReading? r = some i ∧
        i.IsEndless s := by
  rw [run]
  cases hread : program.read s.given words with
  | error h =>
    refine iff_of_false ?_ ?_
    · -- A command line that is refused, or that asks for help, ends with 2 or 0.
      cases h with
      | usage => exact (by decide : ¬(2 = 101))
      | help grammars => exact (by decide : ¬(0 = 101))
      | version => exact (by decide : ¬(0 = 101))
    · rintro ⟨r, i, hr, -⟩
      cases hr
  | ok r =>
    cases hinvocation : Invocation.ofReading? r with
    | none =>
      dsimp only
      rw [hinvocation]
      refine iff_of_false (by decide : ¬(2 = 101)) ?_
      rintro ⟨r', i, hr, hi, -⟩
      cases hr
      rw [hinvocation] at hi
      cases hi
    | some i =>
      dsimp only
      rw [hinvocation]
      dsimp only
      rw [Invocation.status_run_eq_iff, Invocation.breaksOff_task_iff]
      constructor
      · intro hendless
        exact ⟨r, i, rfl, hinvocation, hendless⟩
      · rintro ⟨r', i', hr, hi, hendless⟩
        cases hr
        rw [hinvocation] at hi
        cases hi
        exact hendless

/-- **The longest budget that the command line takes** breaks the program off, and one a minute
shorter does not. -/
theorem breaksOff_longestBudget :
    let s : Surroundings := { files := {}, clock := { wall := .epoch } }
    let words := fun seconds => ["--db-path", "/cron.db", "aggregate", "--max-runtime", seconds]
    (run s (words "18446744073709551615")).1.status = 101 ∧
      (run s (words "18446744073709551555")).1.status = 0 := by
  decide +kernel

end Leasehold.Cli
