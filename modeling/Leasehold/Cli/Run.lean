import Leasehold.Cli.Command
import Leasehold.Cli.Help
import Leasehold.Cli.Tables
import Leasehold.Counter.Attributes
import Leasehold.Hook.Delivery
import Leasehold.Project.Resolution
import Leasehold.Project.Setup
import Leasehold.Settings.Warnings
import Leasehold.Store.Leases

/-!
# Running commands

A command runs at a desk: it has the files, the clock and the variables of the environment, writes
lines, and opens the database of its project. What it wrote and what it changed before an error
stays.

* `Leasehold.Cli.Surroundings` – what a command finds;
* `Leasehold.Cli.CommandError` – why a command fails, and in which words;
* `Leasehold.Cli.Work` – what a command does;
* `Leasehold.Cli.Command.run` – each command;
* `Leasehold.Cli.Outcome`, `Leasehold.Cli.run` – a command line from its words to its outcome.
-/

namespace Leasehold.Cli

/-! ### The desk -/

/-- **What a command finds.** -/
structure Surroundings where
  /-- The files. -/
  files : FileTree
  /-- The clock. -/
  clock : Clock
  /-- The variables that stand for settings. -/
  environment : Variables := {}
  /-- The variable that names the file of the database. -/
  database : Option Path := none
  /-- What comes back for requests. -/
  transport : Transport := fun _ => none
  /-- The number of the first token that is issued. -/
  firstToken : Nat := 0

/-- **The desk of a command.** -/
structure Desk where
  /-- The files. -/
  files : FileTree
  /-- The lines written, the latest first. -/
  lines : List String := []
  /-- The world that workers act in. -/
  world : World
  /-- The place of the database, if it is open and not thrown away. -/
  place : Option Place := none

/-- **Why a command fails.** -/
inductive CommandError where
  /-- The project was never set up. -/
  | notInitialized
  /-- Something is wrong with the project. -/
  | project (e : ProjectError)
  /-- The database cannot be opened. -/
  | closed (file : Path)
  /-- The database cannot be opened, and the reason is told. -/
  | unopened (e : FileTree.OpenError)
  /-- Something is wrong with a file. -/
  | files (e : FileError)
  /-- A call on the store failed. -/
  | store (f : Store.Fault)
  /-- The target is not registered. -/
  | unregistered (target : Int)
  /-- The target is not registered, and there is a hint. -/
  | unregisteredHint (target : Int)
  /-- The payload is no JSON. -/
  | payload
  /-- A delivery or an update failed. -/
  | hook (e : HookError)
  /-- A call on a counter failed. -/
  | counter (e : CounterError)
  /-- The worker failed. -/
  | worker (e : AggregationError)
deriving DecidableEq

/-- **The words for an error.** -/
def CommandError.message : CommandError → String
  | notInitialized => "Not initialized. Run 'cronlease init' first."
  | project e => e.message
  | closed file => "Failed to open database: " ++ file
  | unopened e => e.message
  | files e => e.message
  | store f => f.message
  | unregistered target => "Target " ++ toString target ++ " is not registered"
  | unregisteredHint target =>
    "Target " ++ toString target ++ " is not registered. Run 'cronlease target add " ++
      toString target ++ "' first."
  | payload => "Payload is not valid JSON"
  | hook e => e.message
  | counter e => e.message
  | worker e => e.message

/-- Whether an error breaks the program off, so that nothing can be said about it. -/
def CommandError.breaksOff : CommandError → Bool
  | worker .endlessBudget => true
  | _ => false

/-- **What a command does** at its desk. -/
abbrev Work (α : Type) := ExceptT CommandError (StateM Desk) α

namespace Work

/-! ### Parts of commands -/

/-- Writes a line. -/
def say (line : String) : Work Unit := modify fun d => { d with lines := line :: d.lines }

/-- Writes some lines. -/
def sayAll (lines : List String) : Work Unit := lines.forM say

/-- The files. -/
def files : Work FileTree := do
  let d ← get
  pure d.files

/-- Does something with the files. -/
def withFiles {ε α : Type} (f : FileTree → Except ε α × FileTree) (fault : ε → CommandError) :
    Work α :=
  fun d =>
    let (answer, files) := f d.files
    (answer.mapError fault, { d with files })

/-- An answer that may be a fault. -/
def lift {ε α : Type} (fault : ε → CommandError) (answer : Except ε α) : Work α :=
  fun d => (answer.mapError fault, d)

/-- Acts in the world. -/
def act {ε α : Type} (fault : ε → CommandError) (a : Action ε α) : Work α :=
  fun d =>
    let (answer, world) := a d.world
    (answer.mapError fault, { d with world })

/-- Looks something up in the store. -/
def query {α : Type} (f : Store → Except Store.Fault α) : Work α := act .store (look f)

/-- Changes the store. -/
def change {α : Type} (f : Store → α × Store) : Work α :=
  act .store (edit fun s =>
    let (answer, s) := f s
    (.ok answer, s))

/-- The wall time. -/
def now : Work Instant := do
  let d ← get
  pure d.world.now

/-- Opens a database. -/
def openDatabase (file : Path) (fault : FileTree.OpenError → CommandError) : Work Unit := do
  let db ← withFiles (fun t => t.openDatabase file) fault
  modify fun d => { d with world := d.world.withStore db.store, place := db.place }

/-- The project of a directory. -/
def resolve (directory : Path) (i : Invocation) : Work Project := do
  let t ← files
  lift .project (Project.resolve t directory i.isVerbose i.database)

/-- Where the leases of a project are kept. -/
def backendOf (p : Project) : LeaseBackend :=
  match p.settings.lease.backend with
  | .sqlite => .shared
  | .memory => .memory []

/-- **Opens a project with its database.** -/
def openProject (directory : Path) (i : Invocation) : Work Project := do
  let t ← files
  if i.database.isNone && !Layout.isInitialized t directory then throw .notInitialized
  let p ← resolve directory i
  openDatabase p.databaseFile fun _ => .closed p.databaseFile
  modify fun d => { d with
    world := { d.world with leases := { d.world.leases with backend := backendOf p } } }
  pure p

/-! ### Commands about the project -/

/-- Sets up a project. -/
def setUpProject (directory : Path) : Work Unit := do
  let wasInitialized := Layout.isInitialized (← files) directory
  let made ← withFiles (fun t => setUp t directory) .project
  if wasInitialized then say ("cronlease already initialized at " ++ made.home)
  else
    sayAll ["Initialized cronlease project at " ++ made.home, "", "Next steps:",
      "  cronlease target add <target_id>", "  cronlease event add <target_id> <value>",
      "  cronlease aggregate"]

/-- Shows where the database is, and how many rows its tables have. -/
def showStatus (directory : Path) (i : Invocation) : Work Unit := do
  say ""
  if !Layout.isInitialized (← files) directory && i.database.isNone then
    sayAll [CommandError.notInitialized.message, ""]
  else
    let p ← resolve directory i
    sayAll ["Initialized", "  Config:   " ++ Layout.settingsFile p.directory,
      "  Database: " ++ p.databaseFile, "  Leases:   " ++ p.settings.lease.backend.name, ""]
    openDatabase p.databaseFile .unopened
    let present ← now
    let purged ← change fun s => s.purgeLeases present
    if 0 < purged then sayAll ["Purged " ++ toString purged ++ " expired lease(s)", ""]
    sayAll (countTable (← query fun s => .ok s.counts))
    say ""

/-- Shows the settings. -/
def showSettings (directory : Path) (v : Variables) : Work Unit := do
  let t ← files
  let file := Layout.settingsFile directory
  sayAll ["", "cronlease Configuration", "=======================", ""]
  if t.contains file then
    say ("Config file: " ++ file)
    sayAll ("" :: settingsLines (← lift .project (Layout.loadSettings t file)))
    say "Effective values (with env/CLI overrides):"
    let p ← lift .project (Project.resolve t directory false none)
    sayAll [numberLine "max_runtime_secs" (p.maxRuntime v).seconds,
      textLine "log_level" (p.logLevel v), textLine "db_path" p.databaseFile, ""]
  else
    sayAll ["No cronlease.toml found at " ++ file, "Using default configuration.", ""]
    sayAll (settingsLines {})
    sayAll ["Run 'cronlease config init' to create a cronlease.toml file.", ""]

/-- Shows the warnings about the settings. -/
def checkSettings (directory : Path) : Work Unit := do
  let t ← files
  let file := Layout.settingsFile directory
  sayAll ["", "Validating configuration...", ""]
  if t.contains file then
    let settings ← lift .project (Layout.loadSettings t file)
    if settings.warnings.isEmpty then say "Configuration is valid."
    else sayAll ("Configuration warnings:" :: settings.warnings.map ("  - " ++ ·))
    say ""
  else say "No cronlease.toml found. Using defaults (valid)."

/-- Writes settings with every default spelled out. -/
def writeSettings (directory : Path) : Work Unit := do
  let file := Layout.settingsFile directory
  if (← files).contains file then
    sayAll ["cronlease.toml already exists at " ++ file,
      "Delete it first if you want to recreate it."]
  else
    withFiles (fun t => t.makeDirectories (Layout.home directory)) .files
    let _ ← withFiles (fun t => Setup.makeSettings t directory) .project
    sayAll ["Created cronlease.toml at " ++ file, "", "You can now customize:",
      "  - [lease] backend, ttl_secs, retries",
      "  - [aggregation] max_runtime_secs, batch_size, mode", "  - [counters] attributes", ""]

/-! ### Commands about aggregations -/

/-- Runs the worker once. -/
def aggregate (p : Project) (v : Variables) (mode : Option Mode) (asJson : Bool) : Work Unit := do
  let report ← act .worker (performExclusive (p.workerOptions v mode) p.settings.lease.lockOptions
    p.settings.aggregation.stepPageSize.toNat undisturbed)
  match report with
  | none => say "Another aggregation worker is running; skipped."
  | some r => if asJson then say r.toJson.pretty else sayAll (reportLines r)

/-- Lists the aggregations. -/
def listTargets : Work Unit := do
  let as ← query Store.allAggregations
  if as.isEmpty then say "No targets registered. Run 'cronlease target add <target_id>'."
  else sayAll (aggregationTable as)

/-- Lets a target be aggregated, or not. -/
def enableTarget (target : Int) (enabled : Bool) : Work Unit := do
  match ← query fun s => s.aggregationOfTarget? target with
  | none => throw (.unregistered target)
  | some a =>
    change fun s => ((), s.setEnabled a.id enabled)
    say ("Target " ++ toString target ++ if enabled then " enabled" else " disabled")

/-- Adds an event to a target. -/
def addEvent (target value : Int) : Work Unit := do
  let present ← now
  match ← query fun s => s.aggregationOfTarget? target with
  | none => throw (.unregisteredHint target)
  | some _ =>
    let e ← change fun s => s.addEvent target value present
    say ("Event " ++ toString e.id ++ " added to target " ++ toString e.target ++ " (value " ++
      toString e.value ++ ")")

/-! ### Commands about web hooks -/

/-- Lists the web hooks. -/
def listHooks : Work Unit := do
  let hooks ← query Store.allHooks
  if hooks.isEmpty then say "No web hooks. Run 'cronlease hook add <project_id> <url>'."
  else sayAll (hookTable (← now) hooks)

/-- The payload of a delivery. -/
def payloadOf : Option String → Option Json.Value
  | none => some (.object [])
  | some text => (Json.Tree.ofText? text).bind Json.Tree.value?

/-- Tells a web hook about an event. -/
def deliverTo (p : Project) (transport : Transport) (hook : Int) (event : String)
    (payload : Option String) : Work Unit := do
  match payloadOf payload with
  | none => throw .payload
  | some value =>
    match ← act .hook (deliver transport p.settings.hooks.lockOptions hook event value) with
    | .skipped status => say ("Skipped: hook " ++ toString hook ++ " is " ++ status.text)
    | .delivered c answer u =>
      say ("Delivered: " ++ c.name ++ " (" ++ (answer.map toString).getD "no response" ++ ")")
      sayAll (updateLines (← now) u)

/-! ### Commands about counters -/

/-- The counters of a project. -/
def countersOf (p : Project) : Counters :=
  { quantities := p.settings.counters.quantities, lock := p.settings.counters.lockOptions }

/-- A counter in words. -/
def counterName (record quantity : String) : String := record ++ "." ++ quantity

/-- Lets an increment of a counter wait. -/
def increment (c : Counters) (record quantity : String) (amount : Int) : Work Unit := do
  match ← act .counter (c.increment record quantity amount) with
  | some n => say (counterName record quantity ++ " pending = " ++ toString n)
  | none => say "Increment of 0 ignored"

/-- Moves what waits into the value of a counter. -/
def flush (c : Counters) (record quantity : String) : Work Unit := do
  match ← act .counter (c.flush record quantity) with
  | some f =>
    say (counterName record quantity ++ " flushed " ++ toString f.increment ++ ": " ++
      toString f.previous ++ " -> " ++ toString f.current)
  | none => say ("Nothing to flush for " ++ counterName record quantity)

/-- Shows the value of a counter, and what waits. -/
def showCounter (c : Counters) (record quantity : String) : Work Unit := do
  let value ← act .counter (c.value record quantity)
  let pending ← act .counter (c.pending record quantity)
  sayAll [counterName record quantity, "  value   = " ++ toString value,
    "  pending = " ++ toString pending]

/-- Drops what waits. -/
def clear (c : Counters) (record quantity : String) : Work Unit := do
  act .counter (c.clear record quantity)
  say ("Cleared pending increments for " ++ counterName record quantity)

end Work

/-! ### Every command -/

open Work in
/-- **What a command does**, in the directory of its project. -/
def Invocation.task (s : Surroundings) (directory : Path) (i : Invocation) : Work Unit := do
  match i.command with
  | .setUp => setUpProject directory
  | .status => showStatus directory i
  | .showSettings => showSettings directory s.environment
  | .checkSettings => checkSettings directory
  | .writeSettings => writeSettings directory
  | .aggregate mode maxRuntime asJson => do
    let p ← openProject directory i
    aggregate { p with askedMaxRuntime := maxRuntime } s.environment mode asJson
  | .addTarget target => do
    let _ ← openProject directory i
    let a ← act .store (edit fun st => st.register target)
    say ("Target " ++ toString a.target ++ " registered (aggregation " ++ toString a.id ++ ")")
  | .listTargets => do
    let _ ← openProject directory i
    listTargets
  | .enableTarget target enabled => do
    let _ ← openProject directory i
    enableTarget target enabled
  | .addEvent target value => do
    let _ ← openProject directory i
    addEvent target value
  | .addHook project url => do
    let _ ← openProject directory i
    let h ← change fun st => st.addHook project url
    say ("Web hook " ++ toString h.id ++ " added for project " ++ toString h.project)
  | .listHooks => do
    let _ ← openProject directory i
    listHooks
  | .recordDelivery hook c => do
    let p ← openProject directory i
    let u ← act .hook (updateHook p.settings.hooks.lockOptions hook c)
    sayAll (updateLines (← now) u)
  | .deliver hook event payload => do
    let p ← openProject directory i
    deliverTo p s.transport hook event payload
  | .increment record quantity amount => do
    let p ← openProject directory i
    increment (countersOf p) record quantity amount
  | .flush record quantity => do
    let p ← openProject directory i
    flush (countersOf p) record quantity
  | .showCounter record quantity => do
    let p ← openProject directory i
    showCounter (countersOf p) record quantity
  | .clear record quantity => do
    let p ← openProject directory i
    clear (countersOf p) record quantity

/-! ### Whole runs -/

/-- **The outcome of a run.** -/
structure Outcome where
  /-- The status it ends with. -/
  status : Nat
  /-- What it wrote. -/
  output : String
  /-- What it says about an error. -/
  failure : Option String := none
deriving DecidableEq

/-- The end of a command: its outcome, and the files with the database written back. -/
def Desk.close (d : Desk) (answer : Except CommandError Unit) : Outcome × FileTree :=
  let output := String.join (d.lines.reverse.map (· ++ "\n"))
  let files := d.files.keep ⟨d.world.store, d.place⟩
  match answer with
  | .ok () => ({ status := 0, output }, files)
  | .error e =>
    if e.breaksOff then ({ status := 101, output }, files)
    else ({ status := 1, output, failure := some ("Error: " ++ e.message) }, files)

/-- A run of an invocation. -/
def Invocation.run (s : Surroundings) (i : Invocation) : Outcome × FileTree :=
  let directory := i.project.getD (Path.ofPlace s.files.here)
  let world : World := { clock := s.clock, leases := { issued := s.firstToken } }
  let (answer, d) := i.task s directory { files := s.files, world }
  d.close answer

/-- The options that variables give. -/
def Surroundings.given (s : Surroundings) : List (String × String) :=
  (s.database.map fun file => ("db-path", file)).toList

/-- The outcome of a command line that stands for no invocation. -/
def Halt.outcome (given : List (String × String)) : Halt → Outcome
  | usage => { status := 2, output := "" }
  | help grammars => { status := 0, output := program.help given grammars }
  | version => { status := 0, output := program.version ++ "\n" }

/-- **A command line from its words to its outcome**, with the files as they are then. -/
def run (s : Surroundings) (words : List String) : Outcome × FileTree :=
  match program.read s.given words with
  | .error h => (h.outcome s.given, s.files)
  | .ok r =>
    match Invocation.ofReading? r with
    | none => (Halt.usage.outcome s.given, s.files)
    | some i => i.run s

end Leasehold.Cli
