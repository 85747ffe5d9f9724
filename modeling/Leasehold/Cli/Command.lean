import Leasehold.Cli.Reading
import Leasehold.Files.Path

/-!
# Commands

* `Leasehold.Cli.Command` – what the program can be told to do;
* `Leasehold.Cli.Invocation` – a command with the options of every command;
* `Leasehold.Cli.program` – the grammar of command lines;
* `Leasehold.Cli.Invocation.ofReading?` – the invocation that a command line stands for.
-/

namespace Leasehold.Cli

/-! ### What can be told -/

/-- **A command.** -/
inductive Command where
  /-- Sets up a project. -/
  | setUp
  /-- Shows where the database is, and how many rows its tables have. -/
  | status
  /-- Shows the settings. -/
  | showSettings
  /-- Shows the warnings about the settings. -/
  | checkSettings
  /-- Writes settings with every default spelled out. -/
  | writeSettings
  /-- Runs the worker once. -/
  | aggregate (mode : Option Mode) (maxRuntime : Option UInt64) (asJson : Bool)
  /-- Registers a target. -/
  | addTarget (target : Int)
  /-- Lists the aggregations. -/
  | listTargets
  /-- Lets a target be aggregated, or not. -/
  | enableTarget (target : Int) (enabled : Bool)
  /-- Adds an event to a target. -/
  | addEvent (target value : Int)
  /-- Registers a web hook. -/
  | addHook (project : Int) (url : String)
  /-- Lists the web hooks. -/
  | listHooks
  /-- Writes into a web hook how a delivery went. -/
  | recordDelivery (hook : Int) (c : Category)
  /-- Tells a web hook about an event. -/
  | deliver (hook : Int) (event : String) (payload : Option String)
  /-- Lets an increment of a counter wait. -/
  | increment (record quantity : String) (amount : Int)
  /-- Moves what waits into the value of a counter. -/
  | flush (record quantity : String)
  /-- Shows the value of a counter, and what waits. -/
  | showCounter (record quantity : String)
  /-- Drops what waits. -/
  | clear (record quantity : String)
deriving DecidableEq

/-- **An invocation** of the program. -/
structure Invocation where
  /-- Whether more log lines are asked for. -/
  isVerbose : Bool
  /-- The directory of the project, unless it is where one stands. -/
  project : Option Path
  /-- The file of the database, unless it is the project's. -/
  database : Option Path
  /-- The command. -/
  command : Command
deriving DecidableEq

/-! ### The grammar -/

/-- A rule for an argument that is an integer. -/
def integerRule (name : String) (maySign : Bool) : ArgumentRule :=
  { name, kind := .integer, maySign }

/-- A rule for an argument that is any text. -/
def textRule (name : String) : ArgumentRule := { name, kind := .text }

/-- The arguments that name a counter. -/
def counterRules : List ArgumentRule := [textRule "RECORD", textRule "ATTRIBUTE"]

/-- The commands about settings. -/
def configGrammar : Grammar :=
  { name := "config"
    about := "View or validate configuration"
    needsCommand := false
    commands :=
      [{ name := "show", about := "Show current configuration" },
        { name := "validate", about := "Validate configuration and show any warnings" },
        { name := "init", about := "Initialize a default cronlease.toml file" }] }

/-- The command that runs the worker. -/
def aggregateGrammar : Grammar :=
  { name := "aggregate"
    about := "Run one time-boxed aggregation pass"
    options :=
      [{ name := "mode", value := some .mode
         about := "incremental or full. Defaults to aggregation.mode from cronlease.toml" },
        { name := "max-runtime", value := some .word
          about :=
            "Runtime budget in seconds. Overrides CRONLEASE_MAX_RUNTIME and the config file" },
        { name := "json", about := "Print the report as JSON" }] }

/-- The commands about targets. -/
def targetGrammar : Grammar :=
  { name := "target"
    about := "Manage aggregation targets"
    commands :=
      [{ name := "add", about := "Register a target for aggregation"
         arguments := [integerRule "TARGET_ID" false] },
        { name := "list", about := "List aggregations with their cursors and totals" },
        { name := "disable", about := "Stop aggregating a target"
          arguments := [integerRule "TARGET_ID" false] },
        { name := "enable", about := "Resume aggregating a target"
          arguments := [integerRule "TARGET_ID" false] }] }

/-- The commands about events. -/
def eventGrammar : Grammar :=
  { name := "event"
    about := "Record source events for aggregation"
    commands :=
      [{ name := "add", about := "Add a source event for a target"
         arguments := [integerRule "TARGET_ID" false, integerRule "VALUE" true] }] }

/-- The event of a delivery that names none. -/
def defaultEvent : String := "push"

/-- The commands about web hooks. -/
def hookGrammar : Grammar :=
  { name := "hook"
    about := "Manage webhooks and their failure state"
    commands :=
      [{ name := "add", about := "Register a webhook for a project"
         arguments := [integerRule "PROJECT_ID" false, textRule "URL"] },
        { name := "list", about := "List webhooks with their failure state" },
        { name := "record"
          about := "Record a delivery outcome (ok, error, failed) without sending anything"
          arguments := [integerRule "HOOK_ID" false, { name := "CATEGORY", kind := .category }] },
        { name := "deliver", about := "POST a payload to the hook and record the outcome"
          arguments := [integerRule "HOOK_ID" false]
          options :=
            [{ name := "event", value := some .text, standard := some defaultEvent },
              { name := "payload", value := some .text
                about := "JSON payload. Defaults to an empty object" }] }] }

/-- The commands about counters. -/
def counterGrammar : Grammar :=
  { name := "counter"
    about := "Buffered counter attributes"
    commands :=
      [{ name := "incr", about := "Buffer an increment"
         arguments := counterRules ++ [integerRule "BY" true] },
        { name := "flush", about := "Move buffered increments into the durable value"
          arguments := counterRules },
        { name := "show", about := "Show durable and pending values", arguments := counterRules },
        { name := "clear", about := "Drop buffered increments", arguments := counterRules }] }

/-- **The grammar of command lines.** -/
def program : Program :=
  { version := "cronlease 0.1.0"
    everywhere :=
      [{ name := "verbose", letter := some 'v' },
        { name := "project-dir", value := some .path },
        { name := "db-path", value := some .path, variableName := some "CRONLEASE_DB"
          about := "Database path. Defaults to .cronlease/cronlease.db" }]
    grammar :=
      { name := "cronlease"
        about := "Lease-guarded, time-boxed background workers for cron schedules"
        commands :=
          [{ name := "init", about := "Initialize .cronlease/ with a default config and database" },
            { name := "status", about := "Show database location and row counts" },
            configGrammar, aggregateGrammar, targetGrammar, eventGrammar, hookGrammar,
            counterGrammar] } }

/-! ### From command lines to commands -/

/-- The command of a command line. -/
def Command.ofReading? (r : Reading) : Option Command :=
  match r.commands, r.arguments with
  | ["init"], [] => some .setUp
  | ["status"], [] => some .status
  | ["config"], [] => some .showSettings
  | ["config", "show"], [] => some .showSettings
  | ["config", "validate"], [] => some .checkSettings
  | ["config", "init"], [] => some .writeSettings
  | ["aggregate"], [] =>
    some (.aggregate ((r.option? "mode").bind Mode.ofName?) ((r.option? "max-runtime").bind word?)
      (r.has "json"))
  | ["target", "add"], [target] => (integer? target).map .addTarget
  | ["target", "list"], [] => some .listTargets
  | ["target", "disable"], [target] => (integer? target).map (.enableTarget · false)
  | ["target", "enable"], [target] => (integer? target).map (.enableTarget · true)
  | ["event", "add"], [target, value] => do
    let target ← integer? target
    let value ← integer? value
    some (.addEvent target value)
  | ["hook", "add"], [project, url] => (integer? project).map (.addHook · url)
  | ["hook", "list"], [] => some .listHooks
  | ["hook", "record"], [hook, category] => do
    let hook ← integer? hook
    let category ← Category.ofName? category
    some (.recordDelivery hook category)
  | ["hook", "deliver"], [hook] =>
    (integer? hook).map (.deliver · ((r.option? "event").getD defaultEvent) (r.option? "payload"))
  | ["counter", "incr"], [record, quantity, amount] =>
    (integer? amount).map (.increment record quantity ·)
  | ["counter", "flush"], [record, quantity] => some (.flush record quantity)
  | ["counter", "show"], [record, quantity] => some (.showCounter record quantity)
  | ["counter", "clear"], [record, quantity] => some (.clear record quantity)
  | _, _ => none

/-- **The invocation that a command line stands for.** -/
def Invocation.ofReading? (r : Reading) : Option Invocation :=
  (Command.ofReading? r).map fun command =>
    { isVerbose := r.has "verbose"
      project := r.option? "project-dir"
      database := r.option? "db-path"
      command }

end Leasehold.Cli
