import Leasehold.Project.Layout
import Leasehold.Text.Blank
import Leasehold.Text.Digits

/-!
# Resolving a project

Some settings can be given in several places. What is asked for in the command comes first, then
the variables of the environment, then the settings of the project.

* `Leasehold.Project` – a project, and what the command asks for;
* `Leasehold.Project.resolve` – the project of a directory;
* `Leasehold.Variables` – the variables of the environment;
* `Leasehold.Project.databaseFile`, `Leasehold.Project.maxRuntime`,
  `Leasehold.Project.logLevel`, `Leasehold.Project.workerOptions` – what holds in the end.
-/

namespace Leasehold

/-- **The variables of the environment** that can stand for a setting. -/
structure Variables where
  /-- How many seconds a run may take. -/
  maxRuntime : Option String := none
  /-- Which log lines are shown. -/
  log : Option String := none

/-- **A project**, and what the command asks for. -/
structure Project where
  /-- The directory, by its path from the root. -/
  directory : Path
  /-- The settings of the project. -/
  settings : Settings
  /-- Whether the command asks for more log lines. -/
  isVerbose : Bool := false
  /-- The database that the command asks for. -/
  askedDatabase : Option Path := none
  /-- The seconds of a run that the command asks for. -/
  askedMaxRuntime : Option UInt64 := none

namespace Project

/-- **The project of a directory**, which has to be there. -/
def resolve (t : FileTree) (directory : Path) (isVerbose : Bool) (askedDatabase : Option Path) :
    Except ProjectError Project :=
  match t.locate directory with
  | .error _ => .error .unresolved
  | .ok place =>
    let directory := Path.ofPlace place
    (Layout.loadOrDefault t (Layout.settingsFile directory)).map fun settings =>
      { directory, settings, isVerbose, askedDatabase }

/-- **The file of the database.** -/
def databaseFile (p : Project) : Path := p.askedDatabase.getD (Layout.databaseFile p.directory)

/-- The seconds in a text, with blanks around them. -/
def secondsOfText? (s : String) : Option UInt64 :=
  (Text.naturalUpTo? 18446744073709551615 (Text.trim s.toList)).map UInt64.ofNat

/-- **The time a run may take.** A variable that is no number of seconds does not count. -/
def maxRuntime (p : Project) (v : Variables) : Span :=
  .ofSeconds (p.askedMaxRuntime.getD
    ((v.maxRuntime.bind secondsOfText?).getD p.settings.aggregation.maxRuntimeSecs))

/-- The log lines that somebody asks for. A variable of blanks does not count. -/
def logOverride? (p : Project) (v : Variables) : Option String :=
  if p.isVerbose then some "debug" else v.log.filter fun s => !Text.isAllBlank s

/-- **Which log lines are shown.** -/
def logLevel (p : Project) (v : Variables) : String :=
  (p.logOverride? v).getD p.settings.logging.level

/-- **What a worker is told.** -/
def workerOptions (p : Project) (v : Variables) (mode : Option Mode) : WorkerOptions :=
  { mode := mode.getD p.settings.aggregation.mode
    maxRuntime := p.maxRuntime v
    batchSize := p.settings.aggregation.batchSize.toNat }

end Project

end Leasehold
