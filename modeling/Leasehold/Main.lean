import Leasehold.Cli.Run
import Leasehold.Store.Text
import Std.Time.DateTime.Timestamp

/-!
# The command line

The files that a command line speaks of are read into a file tree, the command runs on the tree,
and what it changed is written back. No transport is at hand, so requests stay without an answer.
-/

namespace Leasehold

/-! ### Files -/

/-- What stands at a place. A file with the text of a store is a database. -/
def scan (place : Place) : IO (Option FileEntry) := do
  try
    let s ← IO.FS.readFile (Path.ofPlace place)
    pure (some (((Store.ofText? s).map FileEntry.database).getD (.text s)))
  catch e =>
    match e with
    | .inappropriateType .. => pure (some .directory)
    | .userError _ => pure (some .other)
    | _ => pure none

/-- The places that a path leads through. -/
def placesOf (place : Place) : List String → List Place
  | [] => []
  | name :: rest =>
    let next := if name = ".." then place.dropLast else place ++ [name]
    next :: placesOf next rest

/-- Reads what stands at some places into a tree. -/
def load (t : FileTree) (places : List Place) : IO FileTree :=
  places.foldlM
    (fun t place => do
      match ← scan place with
      | some e => pure (t.put place e)
      | none => pure t)
    t

/-- The text of a file. -/
def FileEntry.content? : FileEntry → Option String
  | text s => some s
  | database s => some s.toText
  | _ => none

/-- Writes what stands at a place. -/
def write (place : Place) : FileEntry → IO Unit
  | .directory => IO.FS.createDirAll (Path.ofPlace place)
  | e =>
    match e.content? with
    | some s => IO.FS.writeFile (Path.ofPlace place) s
    | none => pure ()

/-- Writes what changed. -/
def save (old new : FileTree) : IO Unit :=
  new.entries.reverse.forM fun (place, e) =>
    match old.item? place with
    | some was => if was.content? = e.content? then pure () else write place e
    | none => write place e

/-! ### Runs -/

/-- The paths that a command line speaks of. -/
def pathsOf (s : Cli.Surroundings) (words : List String) : List Path :=
  match Cli.program.read s.given words with
  | .error _ => []
  | .ok r =>
    let project := (r.option? "project-dir").getD (Path.ofPlace s.files.here)
    [Layout.settingsFile project, Layout.databaseFile project] ++ (r.option? "db-path").toList

/-- The wall time. -/
def present : IO Instant := do
  let t ← Std.Time.Timestamp.now
  pure ((Instant.ofNanos? t.toNanosecondsSinceUnixEpoch.val).getD .epoch)

/-- What a command line finds. -/
def surroundings (words : List String) : IO Cli.Surroundings := do
  let here := Path.steps (← IO.currentDir).toString
  let wall ← present
  let s : Cli.Surroundings := {
    files := { here }
    clock := { wall }
    environment :=
      { maxRuntime := ← IO.getEnv "CRONLEASE_MAX_RUNTIME", log := ← IO.getEnv "CRONLEASE_LOG" }
    database := ← IO.getEnv "CRONLEASE_DB"
    firstToken := wall.nanos.toNat }
  let places := (pathsOf s words).flatMap fun p => placesOf (s.files.start p) p.steps
  let files ← load s.files (placesOf [] here ++ places)
  pure { s with files }

end Leasehold

open Leasehold in
/-- Runs a command line. -/
def main (words : List String) : IO UInt32 := do
  let s ← surroundings words
  let (outcome, files) := Cli.run s words
  save s.files files
  IO.print outcome.output
  if outcome.status = 2 then IO.eprint (Cli.program.help s.given [Cli.program.grammar])
  match outcome.failure with
  | some line => IO.eprintln line
  | none => pure ()
  pure outcome.status.toUInt32
