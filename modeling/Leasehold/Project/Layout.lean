import Leasehold.Files.Tree
import Leasehold.Settings.Reader
import Leasehold.Settings.Writer

/-!
# The files of a project

A project keeps its files in a directory of its own: its settings and its database.

* `Leasehold.Layout.home`, `Leasehold.Layout.settingsFile`, `Leasehold.Layout.databaseFile` – the
  paths of a project's files;
* `Leasehold.Layout.isInitialized` – whether there are settings;
* `Leasehold.ProjectError` – what can be wrong with a project, and in which words;
* `Leasehold.Layout.loadSettings`, `Leasehold.Layout.saveSettings` – the settings of a file, read
  and written.
-/

namespace Leasehold

/-- **What can be wrong with a project.** -/
inductive ProjectError where
  /-- Its directory is missing. -/
  | unresolved
  /-- Its settings cannot be read as a text. -/
  | unreadable (file : Path)
  /-- Its settings are no settings. -/
  | malformed
  /-- The directory for its files cannot be made. -/
  | cannotCreate (directory : Path)
  /-- Its settings cannot be written. -/
  | cannotWrite (file : Path)
  /-- Its database cannot be made. -/
  | cannotInitialize (file : Path)
deriving DecidableEq

/-- **The words for an error.** -/
def ProjectError.message : ProjectError → String
  | unresolved => "Failed to resolve project directory"
  | unreadable file => "Failed to read config file: " ++ file
  | malformed => Settings.unreadable
  | cannotCreate directory => "Failed to create directory: " ++ directory
  | cannotWrite file => "Failed to write config file: " ++ file
  | cannotInitialize file => "Failed to initialize database: " ++ file

namespace Layout

/-- **The directory of a project's files.** -/
def home (project : Path) : Path := project.join ".cronlease"

/-- **The file of a project's settings.** -/
def settingsFile (project : Path) : Path := (home project).join "cronlease.toml"

/-- **The file of a project's database**, unless told otherwise. -/
def databaseFile (project : Path) : Path := (home project).join "cronlease.db"

/-- **Whether a project is initialized**: whether there is something where its settings are. -/
def isInitialized (t : FileTree) (project : Path) : Bool := t.contains (settingsFile project)

/-- **The settings of a file.** -/
def loadSettings (t : FileTree) (file : Path) : Except ProjectError Settings :=
  match t.readText? file with
  | none => .error (.unreadable file)
  | some s =>
    match Settings.ofText? s with
    | none => .error .malformed
    | some settings => .ok settings

/-- The settings of a file, or the defaults when it is missing. -/
def loadOrDefault (t : FileTree) (file : Path) : Except ProjectError Settings :=
  if t.contains file then loadSettings t file else .ok {}

/-- **Writes settings into a file**, with every default spelled out. -/
def saveSettings (t : FileTree) (file : Path) (s : Settings) : Except ProjectError FileTree :=
  match t.writeText? file s.toText with
  | none => .error (.cannotWrite file)
  | some t => .ok t

end Layout

end Leasehold
