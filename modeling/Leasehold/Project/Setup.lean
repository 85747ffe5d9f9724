import Leasehold.Project.Layout

/-!
# Setting up a project

Setting up makes the directory of a project's files, its settings with every default spelled out,
and its database. It can be repeated: settings that are there stay as they are, and so do the
tables of a database.

* `Leasehold.Setup` – what setting up did;
* `Leasehold.setUp` – setting up. What it did before an error is not undone.
-/

namespace Leasehold

/-- **What setting up a project did.** -/
structure Setup where
  /-- The directory of the project's files. -/
  home : Path
  /-- Whether that directory is new. -/
  isNew : Bool
  /-- Whether the settings were written. -/
  wroteSettings : Bool
deriving DecidableEq

namespace Setup

/-- The directory of a project's files. -/
def makeHome (t : FileTree) (project : Path) : Except ProjectError Unit × FileTree :=
  match t.makeDirectories (Layout.home project) with
  | (.ok (), t) => (.ok (), t)
  | (.error _, t) => (.error (.cannotCreate (Layout.home project)), t)

/-- The settings of a project, unless there are some. -/
def makeSettings (t : FileTree) (project : Path) : Except ProjectError Bool × FileTree :=
  let file := Layout.settingsFile project
  if t.contains file then (.ok false, t)
  else
    match Layout.saveSettings t file {} with
    | .ok t => (.ok true, t)
    | .error e => (.error e, t)

/-- The database of a project. -/
def makeDatabase (t : FileTree) (project : Path) : Except ProjectError Unit × FileTree :=
  match t.openDatabase (Layout.databaseFile project) with
  | (.ok _, t) => (.ok (), t)
  | (.error _, t) => (.error (.cannotInitialize (Layout.databaseFile project)), t)

end Setup

/-- **Sets up a project.** -/
def setUp (t : FileTree) (project : Path) : Except ProjectError Setup × FileTree :=
  let isNew := !t.contains (Layout.home project)
  match Setup.makeHome t project with
  | (.error e, t) => (.error e, t)
  | (.ok (), t) =>
    match Setup.makeSettings t project with
    | (.error e, t) => (.error e, t)
    | (.ok wroteSettings, t) =>
      match Setup.makeDatabase t project with
      | (.error e, t) => (.error e, t)
      | (.ok (), t) => (.ok ⟨Layout.home project, isNew, wroteSettings⟩, t)

end Leasehold
