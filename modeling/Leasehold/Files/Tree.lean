import Leasehold.Files.Path
import Leasehold.Store.Basic

/-!
# File trees

A file tree says what stands at each of its places. Paths are followed through it part by part, so
a path leads nowhere when something on its way is missing or is no directory.

* `Leasehold.Place` – a place, by the names that lead there from the root;
* `Leasehold.FileTree` – the tree, and where one stands in it;
* `Leasehold.FileTree.locate` – where a path leads;
* `Leasehold.FileTree.readText?`, `Leasehold.FileTree.writeText?` – the texts;
* `Leasehold.FileTree.makeDirectories` – a directory with all those on the way;
* `Leasehold.FileTree.openDatabase` – a database, which is made when it is missing.

Writing at a place changes nothing at any other place (`Leasehold.FileTree.item?_put_of_ne`).

Two things that a database library looks at are left out. A file of a single byte counts as an empty
database for it, and as something else here, like any other text; and what stands beside a database
under the name of its journal, as `cronlease.db-journal` beside `cronlease.db`, is not looked at: no
change is rolled back that a journal tells of, and nothing fails because no journal can be made.
-/

namespace Leasehold

/-- **A place**: the names that lead there from the root. -/
abbrev Place := List String

/-- **What stands at a place.** -/
inductive FileEntry where
  /-- A directory. -/
  | directory
  /-- A file with a text. -/
  | text (s : String)
  /-- A file with a database. -/
  | database (s : Store)
  /-- A file with something else. -/
  | other

/-- **A file tree.** -/
structure FileTree where
  /-- What stands at which place; the root is a directory and is not mentioned. -/
  entries : List (Place × FileEntry) := []
  /-- Where one stands. -/
  here : Place := []

/-- **Why something cannot be done with a file.** -/
inductive FileError where
  /-- There is nothing. -/
  | missing
  /-- There is something already. -/
  | occupied
  /-- There is something else than a directory on the way. -/
  | notDirectory
deriving DecidableEq

/-- **The words for an error.** -/
def FileError.message : FileError → String
  | missing => "No such file or directory (os error 2)"
  | occupied => "File exists (os error 17)"
  | notDirectory => "Not a directory (os error 20)"

namespace FileTree

/-! ### Places -/

/-- What stands at a place. -/
def item? (t : FileTree) (place : Place) : Option FileEntry :=
  if place = [] then some .directory else (t.entries.find? (·.1 = place)).map (·.2)

/-- Puts something at a place, whatever stood there. -/
def put (t : FileTree) (place : Place) (e : FileEntry) : FileTree :=
  { t with entries := (place, e) :: t.entries.filter (·.1 ≠ place) }

/-- Whether there is a directory at a place. -/
def hasDirectory (t : FileTree) (place : Place) : Bool :=
  match t.item? place with
  | some .directory => true
  | _ => false

theorem item?_put_self (t : FileTree) {place : Place} (h : place ≠ []) (e : FileEntry) :
    (t.put place e).item? place = some e := by
  simp [item?, put, h]

theorem item?_put_of_ne (t : FileTree) {place other : Place} (h : other ≠ place) (e : FileEntry) :
    (t.put place e).item? other = t.item? other := by
  unfold item? put
  split
  · rfl
  · congr 1
    rw [List.find?_cons_of_neg (by simpa using Ne.symm h), List.find?_filter]
    congr 1
    funext x
    by_cases hx : x.1 = other
    · simp [hx, h]
    · simp [hx]

/-! ### Following paths -/

/-- Where some parts of a path lead from a place. -/
def walk (t : FileTree) (place : Place) : List String → Except FileError Place
  | [] => .ok place
  | part :: rest =>
    if t.hasDirectory place then
      if Path.stays part then t.walk place rest
      else if part = ".." then t.walk place.dropLast rest
      else if (t.item? (place ++ [part])).isSome then t.walk (place ++ [part]) rest
      else .error .missing
    else .error .notDirectory

/-- Where a path starts. -/
def start (t : FileTree) (p : Path) : Place := if p.isAbsolute then [] else t.here

/-- **Where a path leads.** -/
def locate (t : FileTree) (p : Path) : Except FileError Place :=
  if p = "" then .error .missing else t.walk (t.start p) p.parts

/-- What a path leads to. -/
def find? (t : FileTree) (p : Path) : Option FileEntry :=
  match t.locate p with
  | .ok place => t.item? place
  | .error _ => none

/-- **Whether a path leads to anything.** -/
def contains (t : FileTree) (p : Path) : Bool := (t.find? p).isSome

/-- Where a new file of a path would stand; absent where none can be made. -/
def site? (t : FileTree) (p : Path) : Option Place :=
  match p.parts.getLast? with
  | none => none
  | some name =>
    if Path.stays name || name = ".." then none
    else
      match t.walk (t.start p) p.parts.dropLast with
      | .ok place => if t.hasDirectory place then some (place ++ [name]) else none
      | .error _ => none

/-! ### Texts -/

/-- **The text of a file.** -/
def readText? (t : FileTree) (p : Path) : Option String :=
  match t.find? p with
  | some (.text s) => some s
  | _ => none

/-- **Writes a text into a file**, which is made when it is missing. -/
def writeText? (t : FileTree) (p : Path) (s : String) : Option FileTree := do
  let place ← t.site? p
  if t.hasDirectory place then none else some (t.put place (.text s))

/-! ### Directories -/

/-- Makes one directory. Its path is given by its steps, the last one first. -/
def makeDirectory (t : FileTree) (start : Place) : List String → Except FileError FileTree
  | [] => .error .occupied
  | name :: before => do
    let place ← t.walk start before.reverse
    if !t.hasDirectory place then throw .notDirectory
    else if name = ".." || (t.item? (place ++ [name])).isSome then throw .occupied
    else pure (t.put (place ++ [name]) .directory)

/-- Whether some steps, the last one first, lead to a directory. -/
def leadsToDirectory (t : FileTree) (start : Place) (steps : List String) : Bool :=
  match t.walk start steps.reverse with
  | .ok place => t.hasDirectory place
  | .error _ => false

/-- That a directory cannot be made is no error when it is there. -/
def settle (t : FileTree) (start : Place) (steps : List String) (e : FileError) :
    Except FileError FileTree × FileTree :=
  if t.leadsToDirectory start steps then (.ok t, t) else (.error e, t)

/-- Makes a directory and, when those on the way are missing, those first. -/
def makeAll (start : Place) : List String → FileTree → Except FileError FileTree × FileTree
  | [], t => (.ok t, t)
  | name :: before, t =>
    match t.makeDirectory start (name :: before) with
    | .ok made => (.ok made, made)
    | .error .missing =>
      match makeAll start before t with
      | (.error e, t) => (.error e, t)
      | (.ok _, t) =>
        match t.makeDirectory start (name :: before) with
        | .ok made => (.ok made, made)
        | .error e => settle t start (name :: before) e
    | .error e => settle t start (name :: before) e

/-- **Makes a directory** with all those on the way. What was made stays even if there is an
error. -/
def makeDirectories (t : FileTree) (p : Path) : Except FileError Unit × FileTree :=
  let (made, t) := makeAll (t.start p) p.steps.reverse t
  (made.map fun _ => (), t)

/-! ### Databases -/

/-- **Why a database cannot be opened.** -/
inductive OpenError where
  /-- There is no place for it. -/
  | cannotOpen
  /-- There is something else. -/
  | notDatabase
deriving DecidableEq

/-- **The words for an error.** -/
def OpenError.message : OpenError → String
  | cannotOpen => "Failed to open SQLite database"
  | notDatabase => "Failed to run migrations"

/-- **A database that is open**: its tables, and where it stands unless it is thrown away. -/
structure OpenDatabase where
  /-- The tables. -/
  store : Store
  /-- The place of its file. -/
  place : Option Place

/-- The path of a database that is in no file. -/
def throwAway : Path := ":memory:"

/-- **Opens a database**, which is made when it is missing. A file without any text is an empty
database; what stands beside the file does not matter. -/
def openDatabase (t : FileTree) (p : Path) : Except OpenError OpenDatabase × FileTree :=
  if p = throwAway then (.ok ⟨{}, none⟩, t)
  else
    match t.find? p, t.locate p, t.site? p with
    | some (.database store), .ok place, _ => (.ok ⟨store, some place⟩, t)
    | some (.text s), .ok place, _ =>
      if s = "" then (.ok ⟨{}, some place⟩, t.put place (.database {}))
      else (.error .notDatabase, t)
    | some .other, _, _ => (.error .notDatabase, t)
    | none, _, some place => (.ok ⟨{}, some place⟩, t.put place (.database {}))
    | _, _, _ => (.error .cannotOpen, t)

/-- Writes a database back into its file. -/
def keep (t : FileTree) (d : OpenDatabase) : FileTree :=
  match d.place with
  | some place => t.put place (.database d.store)
  | none => t

end FileTree

end Leasehold
