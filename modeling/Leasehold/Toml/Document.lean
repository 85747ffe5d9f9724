import Leasehold.Toml.Statement

/-!
# TOML documents

The statements of a TOML text build one table. The order of lines does not matter except that no
value and no table may be given twice.

* `Leasehold.Toml.Document` – the table so far, and the path of the table that is open;
* `Leasehold.Toml.Document.add?` – one statement more;
* `Leasehold.Toml.Document.ofText?` – the table of a text.

A header may open a table that was only implied by other headers, but none that has a header,
was made by a dotted key or was written on the spot.
-/

namespace Leasehold.Toml

/-- Whether a header may lead through a table. -/
def Origin.isOpenToHeaders : Origin → Bool
  | .closed => false
  | _ => true

/-- **Opens a table by a header**: it is made, or it was only implied so far. -/
def Members.define? (name : String) (ms : Members) : Option Members :=
  match ms.find? name with
  | none => some (ms ++ [(name, .table .defined [])])
  | some (.table .implied inner) =>
    some (ms.map fun m => if m.1 = name then (name, .table .defined inner) else m)
  | some _ => none

/-- **Adds a table to a series**, which is made when there is none. -/
def Members.extend? (name : String) (ms : Members) : Option Members :=
  match ms.find? name with
  | none => some (ms ++ [(name, .series [[]])])
  | some (.series tables) =>
    some (ms.map fun m => if m.1 = name then (name, .series ([] :: tables)) else m)
  | some _ => none

/-- Changes the table that the last name of a header belongs to. -/
def Members.atHeader? (f : String → Members → Option Members) (path : List String)
    (ms : Members) : Option Members :=
  match path.reverse with
  | [] => none
  | name :: way =>
    (ms.change? .implied Origin.isOpenToHeaders
      (fun origin inner => (f name inner).map (origin, ·)) way.reverse .defined).map (·.2)

/-- **A document**: its table so far, and the path of the table that is open. -/
structure Document where
  /-- The members of the whole. -/
  members : Members := []
  /-- The table that assignments go to. -/
  path : List String := []

namespace Document

/-- **One statement more.** -/
def add? (d : Document) : Statement → Option Document
  | .header path => (d.members.atHeader? Members.define? path).map (⟨·, path⟩)
  | .series path => (d.members.atHeader? Members.extend? path).map (⟨·, path⟩)
  | .assign key v =>
    (d.members.change? .implied Origin.isOpenToHeaders
      (fun origin inner => (inner.assign? key v).map (origin, ·)) d.path .defined).map
      (⟨·.2, d.path⟩)

/-- **The table of a text**, absent when the text is no TOML. -/
def ofText? (s : String) : Option Members := do
  let statements ← Statement.ofText? s
  let d ← statements.foldlM add? {}
  some d.members

end Document

end Leasehold.Toml
