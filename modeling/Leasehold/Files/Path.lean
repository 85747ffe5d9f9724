/-!
# Paths

A path is a text that leads through a file tree: names with slashes between them. It starts at the
root when it begins with a slash, and otherwise where one stands. A dot, or nothing between two
slashes, stays where one is; two dots lead one place back.

* `Leasehold.Path.join` – a path and one that leads on from there;
* `Leasehold.Path.parts` – what is between the slashes;
* `Leasehold.Path.steps` – the same without what stays in place.
-/

namespace Leasehold

/-- **A path**, as somebody wrote it. -/
abbrev Path := String

namespace Path

/-- Whether a path starts at the root. -/
def isAbsolute (p : Path) : Bool := p.toList.head? = some '/'

/-- **A path and one that leads on from there.** One that starts at the root leads to the same
place from everywhere. -/
def join (base rest : Path) : Path :=
  if isAbsolute rest then rest
  else if base = "" ∨ base.toList.getLast? = some '/' then base ++ rest
  else base ++ "/" ++ rest

/-- Cuts a text at its slashes. -/
def cut : List Char → List (List Char)
  | [] => [[]]
  | c :: cs =>
    if c = '/' then [] :: cut cs
    else
      match cut cs with
      | part :: rest => (c :: part) :: rest
      | [] => [[c]]

/-- **What is between the slashes of a path.** -/
def parts (p : Path) : List String := (cut p.toList).map String.ofList

/-- Whether a part stays in place. -/
def stays (part : String) : Bool := part = "" || part = "."

/-- **The parts of a path that lead somewhere.** -/
def steps (p : Path) : List String := p.parts.filter fun part => !stays part

/-- The path from the root to some place. -/
def ofPlace (names : List String) : Path :=
  if names = [] then "/" else String.join (names.map ("/" ++ ·))

end Path

end Leasehold
