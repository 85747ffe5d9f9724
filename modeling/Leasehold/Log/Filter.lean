import Leasehold.Log.Directive
import Leasehold.Settings.Warnings

/-!
# Log filters

A filter is a list of directives with commas between them. It keeps them sorted, those first that
say more: those with a longer target, then those with a span, then those with more fields. Of two
directives that differ only in their level the later one counts.

* `Leasehold.LogFilter` – a filter;
* `Leasehold.LogFilter.ofText?` – reading one;
* `Leasehold.LogFilter.text` – writing one;
* `Leasehold.LogFilter.choose` – the filter of a run: the one asked for, the one of the settings,
  or a plain one.
-/

namespace Leasehold

/-- **A log filter**: the directives that depend on the target and field names only, and those
that depend on where a line was logged or on values of fields. -/
structure LogFilter where
  /-- The directives that do not depend on spans or values. -/
  plain : List Directive := []
  /-- The directives that depend on spans or fields. -/
  narrow : List Directive := []
deriving DecidableEq

namespace LogFilter

/-! ### The order of directives -/

/-- The order of texts that may be absent; an absent one comes first. -/
def compareTexts : Option String → Option String → Ordering
  | none, none => .eq
  | none, some _ => .lt
  | some _, none => .gt
  | some a, some b => compare a b

/-- The order of fields: one with a value says more than one without. -/
def compareFields (a b : LogField) : Ordering :=
  (compare a.value.isSome.toNat b.value.isSome.toNat).then <|
    (compare a.name b.name).then (compareTexts a.value b.value)

/-- The order of lists of fields. -/
def compareLists : List LogField → List LogField → Ordering
  | [], [] => .eq
  | [], _ :: _ => .lt
  | _ :: _, [] => .gt
  | a :: as, b :: bs => (compareFields a b).then (compareLists as bs)

/-- How much a directive says, compared with another one: first by the length of its target, then
by its span and the number of its fields, and then by their names and values. -/
def compareDirectives (a b : Directive) : Ordering :=
  let size := fun (d : Directive) => (d.target.map String.utf8ByteSize).elim 0 (· + 1)
  (compare (size a) (size b)).then <|
    (compare a.span.isSome.toNat b.span.isSome.toNat).then <|
      (compare a.fields.length b.fields.length).then <|
        (compareTexts a.target b.target).then <|
          (compareTexts a.span b.span).then <|
            compareLists a.fields b.fields

/-- Puts a directive in its place; one that says the same is replaced. -/
def insert (d : Directive) : List Directive → List Directive
  | [] => [d]
  | e :: es =>
    match compareDirectives d e with
    | .gt => d :: e :: es
    | .eq => d :: es
    | .lt => e :: insert d es

/-! ### Reading and writing -/

/-- Whether a directive depends on spans or fields. -/
def isNarrow (d : Directive) : Bool := d.span.isSome || !d.fields.isEmpty

/-- What a directive says without regard to spans and values of fields, if it says anything
then. -/
def plainPart? (d : Directive) : Option Directive :=
  if d.span.isSome || d.fields.any (·.value.isSome) then none else some d

/-- The filter of some directives. -/
def ofDirectives (ds : List Directive) : LogFilter :=
  let narrow := ds.filter isNarrow
  let plain := (ds.filter fun d => !isNarrow d) ++ narrow.filterMap plainPart?
  { plain := plain.foldl (fun es d => insert d es) []
    narrow := narrow.foldl (fun es d => insert d es) [] }

/-- **The filter of a text**, absent when one of its directives cannot be read. -/
def ofText? (s : String) : Option LogFilter := do
  let parts := (splitCommas s.toList).filter (· ≠ [])
  let ds ← parts.mapM Directive.ofText?
  some (ofDirectives ds)

/-- **The text of a filter.** -/
def text (f : LogFilter) : String :=
  ",".intercalate ((f.plain ++ f.narrow).map Directive.text)

/-- The filter where nothing else can be read. -/
def standard : LogFilter := { plain := [{ level := .info }] }

/-- **The filter of a run**: the one asked for, else the one of the settings, else the standard
one; what cannot be read is passed over. -/
def choose (asked : Option String) (fallback : String) : LogFilter :=
  match asked.bind ofText? with
  | some f => f
  | none => (ofText? fallback).getD standard

end LogFilter

end Leasehold
