import Leasehold.Text.Blank
import Leasehold.Text.Digits

/-!
# Directives of a log filter

A directive says up to which level log lines are shown: all of them, those of one target, or
those within spans of some name or with some fields. Its text is `target[span{field=value}]=level`,
of which most parts may be missing.

* `Leasehold.LogLevel` – the levels;
* `Leasehold.Directive` – a directive;
* `Leasehold.Directive.ofText?` – reading one, by a machine over its characters;
* `Leasehold.Directive.text` – writing one.

A directive alone is a level if it names one, and otherwise a target all of whose lines are shown.
-/

namespace Leasehold

open Text

/-! ### Levels -/

/-- **A level**: how much is shown. -/
inductive LogLevel where
  /-- Nothing. -/
  | off
  /-- Errors. -/
  | error
  /-- Warnings, too. -/
  | warn
  /-- What goes on, too. -/
  | info
  /-- Details, too. -/
  | debug
  /-- Everything. -/
  | trace
deriving DecidableEq

namespace LogLevel

/-- The name of a level. -/
def name : LogLevel → String
  | off => "off"
  | error => "error"
  | warn => "warn"
  | info => "info"
  | debug => "debug"
  | trace => "trace"

/-- The levels, each at its number. -/
def all : List LogLevel := [off, error, warn, info, debug, trace]

/-- The level of a name, in any case, or of a number. -/
def ofText? (s : List Char) : Option LogLevel :=
  match natural? s with
  | some n => all[n]?
  | none => all.find? fun l => l.name = String.ofList (s.map Char.toLower)

end LogLevel

/-! ### Directives -/

/-- **A field** that a log line has to have, with a value if one is named. -/
structure LogField where
  /-- The name of the field. -/
  name : String
  /-- Its value. -/
  value : Option String
deriving DecidableEq

/-- **A directive** of a log filter. -/
structure Directive where
  /-- The target. -/
  target : Option String := none
  /-- The name of the span. -/
  span : Option String := none
  /-- The fields. -/
  fields : List LogField := []
  /-- Up to which level lines are shown. -/
  level : LogLevel := .trace
deriving DecidableEq

/-- The field of a text. -/
def LogField.ofText (s : List Char) : LogField :=
  match s.dropWhile (· ≠ '=') with
  | [] => ⟨String.ofList s, none⟩
  | _ :: value =>
    ⟨String.ofList (s.takeWhile (· ≠ '=')), some (String.ofList (value.takeWhile (· ≠ '=')))⟩

/-- The text of a field. -/
def LogField.text (f : LogField) : String :=
  match f.value with
  | none => f.name
  | some v => f.name ++ "=" ++ v

namespace Directive

/-! ### Reading -/

/-- **The state of the machine**: which part is being read, and where it starts. -/
inductive ScanState where
  /-- Nothing was read. -/
  | start
  /-- A level or a target. -/
  | levelOrTarget (first : Nat)
  /-- The name of a span. -/
  | span (first : Nat)
  /-- A field. -/
  | field (first : Nat)
  /-- The fields are complete. -/
  | afterFields
  /-- Target and span are complete. -/
  | afterTarget
  /-- A level. -/
  | level (first : Nat)
deriving DecidableEq

/-- A part of a text. -/
def slice (s : List Char) (first stop : Nat) : List Char := (s.take stop).drop first

/-- Whether a target may start with a character. -/
def canStart (c : Char) : Bool :=
  c.isAlphanum || c = '-' || c = ':' || c = '_' || (128 ≤ c.toNat && !isBlank c)

/-- A text, absent when it is empty. -/
def nonempty? (s : List Char) : Option String := if s = [] then none else some (String.ofList s)

/-- **One step of the machine** at a place of the text. -/
def scan (text : List Char) (place : Nat) (c : Char) (state : ScanState) (d : Directive) :
    Option (ScanState × Directive) :=
  match state with
  | .start =>
    if c = '[' then some (.span (place + 1), d)
    else if canStart c then some (.levelOrTarget place, d)
    else none
  | .levelOrTarget first =>
    let target := some (String.ofList (slice text first place))
    if c = '=' then some (.level (place + 1), { d with target })
    else if c = '[' then some (.span (place + 1), { d with target })
    else some (state, d)
  | .span first =>
    let name := slice text first place
    if c = ']' then some (.afterTarget, { d with span := some (String.ofList name) })
    else if c = '\x7b' then some (.field (place + 1), { d with span := nonempty? name })
    else some (state, d)
  | .field first =>
    if c = '\x7d' || c = ',' then
      let name := slice text first place
      if name = [] then none
      else
        some (if c = ',' then .field (place + 1) else .afterFields,
          { d with fields := d.fields ++ [.ofText name] })
    else some (state, d)
  | .afterFields => if c = ']' then some (.afterTarget, d) else none
  | .afterTarget => if c = '=' then some (.level (place + 1), d) else none
  | .level _ => some (state, d)

/-- The machine on the rest of the text. -/
def scanAll (text : List Char) :
    Nat → List Char → ScanState → Directive → Option (ScanState × Directive)
  | _, [], state, d => some (state, d)
  | place, c :: cs, state, d => do
    let (state, d) ← scan text place c state d
    scanAll text (place + 1) cs state d

/-- What the end of the text makes of a directive. -/
def finish (text : List Char) (state : ScanState) (d : Directive) : Option Directive :=
  match state with
  | .levelOrTarget first =>
    let rest := text.drop first
    match LogLevel.ofText? rest with
    | some level => some { d with level, target := none }
    | none => some { d with level := .trace, target := some (String.ofList rest) }
  | .level first =>
    let rest := text.drop first
    if rest = [] then some { d with level := .trace }
    else (LogLevel.ofText? rest).map fun level => { d with level }
  | .afterTarget => some d
  | _ => none

/-- **The directive of a text.** The machine goes through the text without the blanks at its
ends, and cuts the parts at the same places out of the text with them. -/
def ofText? (text : List Char) : Option Directive := do
  let (state, d) ← scanAll text 0 (trim text) .start {}
  finish text state d

/-! ### Writing -/

/-- The text of the span and the fields. -/
def scopeText (d : Directive) : String :=
  if d.span = none ∧ d.fields = [] then ""
  else
    let fields :=
      if d.fields = [] then ""
      else "\x7b" ++ ",".intercalate (d.fields.map LogField.text) ++ "\x7d"
    "[" ++ d.span.getD "" ++ fields ++ "]"

/-- **The text of a directive.** -/
def text (d : Directive) : String :=
  let place := d.target.getD "" ++ d.scopeText
  (if d.target = none ∧ d.scopeText = "" then "" else place ++ "=") ++ d.level.name

end Directive

end Leasehold
