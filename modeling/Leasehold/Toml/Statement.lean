import Leasehold.Toml.Lexeme
import Leasehold.Toml.Scalar

/-!
# The statements of a TOML text

A TOML text is a row of statements, one a line: a header opens a table, a double header adds a
table to a series, and an assignment gives a value a key in the table that is open. A machine
with a stack of open values reads the lexemes into statements.

* `Leasehold.Toml.Members.assign?` – adds a value under a dotted key to a table;
* `Leasehold.Toml.Statement` – the statements;
* `Leasehold.Toml.ReadState.step` – the machine;
* `Leasehold.Toml.Statement.ofText?` – the statements of a text.

Arrays and tables written on the spot may go over several lines and end in a comma. They nest at
most eighty deep.
-/

namespace Leasehold.Toml

/-! ### Dotted keys -/

/-- Whether a dotted key may go on through a table. -/
def Origin.isOpenToKeys : Origin → Bool
  | .implied => true
  | .dotted => true
  | .defined => false
  | .closed => false

/-- **Changes the table at the end of a path**, starting from the members of a table. Tables that
are missing on the way are made; those that are there have to admit it. In a series the path goes
on through the last table. -/
def Members.change? (made : Origin) (admits : Origin → Bool)
    (f : Origin → Members → Option (Origin × Members)) :
    List String → Origin → Members → Option (Origin × Members)
  | [], origin, ms => f origin ms
  | name :: path, origin, ms =>
    match ms.find? name with
    | none => do
      let (o, inner) ← change? made admits f path made []
      some (origin, ms ++ [(name, .table o inner)])
    | some (.table o inner) =>
      if admits o then do
        let (o, inner) ← change? made admits f path o inner
        some (origin, ms.map fun m => if m.1 = name then (name, .table o inner) else m)
      else none
    | some (.series (last :: tables)) => do
      let (_, last) ← change? made admits f path .defined last
      some (origin, ms.map fun m => if m.1 = name then (name, .series (last :: tables)) else m)
    | some _ => none

/-- Gives a value a simple key, which must be free. -/
def Members.add? (name : String) (v : Value) (ms : Members) : Option Members :=
  if (ms.find? name).isSome then none else some (ms ++ [(name, v)])

/-- **Gives a value a dotted key**: the tables on the way are those of dotted keys, and the last
one has to be. -/
def Members.assign? (key : List String) (v : Value) (ms : Members) : Option Members :=
  match key.reverse with
  | [] => none
  | name :: path =>
    (ms.change? .dotted Origin.isOpenToKeys
      (fun origin inner =>
        if path = [] ∨ origin = .dotted then (inner.add? name v).map (origin, ·) else none)
      path.reverse .closed).map (·.2)

/-! ### Statements -/

/-- **A statement** of a TOML text. -/
inductive Statement where
  /-- A header opens a table. -/
  | header (path : List String)
  /-- A double header adds a table to a series and opens it. -/
  | series (path : List String)
  /-- An assignment gives a value a key. -/
  | assign (key : List String) (v : Value)

/-- A value that is open: what of it was read. -/
inductive Frame where
  /-- The value of an assignment. -/
  | assign (key : List String)
  /-- An array with its items, the last one first. -/
  | array (items : List Value)
  /-- A table written on the spot, with the key whose value is being read. -/
  | table (ms : Members) (key : List String)

/-- What a key belongs to. -/
inductive KeyPlace where
  /-- An assignment. -/
  | assign
  /-- A header. -/
  | header
  /-- A double header. -/
  | series
  /-- A table written on the spot. -/
  | member
deriving DecidableEq

/-- **What may come next.** Keys carry the parts that were read, the last one first. -/
inductive Expected where
  /-- A statement. -/
  | line
  /-- The end of the line. -/
  | lineEnd
  /-- A second bracket, or the key of a header. -/
  | headerStart
  /-- The second bracket at the end of a double header. -/
  | seriesEnd (path : List String)
  /-- A part of a key. -/
  | part (place : KeyPlace) (read : List String)
  /-- A dot, or what ends the key. -/
  | afterPart (place : KeyPlace) (read : List String)
  /-- A value. -/
  | value
  /-- An item of an array, or its end. -/
  | item
  /-- A comma, or the end of the array. -/
  | afterItem
  /-- A member of a table, or its end. -/
  | member
  /-- A comma, or the end of the table. -/
  | afterMember
  /-- More of a bare value. -/
  | scalar (word : List Char)
  /-- The time of day after a date and a space, or what follows the date. -/
  | afterDate (word : List Char)

/-- **The state of the machine**: the statements read, the last one first, the open values, the
innermost first, and what may come next. -/
structure ReadState where
  /-- The statements read. -/
  statements : List Statement
  /-- The open values. -/
  frames : List Frame
  /-- What may come next. -/
  expected : Expected

namespace ReadState

/-- Another expectation. -/
def expecting (s : ReadState) (e : Expected) : ReadState := { s with expected := e }

/-- A value is complete: it goes into what is open. -/
def complete (s : ReadState) (v : Value) : Option ReadState :=
  match s.frames with
  | [.assign key] => some ⟨.assign key v :: s.statements, [], .lineEnd⟩
  | .array items :: frames => some ⟨s.statements, .array (v :: items) :: frames, .afterItem⟩
  | .table ms key :: frames => do
    let ms ← ms.assign? key v
    some ⟨s.statements, .table ms [] :: frames, .afterMember⟩
  | _ => none

/-- How deep arrays and tables may nest. -/
def depthLimit : Nat := 80

/-- An array or a table is opened. -/
def push (s : ReadState) (f : Frame) (e : Expected) : Option ReadState :=
  if s.frames.length ≤ depthLimit then some ⟨s.statements, f :: s.frames, e⟩ else none

/-- The innermost array or table is closed. -/
def pop (s : ReadState) : Option ReadState :=
  match s.frames with
  | .array items :: frames => complete ⟨s.statements, frames, s.expected⟩ (.array items.reverse)
  | .table ms _ :: frames => complete ⟨s.statements, frames, s.expected⟩ (.table .closed ms)
  | _ => none

/-- A lexeme where a value is due. -/
def beginValue (s : ReadState) : Lexeme → Option ReadState
  | .text content _ => s.complete (.text content)
  | .bare word => some (s.expecting (.scalar word))
  | .mark c =>
    if c = '[' then s.push (.array []) .item
    else if c = '\x7b' then s.push (.table [] []) .member
    else if c = '.' then some (s.expecting (.scalar ['.']))
    else none
  | .gap _ => some s
  | .newline => none

/-- The characters of bare keys. -/
def isKeyChar (c : Char) : Bool := c.isAlphanum || c = '_' || c = '-'

/-- A part of a key: a bare word of letters, digits, underscores and hyphens, or a string of one
line. -/
def keyPart? : Lexeme → Option String
  | .bare word => if word.all isKeyChar then some (String.ofList word) else none
  | .text content false => some content
  | _ => none

/-- A key is complete. -/
def endKey (s : ReadState) (place : KeyPlace) (read : List String) (c : Char) : Option ReadState :=
  let key := read.reverse
  match place with
  | .assign => if c = '=' then some ⟨s.statements, [.assign key], .value⟩ else none
  | .header => if c = ']' then some ⟨.header key :: s.statements, [], .lineEnd⟩ else none
  | .series => if c = ']' then some (s.expecting (.seriesEnd key)) else none
  | .member =>
    match s.frames with
    | .table ms _ :: frames =>
      if c = '=' then some ⟨s.statements, .table ms key :: frames, .value⟩ else none
    | _ => none

/-- A lexeme where a part of a key is due. -/
def readPart (s : ReadState) (place : KeyPlace) (read : List String) (l : Lexeme) :
    Option ReadState :=
  match l with
  | .gap _ => some s
  | l => (keyPart? l).map fun name => s.expecting (.afterPart place (name :: read))

/-- A lexeme that does not belong to a bare value. -/
def stepPlain (s : ReadState) (l : Lexeme) : Option ReadState :=
  match s.expected, l with
  | .line, .newline => some s
  | .line, .gap _ => some s
  | .line, .mark '[' => some (s.expecting .headerStart)
  | .line, l => readPart s .assign [] l
  | .lineEnd, .newline => some (s.expecting .line)
  | .lineEnd, .gap _ => some s
  | .lineEnd, _ => none
  | .headerStart, .mark '[' => some (s.expecting (.part .series []))
  | .headerStart, .gap _ => some (s.expecting (.part .header []))
  | .headerStart, l => readPart s .header [] l
  | .seriesEnd path, .mark ']' => some ⟨.series path :: s.statements, [], .lineEnd⟩
  | .seriesEnd _, _ => none
  | .part place read, l => readPart s place read l
  | .afterPart _ _, .gap _ => some s
  | .afterPart place read, .mark '.' => some (s.expecting (.part place read))
  | .afterPart place read, .mark c => s.endKey place read c
  | .afterPart _ _, _ => none
  | .value, l => s.beginValue l
  | .item, .newline => some s
  | .item, .mark ']' => s.pop
  | .item, l => s.beginValue l
  | .afterItem, .newline => some s
  | .afterItem, .gap _ => some s
  | .afterItem, .mark ',' => some (s.expecting .item)
  | .afterItem, .mark ']' => s.pop
  | .afterItem, _ => none
  | .member, .newline => some s
  | .member, .gap _ => some s
  | .member, .mark '\x7d' => s.pop
  | .member, l => readPart s .member [] l
  | .afterMember, .newline => some s
  | .afterMember, .gap _ => some s
  | .afterMember, .mark ',' => some (s.expecting .member)
  | .afterMember, .mark '\x7d' => s.pop
  | .afterMember, _ => none
  | .scalar _, _ => none
  | .afterDate _, _ => none

/-- A bare value is complete. -/
def endScalar (s : ReadState) (word : List Char) : Option ReadState := do
  let v ← scalar? word
  s.complete v

/-- **One step of the machine.** Bare words and dots that touch are one bare value, and so are a
date, a single space and a time of day. -/
def step (s : ReadState) (l : Lexeme) : Option ReadState :=
  match s.expected with
  | .scalar word =>
    match l with
    | .bare more => some (s.expecting (.scalar (word ++ more)))
    | .mark '.' => some (s.expecting (.scalar (word ++ ['.'])))
    | .gap true =>
      if hasDateShape word then some (s.expecting (.afterDate word))
      else do
        let s ← s.endScalar word
        s.stepPlain l
    | l => do
      let s ← s.endScalar word
      s.stepPlain l
  | .afterDate word =>
    match l with
    | .bare more => some (s.expecting (.scalar (word ++ ' ' :: more)))
    | l => do
      let s ← s.endScalar word
      s.stepPlain l
  | _ => s.stepPlain l

/-- The statements at the end of the text. -/
def finish (s : ReadState) : Option (List Statement) := do
  let s ←
    match s.expected with
    | .scalar word => s.endScalar word
    | .afterDate word => s.endScalar word
    | _ => some s
  match s.expected with
  | .line => some s.statements.reverse
  | .lineEnd => some s.statements.reverse
  | _ => none

end ReadState

/-- **The statements of a text**, absent when the text is no TOML. -/
def Statement.ofText? (s : String) : Option (List Statement) := do
  let ls ← Lexeme.ofText? s
  let state ← ls.foldlM ReadState.step ⟨[], [], .line⟩
  state.finish

end Leasehold.Toml
