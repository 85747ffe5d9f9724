import Leasehold.Json.Lexeme
import Leasehold.Json.Value
import Leasehold.Number.Count

/-!
# Reading JSON

A JSON text is read into a tree that keeps its numerals as they are spelled. What a numeral or a
string means is decided only where somebody looks at it, so that a part nobody reads may hold a
number too large or half of a surrogate pair.

* `Leasehold.Json.Tree` – the tree of a text;
* `Leasehold.Json.Tree.ofText?` – reading, by a machine with a stack of open arrays and objects;
* `Leasehold.Json.Tree.fields?` – the fields of a record, by name or by place;
* `Leasehold.Json.Tree.value?` – the value of a tree that is understood as a whole. Such a tree
  is nested less than 128 deep.
-/

namespace Leasehold.Json

/-- **The tree of a JSON text.** -/
inductive Tree where
  /-- The absent value. -/
  | null
  /-- A truth value. -/
  | bool (b : Bool)
  /-- A numeral. -/
  | numeral (n : Numeral)
  /-- A string; absent when it spells half of a surrogate pair. -/
  | text (content : Option String)
  /-- A list of values. -/
  | array (items : List Tree)
  /-- Named values, in the order of the text. -/
  | object (members : List (Option String × Tree))

/-! ### The machine -/

/-- An array or an object that is open: what of it was read, the last one first. -/
inductive Frame where
  /-- An array with its items. -/
  | array (items : List Tree)
  /-- An object with its members, and the name of the member whose value is being read. -/
  | object (members : List (Option String × Tree)) (name : Option String)

/-- What may come next. -/
inductive Expected where
  /-- A value. -/
  | value
  /-- The first item of an array, or its end. -/
  | firstItem
  /-- The first name of an object, or its end. -/
  | firstName
  /-- A name. -/
  | name
  /-- The colon after a name. -/
  | colon
  /-- A comma or the end of what is open. -/
  | more
  /-- Nothing: the value is complete. -/
  | done (t : Tree)

/-- **The state of the machine**: what is open, the innermost first, and what may come next. -/
structure ReadState where
  /-- The open arrays and objects. -/
  frames : List Frame
  /-- What may come next. -/
  expected : Expected

namespace ReadState

/-- A value is complete: it becomes an item or a member of what is open. -/
def complete (t : Tree) : List Frame → ReadState
  | [] => ⟨[], .done t⟩
  | .array items :: frames => ⟨.array (t :: items) :: frames, .more⟩
  | .object members name :: frames => ⟨.object ((name, t) :: members) none :: frames, .more⟩

/-- What is open is closed by a mark. -/
def close (c : Char) : List Frame → Option ReadState
  | .array items :: frames =>
    if c = ']' then some (complete (.array items.reverse) frames) else none
  | .object members _ :: frames =>
    if c = '\x7d' then some (complete (.object members.reverse) frames) else none
  | [] => none

/-- A lexeme where a value is due. -/
def value (frames : List Frame) : Lexeme → Option ReadState
  | .mark '[' => some ⟨.array [] :: frames, .firstItem⟩
  | .mark '\x7b' => some ⟨.object [] none :: frames, .firstName⟩
  | .mark _ => none
  | .word ['n', 'u', 'l', 'l'] => some (complete .null frames)
  | .word ['t', 'r', 'u', 'e'] => some (complete (.bool true) frames)
  | .word ['f', 'a', 'l', 's', 'e'] => some (complete (.bool false) frames)
  | .word _ => none
  | .numeral n => some (complete (.numeral n) frames)
  | .text content => some (complete (.text content) frames)

/-- A lexeme where a name is due. -/
def name : List Frame → Lexeme → Option ReadState
  | .object members _ :: frames, .text content => some ⟨.object members content :: frames, .colon⟩
  | _, _ => none

/-- A comma or the end of what is open. -/
def more : List Frame → Lexeme → Option ReadState
  | .array items :: frames, .mark ',' => some ⟨.array items :: frames, .value⟩
  | .object members n :: frames, .mark ',' => some ⟨.object members n :: frames, .name⟩
  | frames, .mark c => close c frames
  | _, _ => none

/-- **One step of the machine.** -/
def step (s : ReadState) (l : Lexeme) : Option ReadState :=
  match s.expected with
  | .value => value s.frames l
  | .firstItem => if l = .mark ']' then close ']' s.frames else value s.frames l
  | .firstName => if l = .mark '\x7d' then close '\x7d' s.frames else name s.frames l
  | .name => name s.frames l
  | .colon => if l = .mark ':' then some ⟨s.frames, .value⟩ else none
  | .more => more s.frames l
  | .done _ => none

end ReadState

namespace Tree

/-- **The tree of a text**, absent when the text is no JSON. -/
def ofText? (s : String) : Option Tree := do
  let ls ← Lexeme.ofText? s
  let state ← ls.foldlM ReadState.step ⟨[], .value⟩
  match state.expected with
  | .done t => some t
  | _ => none

/-! ### Looking at parts -/

/-- A string. -/
def text? : Tree → Option String
  | text content => content
  | _ => none

/-- An integer within bounds. -/
def integer? (low high : Int) : Tree → Option Int
  | numeral n => n.integer?.filter fun i => low ≤ i && i ≤ high
  | _ => none

/-- An integer of 64 bits with sign. -/
def integer64? : Tree → Option Int := integer? (-9223372036854775808) 9223372036854775807

/-- A count. -/
def count? (t : Tree) : Option Count := (t.integer? 0 4294967295).bind Count.ofInt?

/-- A floating-point number. -/
def float? : Tree → Option Float
  | numeral n => n.float?
  | _ => none

/-- A list whose items can all be read. -/
def list? {α : Type} (f : Tree → Option α) : Tree → Option (List α)
  | array items => items.mapM f
  | _ => none

/-- A value that may be absent. -/
def option? {α : Type} (f : Tree → Option α) : Tree → Option (Option α)
  | null => some none
  | t => (f t).map some

/-- **The fields of a record**, in the order of their names: a field is the member of that name,
if there is one. Other members do not count, but a field twice, or a name that is no string,
makes it no record. A list of exactly as many items is a record by place. -/
def fields? (names : List String) : Tree → Option (List (Option Tree))
  | array items => if items.length = names.length then some (items.map some) else none
  | object members =>
    if members.all (fun m => m.1.isSome) &&
        names.all (fun n => (members.filter fun m => m.1 = some n).length ≤ 1) then
      some (names.map fun n => (members.find? fun m => m.1 = some n).map (·.2))
    else none
  | _ => none

/-! ### Understanding the whole -/

mutual

/-- How deep arrays and objects are nested. -/
def depth : Tree → Nat
  | array items => depthOfItems items + 1
  | object members => depthOfMembers members + 1
  | _ => 0

/-- The depth of the deepest item. -/
def depthOfItems : List Tree → Nat
  | [] => 0
  | t :: ts => max t.depth (depthOfItems ts)

/-- The depth of the deepest member. -/
def depthOfMembers : List (Option String × Tree) → Nat
  | [] => 0
  | (_, t) :: ms => max t.depth (depthOfMembers ms)

end

/-- Puts a member into an object sorted by name; a later member replaces an earlier one. -/
def insertMember (name : String) (v : Value) : List (String × Value) → List (String × Value)
  | [] => [(name, v)]
  | (n, w) :: ms =>
    if name = n then (n, v) :: ms
    else if name < n then (name, v) :: (n, w) :: ms
    else (n, w) :: insertMember name v ms

mutual

/-- The value of a tree of any depth. -/
def deepValue? : Tree → Option Value
  | null => some .null
  | bool b => some (.bool b)
  | numeral n =>
    match n.integer? with
    | some i => some (.integer i)
    | none => n.float?.map .decimal
  | text content => content.map .text
  | array items => (itemValues? items).map .array
  | object members => (memberValues? [] members).map .object

/-- The values of items. -/
def itemValues? : List Tree → Option (List Value)
  | [] => some []
  | t :: ts => do
    let v ← t.deepValue?
    let vs ← itemValues? ts
    some (v :: vs)

/-- The values of members, sorted by name. -/
def memberValues? (sorted : List (String × Value)) :
    List (Option String × Tree) → Option (List (String × Value))
  | [] => some sorted
  | (name, t) :: ms => do
    let name ← name
    let v ← t.deepValue?
    memberValues? (insertMember name v sorted) ms

end

/-- **The value of a tree**, absent when it is nested 128 deep or more, holds a number too large
or spells half of a surrogate pair. -/
def value? (t : Tree) : Option Value := if t.depth < 128 then t.deepValue? else none

end Tree

end Leasehold.Json
