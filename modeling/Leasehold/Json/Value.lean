import Leasehold.Number.Shortest
import Leasehold.Text.Escape

/-!
# JSON values and their text

A value is written in one of two layouts: without any blanks, or one member a line.

* `Leasehold.Json.Value` – the values;
* `Leasehold.Json.Value.compact` – the text without blanks;
* `Leasehold.Json.Value.pretty` – the text with one member a line, indented by two blanks.

In a string the quote, the backslash and the control characters are escaped, and nothing else.
-/

namespace Leasehold.Json

/-- **A JSON value.** The members of an object keep their order. -/
inductive Value where
  /-- The absent value. -/
  | null
  /-- A truth value. -/
  | bool (b : Bool)
  /-- An integer. -/
  | integer (n : Int)
  /-- A floating-point number. -/
  | decimal (x : Float)
  /-- A string. -/
  | text (s : String)
  /-- A list of values. -/
  | array (items : List Value)
  /-- Named values. -/
  | object (members : List (String × Value))

namespace Value

instance : Inhabited Value := ⟨null⟩

/-- A value that may be absent. -/
def ofOption {α : Type} (f : α → Value) : Option α → Value
  | none => null
  | some a => f a

/-! ### Strings -/

/-- **What is escaped in a string**: besides the quote and the backslash the control characters
below the blank. -/
def escapes : Text.Escapes where
  ten := 'a'
  mustEscape c := c.toNat < 32
  ten_cases := .inl rfl
  lt_of_mustEscape h := Nat.lt_trans (of_decide_eq_true h) (by decide)

/-- A string between quotes. -/
def quoted (s : String) : String :=
  "\"" ++ String.ofList (s.toList.flatMap escapes.write) ++ "\""

/-- A floating-point number; one that is not finite has no text and is absent. -/
def decimalText (x : Float) : String := (Shortest.render? x).getD "null"

/-! ### Without blanks -/

mutual

/-- **The text of a value** without blanks. -/
def compact : Value → String
  | null => "null"
  | bool b => if b then "true" else "false"
  | integer n => toString n
  | decimal x => decimalText x
  | text s => quoted s
  | array items => "[" ++ compactItems items ++ "]"
  | object members => "\x7b" ++ compactMembers members ++ "\x7d"

/-- The items of an array, with commas between them. -/
def compactItems : List Value → String
  | [] => ""
  | [v] => v.compact
  | v :: vs => v.compact ++ "," ++ compactItems vs

/-- The members of an object, with commas between them. -/
def compactMembers : List (String × Value) → String
  | [] => ""
  | [(k, v)] => quoted k ++ ":" ++ v.compact
  | (k, v) :: ms => quoted k ++ ":" ++ v.compact ++ "," ++ compactMembers ms

end

/-! ### One member a line -/

/-- The start of a line at some depth. -/
def indent (depth : Nat) : String := "\n" ++ String.ofList (List.replicate (2 * depth) ' ')

mutual

/-- The text of a value at some depth, one member a line. -/
def prettyAt (depth : Nat) : Value → String
  | array [] => "[]"
  | object [] => "\x7b\x7d"
  | array items => "[" ++ prettyItems (depth + 1) items ++ indent depth ++ "]"
  | object members => "\x7b" ++ prettyMembers (depth + 1) members ++ indent depth ++ "\x7d"
  | null => "null"
  | bool b => if b then "true" else "false"
  | integer n => toString n
  | decimal x => decimalText x
  | text s => quoted s

/-- The items of an array, each on its line. -/
def prettyItems (depth : Nat) : List Value → String
  | [] => ""
  | [v] => indent depth ++ v.prettyAt depth
  | v :: vs => indent depth ++ v.prettyAt depth ++ "," ++ prettyItems depth vs

/-- The members of an object, each on its line. -/
def prettyMembers (depth : Nat) : List (String × Value) → String
  | [] => ""
  | [(k, v)] => indent depth ++ quoted k ++ ": " ++ v.prettyAt depth
  | (k, v) :: ms =>
    indent depth ++ quoted k ++ ": " ++ v.prettyAt depth ++ "," ++ prettyMembers depth ms

end

/-- **The text of a value** with one member a line. -/
def pretty (v : Value) : String := v.prettyAt 0

end Value

end Leasehold.Json
