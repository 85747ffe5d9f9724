/-!
# TOML values

The values that a TOML text can give a name. A table remembers how it came to be, because that
decides whether a later line may add to it.

* `Leasehold.Toml.Origin` – how a table came to be;
* `Leasehold.Toml.Value` – the values.
-/

namespace Leasehold.Toml

/-- **How a table came to be.** -/
inductive Origin where
  /-- It has a header of its own, or is the table of the whole text. -/
  | defined
  /-- It stands on the way to a table with a header. -/
  | implied
  /-- It stands on the way to a value with a dotted key. -/
  | dotted
  /-- It was written on the spot, in braces. -/
  | closed
deriving DecidableEq

/-- **A TOML value.** -/
inductive Value where
  /-- A string. -/
  | text (s : String)
  /-- An integer. -/
  | integer (n : Int)
  /-- A floating-point number. Its size does not matter here. -/
  | decimal
  /-- A truth value. -/
  | bool (b : Bool)
  /-- A date, a time of day or both. -/
  | time
  /-- A list of values in brackets. -/
  | array (items : List Value)
  /-- A list of tables that each have a header, the last one first. -/
  | series (tables : List (List (String × Value)))
  /-- A table with its members, in the order of the text. -/
  | table (origin : Origin) (members : List (String × Value))

instance : Inhabited Value := ⟨.time⟩

/-- The members of a table. -/
abbrev Members := List (String × Value)

/-- The member of a name. -/
def Members.find? (name : String) (ms : Members) : Option Value :=
  (List.find? (fun m => m.1 = name) ms).map (·.2)

end Leasehold.Toml
