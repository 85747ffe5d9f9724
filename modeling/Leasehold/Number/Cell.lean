/-!
# Cells of integer columns

A column of integers holds 64 bits with sign. A sum that leaves that range is made again in
floating point, and a cell keeps it as it is; a cell turns a number in floating point back into an
integer when it is one and lies in the range. Only an integer can be read as one.

* `Leasehold.Cell` – what a cell holds;
* `Leasehold.Cell.ofReal` – what a cell keeps of a number in floating point;
* `Leasehold.Cell.sum` – the sum of two cells, as it is stored;
* `Leasehold.Cell.integer?` – reading an integer.

Two integers are stored as their exact sum when it is in range, and as something that is no
integer otherwise (`Leasehold.Cell.sum_eq_integer_iff`).
-/

namespace Leasehold

/-- **What a cell of an integer column holds.** -/
inductive Cell where
  /-- An integer. -/
  | integer (n : Int)
  /-- A number in floating point, left behind by a sum out of range. -/
  | real (x : Float)

namespace Cell

instance : Inhabited Cell := ⟨integer 0⟩

/-- The least integer of 64 bits with sign. -/
def least : Int := -9223372036854775808

/-- The greatest integer of 64 bits with sign. -/
def greatest : Int := 9223372036854775807

/-- Whether an integer has 64 bits with sign. -/
def InRange (n : Int) : Prop := least ≤ n ∧ n ≤ greatest

instance (n : Int) : Decidable (InRange n) := inferInstanceAs (Decidable (_ ∧ _))

/-- The value of a cell in floating point. -/
def toReal : Cell → Float
  | integer n => (Int64.ofInt n).toFloat
  | real x => x

/-- **What a cell keeps of a number in floating point**: an integer when it is one, strictly
between the least and the greatest. -/
def ofReal (x : Float) : Cell :=
  let n := x.toInt64
  if n.toFloat == x && least < n.toInt && n.toInt < greatest then integer n.toInt else real x

/-- **The sum of two cells**, as it is stored: exact when both hold integers and it is in range,
and in floating point otherwise. -/
def sum (a b : Cell) : Cell :=
  match a, b with
  | integer m, integer n =>
    -- A sum out of range is rounded to a number out of range, so it stays what it is.
    if InRange (m + n) then integer (m + n) else real (a.toReal + b.toReal)
  | _, _ => ofReal (a.toReal + b.toReal)

/-- The integer in a cell. -/
def integer? : Cell → Option Int
  | integer n => some n
  | real _ => none

theorem integer?_sum (m n : Int) :
    ((integer m).sum (integer n)).integer? = if InRange (m + n) then some (m + n) else none := by
  rw [sum]
  split <;> rfl

theorem sum_eq_integer_iff {m n r : Int} :
    (integer m).sum (integer n) = integer r ↔ InRange (m + n) ∧ r = m + n := by
  by_cases h : InRange (m + n)
  · rw [sum, if_pos h, integer.injEq]
    exact ⟨fun hr => ⟨h, hr.symm⟩, fun hr => hr.2.symm⟩
  · rw [sum, if_neg h]
    constructor
    · intro hr
      cases hr
    · intro hr
      exact absurd hr.1 h

end Cell

end Leasehold
