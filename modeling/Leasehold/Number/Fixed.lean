import Leasehold.Number.Shortest

/-!
# Floating-point numbers with fixed places

A number is rounded to some places after the point, exactly: half a unit goes to the even
neighbour.

* `Leasehold.Fixed.roundDiv` – a quotient rounded to a whole number;
* `Leasehold.Fixed.render` – the text of a number.
-/

namespace Leasehold.Fixed

open Shortest (Binary)

/-- **A quotient rounded to a whole number**; half a unit goes to the even neighbour. -/
def roundDiv (n d : Nat) : Nat :=
  let lower := n / d
  if 2 * (n % d) < d || (2 * (n % d) = d && lower % 2 = 0) then lower else lower + 1

/-- How many units of the last place a number has. -/
def units (places : Nat) (b : Binary) : Nat :=
  roundDiv (b.significand * Nat.pow 2 b.exponent.toNat * Nat.pow 10 places)
    (Nat.pow 2 (-b.exponent).toNat)

/-- Units of the last place as a number with a point. -/
def withPoint (places n : Nat) : String :=
  if places = 0 then toString n
  else
    let unit := Nat.pow 10 places
    toString (n / unit) ++ "." ++ Text.padLeft places (n % unit)

/-- **The text of a number** with some places after the point. -/
def render (places : Nat) (x : Float) : String :=
  let bits := x.toBits
  let sign := if bits >>> 63 = 1 then "-" else ""
  let size := bits &&& 0x7FFFFFFFFFFFFFFF
  if 0x7FF0000000000000 < size then "NaN"
  else if size = 0x7FF0000000000000 then sign ++ "inf"
  else sign ++ withPoint places (units places (.ofBits size))

end Leasehold.Fixed
