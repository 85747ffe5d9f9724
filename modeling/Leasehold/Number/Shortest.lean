import Leasehold.Text.Digits

/-!
# The shortest text of a floating-point number

A finite number is `m · 2 ^ q`, and every real between the midpoints to its two neighbours rounds
to it; the midpoints themselves do when `m` is even. Its shortest text has the fewest digits
among the decimals in that interval, and of those it is the nearest to the number.

* `Leasehold.Shortest.Binary` – a positive number as `m · 2 ^ q`, read off the bits;
* `Leasehold.Shortest.Decimal` – a decimal `digits · 10 ^ exponent`;
* `Leasehold.Shortest.decimal` – the shortest decimal in the interval of a number;
* `Leasehold.Shortest.render` – its text: positional between a hundred-thousandth and ten
  quadrillion, always with a point, and with an exponent beyond.

The search goes through the grids of multiples of a power of ten from coarse to fine. On each
grid only the two neighbours of the number need to be tried: when any multiple lies in the
interval, one of these two does.
-/

namespace Leasehold.Shortest

/-! ### Numbers as significand and exponent -/

/-- **A positive binary number** `significand · 2 ^ exponent`. -/
structure Binary where
  /-- The significand, below `2 ^ 53`. -/
  significand : Nat
  /-- The power of two it is multiplied by. -/
  exponent : Int
  /-- Whether the number is the least of its power of two, so that its lower neighbour is nearer
  than its upper one. -/
  isLeast : Bool
deriving DecidableEq

/-- The size of a finite floating-point number, by its bits. -/
def Binary.ofBits (bits : UInt64) : Binary :=
  let fraction := (bits &&& 0xFFFFFFFFFFFFF).toNat
  let power := ((bits >>> 52) &&& 0x7FF).toNat
  if power = 0 then ⟨fraction, -1074, false⟩
  else ⟨fraction + 4503599627370496, (power : Int) - 1075, fraction = 0 && 1 < power⟩

/-- **A decimal** `digits · 10 ^ exponent`. -/
structure Decimal where
  /-- The digits, read as one number. -/
  digits : Nat
  /-- The power of ten they are multiplied by. -/
  exponent : Int
deriving DecidableEq

/-! ### The search -/

/-- The number and the ends of its interval, in units of `4 · 2 ^ exponent` parts, with the
number of units in one. -/
structure Scaled where
  /-- The number. -/
  value : Nat
  /-- The distance to the upper end of the interval. -/
  above : Nat
  /-- The distance to the lower end of the interval. -/
  below : Nat
  /-- How many units make one. -/
  unit : Nat
  /-- Whether the ends belong to the interval. -/
  closed : Bool

/-- The interval of a number, in whole units. -/
def Binary.scaled (b : Binary) : Scaled :=
  let step := Nat.pow 2 b.exponent.toNat
  { value := 4 * b.significand * step
    above := 2 * step
    below := if b.isLeast then step else 2 * step
    unit := 4 * Nat.pow 2 (-b.exponent).toNat
    closed := b.significand % 2 = 0 }

/-- Whether a multiple of a power of ten lies in the interval, all sides multiplied so that they
are whole. -/
def Scaled.holds (s : Scaled) (exponent : Int) (digits : Nat) : Bool :=
  let multiple := digits * s.unit * Nat.pow 10 exponent.toNat
  let scale := Nat.pow 10 (-exponent).toNat
  let low := (s.value - s.below) * scale
  let high := (s.value + s.above) * scale
  if s.closed then low ≤ multiple && multiple ≤ high else low < multiple && multiple < high

/-- The better of the two neighbours of the number on the grid of a power of ten, when one of
them lies in the interval: the nearer one, and of two equally near the even one. -/
def Scaled.onGrid? (s : Scaled) (exponent : Int) : Option Decimal :=
  let whole := s.value * Nat.pow 10 (-exponent).toNat
  let grid := s.unit * Nat.pow 10 exponent.toNat
  let lower := whole / grid
  let rest := whole % grid
  let nearer :=
    if 2 * rest < grid then lower
    else if 2 * rest = grid then (if lower % 2 = 0 then lower else lower + 1)
    else lower + 1
  let farther := if nearer = lower then lower + 1 else lower
  if 0 < nearer && s.holds exponent nearer then some ⟨nearer, exponent⟩
  else if 0 < farther && s.holds exponent farther then some ⟨farther, exponent⟩
  else none

/-- **The shortest decimal** that rounds to a positive number. -/
def decimal (b : Binary) : Decimal :=
  let bits := (b.significand.log2 : Int) + 1 + b.exponent
  let coarsest := bits * 30103 / 100000 + 2
  ((List.range 24).findSome? fun (n : Nat) => b.scaled.onGrid? (coarsest - n)).getD ⟨0, 0⟩

/-! ### The text -/

/-- A row of zeros. -/
def zeros (n : Nat) : String := String.ofList (List.replicate n '0')

/-- The text of a positive decimal. -/
def Decimal.render (d : Decimal) : String :=
  let ds := (toString d.digits).toList
  let point : Int := ds.length + d.exponent
  if 0 < point ∧ point ≤ 16 then
    if 0 ≤ d.exponent then String.ofList ds ++ zeros d.exponent.toNat ++ ".0"
    else String.ofList (ds.take point.toNat) ++ "." ++ String.ofList (ds.drop point.toNat)
  else if -5 < point ∧ point ≤ 0 then "0." ++ zeros (-point).toNat ++ String.ofList ds
  else
    let mantissa :=
      match ds with
      | [] => "0"
      | [c] => String.ofList [c]
      | c :: cs => String.ofList (c :: '.' :: cs)
    let power := point - 1
    mantissa ++ "e" ++ (if power < 0 then "-" else "+") ++ toString power.natAbs

/-- **The text of a floating-point number**, absent when it is not finite. -/
def render? (x : Float) : Option String :=
  let bits := x.toBits
  let sign := if bits >>> 63 = 1 then "-" else ""
  let size := bits &&& 0x7FFFFFFFFFFFFFFF
  if 0x7FF0000000000000 ≤ size then none
  else if size = 0 then some (sign ++ "0.0")
  else some (sign ++ (decimal (.ofBits size)).render)

end Leasehold.Shortest
