import Leasehold.Text.Digits

/-!
# Numerals

A numeral is a number as a text spells it: an optional minus sign, whole digits, an optional
fraction and an optional power of ten. It is read in one of two ways.

* `Leasehold.Json.Numeral.ofText?` – the numeral that a text spells;
* `Leasehold.Json.Numeral.integer?` – **as an integer**, when it has neither fraction nor power
  and fits 64 bits, with or without sign;
* `Leasehold.Json.Numeral.float?` – **as a floating-point number**, absent when it is too large.

A floating-point number is read from a significand of 64 bits, multiplied or divided by a power
of ten. Digits that do not fit the significand no longer count, except that each whole digit
left out multiplies by ten. The result can miss the nearest number by its last bit.
-/

namespace Leasehold.Json

open Text

/-- **A numeral**, as it is spelled. -/
structure Numeral where
  /-- Whether a minus sign comes first. -/
  negative : Bool
  /-- The digits before the point. -/
  whole : List Char
  /-- The digits after the point, if there is one. -/
  fraction : Option (List Char)
  /-- The power of ten, if there is one: whether its sign is minus, and its digits. -/
  power : Option (Bool × List Char)
deriving DecidableEq

namespace Numeral

/-! ### Spelling -/

/-- The whole digits: a zero alone, or digits that do not start with one. -/
def wholeDigits? (s : List Char) : Option (List Char × List Char) :=
  match spanDigits s with
  | ([], _) => none
  | ('0' :: _ :: _, _) => none
  | (ds, rest) => some (ds, rest)

/-- A point and at least one digit, or nothing. -/
def fraction? (s : List Char) : Option (Option (List Char) × List Char) :=
  match s with
  | '.' :: s =>
    let (ds, rest) := spanDigits s
    if ds = [] then none else some (some ds, rest)
  | s => some (none, s)

/-- The letter of a power, an optional sign and at least one digit, or nothing; nothing may
follow. -/
def power? (s : List Char) : Option (Option (Bool × List Char)) :=
  match s with
  | [] => some none
  | c :: s =>
    if c = 'e' || c = 'E' then
      let (negative, ds) :=
        match s with
        | '-' :: ds => (true, ds)
        | '+' :: ds => (false, ds)
        | ds => (false, ds)
      if ds ≠ [] ∧ ds.all isDigit then some (some (negative, ds)) else none
    else none

/-- **The numeral that a text spells.** -/
def ofText? (s : List Char) : Option Numeral := do
  let (negative, s) :=
    match s with
    | '-' :: s => (true, s)
    | s => (false, s)
  let (whole, s) ← wholeDigits? s
  let (fraction, s) ← fraction? s
  let power ← power? s
  some ⟨negative, whole, fraction, power⟩

/-! ### Reading as an integer -/

/-- **The integer of a numeral**: it has neither fraction nor power, and fits 64 bits without
sign, or with sign after a minus. A negative zero is no integer. -/
def integer? (n : Numeral) : Option Int :=
  match n.fraction, n.power with
  | none, none =>
    let value := ofDigits n.whole
    if n.negative then
      if 0 < value ∧ value ≤ 9223372036854775808 then some (-(value : Int)) else none
    else if value ≤ 18446744073709551615 then some value
    else none
  | _, _ => none

/-! ### Reading as a floating-point number -/

/-- Takes digits into a significand as long as it fits 64 bits; what is left starts with the
first digit that did not fit. -/
def takeDigits (significand : Nat) : List Char → Nat × List Char
  | [] => (significand, [])
  | d :: ds =>
    let next := significand * 10 + digitValue d
    if next ≤ 18446744073709551615 then takeDigits next ds else (significand, d :: ds)

/-- Ten to a power that a floating-point number can hold. -/
def powerOfTen (n : Nat) : Float := Float.ofScientific 1 false n

/-- Multiplies by a power of ten, unless the result is too large. -/
def scaleUp? (x : Float) (n : Nat) : Option Float :=
  if n ≤ 308 then
    let y := x * powerOfTen n
    if y.isInf then none else some y
  else if x == 0.0 then some x
  else none

/-- Divides by a power of ten, in steps that a floating-point number can hold. -/
def scaleDown (x : Float) (n : Nat) : Float :=
  if n ≤ 308 then x / powerOfTen n
  else if x == 0.0 then x
  else scaleDown (x / powerOfTen 308) (n - 308)
termination_by n
decreasing_by omega

/-- The largest power of ten that is computed with. -/
def powerLimit : Nat := 2147483647

/-- Multiplies a significand by a power of ten. -/
def scale? (significand : Nat) (power : Int) : Option Float :=
  let x := (UInt64.ofNat significand).toFloat
  if 0 ≤ power then scaleUp? x power.toNat else some (scaleDown x (-power).toNat)

/-- The size of a numeral: the whole digits that fit, the fraction digits that fit after them,
and the power. A power too large to compute with makes the number zero, or too large. -/
def size? (n : Numeral) : Option Float :=
  let (significand, omitted) := takeDigits 0 n.whole
  let (significand, places) :=
    match n.fraction with
    | none => (significand, 0)
    | some ds =>
      let (significand, left) := takeDigits significand ds
      (significand, ds.length - left.length)
  let shift : Int := (omitted.length : Int) - places
  match n.power with
  | none => scale? significand shift
  | some (negative, ds) =>
    let power := ofDigits ds
    if power ≤ powerLimit then
      scale? significand (if negative then shift - power else shift + power)
    else if significand ≠ 0 ∧ negative = false then none
    else some 0.0

/-- **The floating-point number of a numeral**, absent when it is too large. -/
def float? (n : Numeral) : Option Float :=
  match n.integer? with
  | some (.ofNat value) => some (UInt64.ofNat value).toFloat
  | some (.negSucc value) => some (-(UInt64.ofNat (value + 1)).toFloat)
  | none => n.size?.map fun x => if n.negative then -x else x

end Numeral

end Leasehold.Json
