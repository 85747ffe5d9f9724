import Leasehold.Text.Digits
import Leasehold.Time.Calendar
import Leasehold.Toml.Value

/-!
# Bare values

A value that is neither a string nor made of parts is a bare word: a truth value, an integer, a
floating-point number, a date or a time of day.

* `Leasehold.Toml.scalar?` – the value of a bare word;
* `Leasehold.Toml.integer?` – the integers, in base ten, sixteen, eight or two, with single
  underscores between their digits;
* `Leasehold.Toml.isDecimal` – the floating-point numbers;
* `Leasehold.Toml.isTime` – dates, times of day, and both together.

An integer has to fit 128 bits, with or without sign, and a floating-point number must not be too
large.
-/

namespace Leasehold.Toml

open Text

/-! ### Digits with underscores -/

/-- Digits with single underscores between them; the underscores are left out. The first
argument says whether an underscore may come next. -/
def grouped? (isDigitHere : Char → Bool) : Bool → List Char → Option (List Char)
  | afterDigit, [] => if afterDigit then some [] else none
  | afterDigit, c :: cs =>
    if isDigitHere c then (grouped? isDigitHere true cs).map (c :: ·)
    else if c = '_' ∧ afterDigit then grouped? isDigitHere false cs
    else none

/-- The value of a digit in bases up to sixteen. -/
def baseDigit? (c : Char) : Option Nat :=
  if '0' ≤ c ∧ c ≤ '9' then some (c.toNat - 48)
  else if 'a' ≤ c ∧ c ≤ 'f' then some (c.toNat - 87)
  else if 'A' ≤ c ∧ c ≤ 'F' then some (c.toNat - 55)
  else none

/-- A digit of a base. -/
def isBaseDigit (base : Nat) (c : Char) : Bool := (baseDigit? c).any (· < base)

/-- The value of digits in a base. -/
def ofBaseDigits (base : Nat) (ds : List Char) : Nat :=
  ds.foldl (fun n d => n * base + (baseDigit? d).getD 0) 0

/-- A natural number in a base. -/
def baseNatural? (base : Nat) (s : List Char) : Option Nat :=
  (grouped? (isBaseDigit base) false s).map (ofBaseDigits base)

/-- The digits of a natural number in base ten: a zero alone, or no zero first. -/
def decimalDigits? (s : List Char) : Option (List Char) :=
  match grouped? isDigit false s with
  | some ('0' :: _ :: _) => none
  | other => other

/-! ### Numbers -/

/-- A sign and what follows it. -/
def splitSign (s : List Char) : Bool × List Char :=
  match s with
  | '-' :: cs => (true, cs)
  | '+' :: cs => (false, cs)
  | cs => (false, cs)

/-- **An integer.** -/
def integer? (s : List Char) : Option Int :=
  match s with
  | '0' :: 'x' :: cs => (baseNatural? 16 cs).map Int.ofNat
  | '0' :: 'o' :: cs => (baseNatural? 8 cs).map Int.ofNat
  | '0' :: 'b' :: cs => (baseNatural? 2 cs).map Int.ofNat
  | s =>
    let (negative, cs) := splitSign s
    (decimalDigits? cs).map fun ds =>
      if negative then -(ofDigits ds : Int) else (ofDigits ds : Int)

/-- Whether an integer fits 128 bits, with or without sign. -/
def fitsInteger (n : Int) : Bool :=
  -170141183460469231731687303715884105728 ≤ n && n < 340282366920938463463374607431768211456

/-- Whether `digits · 10 ^ power` rounds to a floating-point number that is not too large. -/
def isRepresentable (digits : List Char) (power : Int) : Bool :=
  let size := (digits.dropWhile (· = '0')).length
  if size = 0 then true
  else if (size : Int) + power < 300 then true
  else if 320 < (size : Int) + power then false
  else
    -- The least decimal that rounds to infinity is `2 ^ 1024 - 2 ^ 970`.
    ofDigits digits * Nat.pow 10 power.toNat <
      (Nat.pow 2 1024 - Nat.pow 2 970) * Nat.pow 10 (-power).toNat

/-- The power of a floating-point number. -/
def power? (s : List Char) : Option Int :=
  let (negative, cs) := splitSign s
  (grouped? isDigit false cs).map fun ds =>
    if negative then -(ofDigits ds : Int) else (ofDigits ds : Int)

/-- Whether a word without sign is a floating-point number with a point, a power or both. -/
def isPlainDecimal (s : List Char) : Bool :=
  let isPowerMark := fun c => c = 'e' || c = 'E'
  let size := s.takeWhile fun c => !isPowerMark c
  let power : Option Int :=
    match s.dropWhile fun c => !isPowerMark c with
    | [] => some 0
    | _ :: cs => power? cs
  let hasPower := s.any isPowerMark
  match decimalDigits? (size.takeWhile (· ≠ '.')), size.dropWhile (· ≠ '.'), power with
  | some whole, [], some p => hasPower && isRepresentable whole p
  | some whole, _ :: fraction, some p =>
    match grouped? isDigit false fraction with
    | some ds => isRepresentable (whole ++ ds) (p - ds.length)
    | none => false
  | _, _, _ => false

/-- **Whether a word is a floating-point number.** -/
def isDecimal (s : List Char) : Bool :=
  let (_, cs) := splitSign s
  cs = ['i', 'n', 'f'] || cs = ['n', 'a', 'n'] || isPlainDecimal cs

/-! ### Dates and times of day -/

/-- A number of exactly `width` digits, and what follows it. -/
def fixed? (width : Nat) (s : List Char) : Option (Nat × List Char) :=
  let ds := s.take width
  if ds.length = width ∧ ds.all isDigit then some (ofDigits ds, s.drop width) else none

/-- A mark, and what follows it. -/
def after? (mark : Char) (s : List Char) : Option (List Char) :=
  match s with
  | c :: cs => if c = mark then some cs else none
  | [] => none

/-- What follows a date. -/
def afterDate? (s : List Char) : Option (List Char) := do
  let (year, s) ← fixed? 4 s
  let s ← after? '-' s
  let (month, s) ← fixed? 2 s
  let s ← after? '-' s
  let (day, s) ← fixed? 2 s
  if Date.IsValid ⟨year, month, day⟩ then some s else none

/-- What follows the seconds of a time of day, if there are any, and their fraction. -/
def afterSeconds? (s : List Char) : Option (List Char) :=
  match s with
  | ':' :: s => do
    let (second, s) ← fixed? 2 s
    if 60 < second then none
    else
      match s with
      | '.' :: s =>
        let (ds, rest) := spanDigits s
        if ds = [] then none else some rest
      | s => some s
  | s => some s

/-- What follows a time of day. -/
def afterTime? (s : List Char) : Option (List Char) := do
  let (hour, s) ← fixed? 2 s
  let s ← after? ':' s
  let (minute, s) ← fixed? 2 s
  if hour ≤ 23 ∧ minute ≤ 59 then afterSeconds? s else none

/-- Whether a text is the offset of a zone, or empty. -/
def isOffset (s : List Char) : Bool :=
  match s with
  | [] => true
  | ['Z'] => true
  | ['z'] => true
  | c :: s =>
    (c = '+' || c = '-') &&
      match fixed? 2 s with
      | some (hour, ':' :: s) =>
        match fixed? 2 s with
        | some (minute, []) => hour ≤ 23 && minute ≤ 59
        | _ => false
      | _ => false

/-- **Whether a word is a date, a time of day, or both.** -/
def isTime (s : List Char) : Bool :=
  match afterDate? s with
  | some [] => true
  | some (c :: s) =>
    (c = 'T' || c = 't' || c = ' ') && (afterTime? s).any isOffset
  | none => afterTime? s = some []

/-- Whether a word has the shape of a date, so that a time of day may follow after a space. -/
def hasDateShape (s : List Char) : Bool :=
  match s with
  | [a, b, c, d, '-', e, f, '-', g, h] => [a, b, c, d, e, f, g, h].all isDigit
  | _ => false

/-! ### All together -/

/-- **The value of a bare word.** -/
def scalar? (s : List Char) : Option Value :=
  if s = ['t', 'r', 'u', 'e'] then some (.bool true)
  else if s = ['f', 'a', 'l', 's', 'e'] then some (.bool false)
  else
    match integer? s with
    | some n => if fitsInteger n then some (.integer n) else none
    | none => if isDecimal s then some .decimal else if isTime s then some .time else none

end Leasehold.Toml
