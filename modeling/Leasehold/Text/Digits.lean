/-!
# Digits

Whole numbers written in decimal digits, and the digits of base sixteen.

* `Leasehold.Text.ofDigits` – the value of a row of digits;
* `Leasehold.Text.spanDigits` – the digits at the start of a text, and what follows them;
* `Leasehold.Text.natural?`, `Leasehold.Text.integer?` – a text that is one number and nothing
  else, with an optional sign;
* `Leasehold.Text.padLeft` – a number filled up with zeros;
* `Leasehold.Text.hexValue?`, `Leasehold.Text.hexDigit` – the digits of base sixteen.
-/

namespace Leasehold.Text

/-- The ten decimal digits. -/
def isDigit (c : Char) : Bool := '0' ≤ c && c ≤ '9'

/-- The value of one digit. -/
def digitValue (c : Char) : Nat := c.toNat - '0'.toNat

/-- **The value of a row of digits.** -/
def ofDigits (ds : List Char) : Nat := ds.foldl (fun n d => 10 * n + digitValue d) 0

/-- The digits at the start of a text, and what follows them. -/
def spanDigits (s : List Char) : List Char × List Char := (s.takeWhile isDigit, s.dropWhile isDigit)

/-- A row of at least one digit, and nothing else. -/
def digits? (s : List Char) : Option Nat :=
  if s ≠ [] ∧ s.all isDigit then some (ofDigits s) else none

/-- A natural number that is a whole text; a plus sign may come first. -/
def natural? (s : List Char) : Option Nat :=
  match s with
  | '+' :: ds => digits? ds
  | ds => digits? ds

/-- An integer that is a whole text; a sign may come first. -/
def integer? (s : List Char) : Option Int :=
  match s with
  | '-' :: ds => (digits? ds).map fun n => -(n : Int)
  | ds => (natural? ds).map Int.ofNat

/-- A natural number of at most a given bound. -/
def naturalUpTo? (bound : Nat) (s : List Char) : Option Nat :=
  (natural? s).filter (· ≤ bound)

/-- An integer of 64 bits with sign. -/
def integer64? (s : List Char) : Option Int :=
  (integer? s).filter fun n => -9223372036854775808 ≤ n && n ≤ 9223372036854775807

/-- A number with zeros in front, so that it has at least `width` digits. -/
def padLeft (width n : Nat) : String :=
  let ds := toString n
  String.ofList (List.replicate (width - ds.length) '0') ++ ds

/-- A text filled up with blanks at its end, so that it has at least `width` characters. -/
def padRight (width : Nat) (s : String) : String :=
  s ++ String.ofList (List.replicate (width - s.length) ' ')

theorem spanDigits_append (s : List Char) : (spanDigits s).1 ++ (spanDigits s).2 = s :=
  List.takeWhile_append_dropWhile

theorem isDigit_of_mem_spanDigits {s : List Char} {c : Char} (h : c ∈ (spanDigits s).1) :
    isDigit c = true := by
  unfold spanDigits at h
  exact (List.all_eq_true.1 (List.all_takeWhile (p := isDigit))) c h

/-! ### Base sixteen -/

/-- The value of a hexadecimal digit. -/
def hexValue? (c : Char) : Option Nat :=
  if '0' ≤ c ∧ c ≤ '9' then some (c.toNat - 48)
  else if 'a' ≤ c ∧ c ≤ 'f' then some (c.toNat - 87)
  else if 'A' ≤ c ∧ c ≤ 'F' then some (c.toNat - 55)
  else none

/-- A hexadecimal digit; `ten` is the letter that stands for ten, in either case. -/
def hexDigit (ten : Char) (n : Nat) : Char :=
  if n < 10 then Char.ofNat (48 + n) else Char.ofNat (ten.toNat + (n - 10))

theorem hexValue?_hexDigit {ten : Char} (hten : ten = 'a' ∨ ten = 'A') {n : Nat} (hn : n < 16) :
    hexValue? (hexDigit ten n) = some n := by
  have hall : ∀ n < 16,
      hexValue? (hexDigit 'a' n) = some n ∧ hexValue? (hexDigit 'A' n) = some n := by
    decide
  rcases hten with rfl | rfl
  · exact (hall n hn).1
  · exact (hall n hn).2

end Leasehold.Text
