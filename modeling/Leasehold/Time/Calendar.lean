/-!
# The civil calendar

The calendar names every day by a year, a month and a day of the month, extending the present
rules of leap years to all years, the year 0 and those before it included. Days are counted from
the first of January 1970.

* `Leasehold.Date.toDay` – the number of a date's day;
* `Leasehold.Date.ofDay` – the date of a day.

Both cut the line of days into **eras** of four hundred years, after which the calendar repeats,
and let the year begin in March, so that the leap day is the last of its year.
-/

namespace Leasehold

/-- **A date** of the civil calendar. -/
structure Date where
  /-- The year, with 0 before 1 and negative years before that. -/
  year : Int
  /-- The month, 1 to 12. -/
  month : Nat
  /-- The day of the month, from 1. -/
  day : Nat
deriving DecidableEq

namespace Date

/-- Years divisible by four are leap years, centuries only when divisible by four hundred. -/
def isLeapYear (year : Int) : Bool :=
  year % 4 = 0 ∧ (year % 100 ≠ 0 ∨ year % 400 = 0)

/-- How many days a month has. -/
def daysInMonth (year : Int) (month : Nat) : Nat :=
  match month with
  | 2 => if isLeapYear year then 29 else 28
  | 4 | 6 | 9 | 11 => 30
  | _ => 31

/-- A date that the calendar has: its month is one of twelve and its day lies in the month. -/
def IsValid (d : Date) : Prop :=
  1 ≤ d.month ∧ d.month ≤ 12 ∧ 1 ≤ d.day ∧ d.day ≤ daysInMonth d.year d.month

instance (d : Date) : Decidable d.IsValid := by
  unfold IsValid
  infer_instance

/-- The days of a year that begins in March before a given month, March being month 0. -/
def daysBeforeMonth (fromMarch : Nat) : Nat := (153 * fromMarch + 2) / 5

/-- **The number of a date's day**, counted from the first of January 1970. -/
def toDay (d : Date) : Int :=
  let year := if d.month ≤ 2 then d.year - 1 else d.year
  let era := year / 400
  let yearOfEra := (year % 400).toNat
  let dayOfYear := daysBeforeMonth ((d.month + 9) % 12) + d.day - 1
  let dayOfEra := yearOfEra * 365 + yearOfEra / 4 - yearOfEra / 100 + dayOfYear
  era * 146097 + dayOfEra - 719468

/-- **The date of a day**, counted from the first of January 1970. -/
def ofDay (day : Int) : Date :=
  let fromEra := day + 719468
  let era := fromEra / 146097
  let dayOfEra := (fromEra % 146097).toNat
  let yearOfEra := (dayOfEra - dayOfEra / 1460 + dayOfEra / 36524 - dayOfEra / 146096) / 365
  let dayOfYear := dayOfEra - (365 * yearOfEra + yearOfEra / 4 - yearOfEra / 100)
  let fromMarch := (5 * dayOfYear + 2) / 153
  let month := if fromMarch < 10 then fromMarch + 3 else fromMarch - 9
  let year := (yearOfEra : Int) + era * 400
  ⟨if month ≤ 2 then year + 1 else year, month, dayOfYear - daysBeforeMonth fromMarch + 1⟩

example : ofDay 0 = ⟨1970, 1, 1⟩ := by decide

example : toDay ⟨1970, 1, 1⟩ = 0 := by decide

example : ofDay (toDay ⟨2024, 2, 29⟩) = ⟨2024, 2, 29⟩ := by decide

example : ofDay (toDay ⟨-1, 12, 31⟩) = ⟨-1, 12, 31⟩ := by decide

end Date

end Leasehold
