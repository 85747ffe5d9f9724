import Leasehold.Text.Blank
import Leasehold.Text.Digits
import Leasehold.Time.Calendar
import Leasehold.Time.Instant

/-!
# Timestamps

The text of an instant is its date, the letter `T`, its time of day and the offset of the zone,
which is that of Coordinated Universal Time. A fraction of a second is written with three, six or
nine digits, as few as it needs, or not at all when it is zero. A year that does not have four
digits is written with a sign.

* `Leasehold.Instant.withZone` – the text of an instant with some name for the offset;
* `Leasehold.Instant.timestamp` – the text in stored values, with the offset `Z`;
* `Leasehold.Instant.offsetTimestamp` – the text in messages, with the offset `+00:00`;
* `Leasehold.Instant.tableTime` – the text in tables, to the second;
* `Leasehold.Instant.ofTimestamp?` – the instant of a text in any zone. Reading is lenient: it
  takes blanks around the parts, parts without leading zeros, and a blank for the letter `T`.
-/

namespace Leasehold

open Text

/-! ### Writing -/

/-- The time of day, to the nanosecond. -/
structure TimeOfDay where
  /-- The hour, 0 to 23. -/
  hour : Nat
  /-- The minute, 0 to 59. -/
  minute : Nat
  /-- The second, 0 to 59. -/
  second : Nat
  /-- The nanosecond of the second. -/
  nanos : Nat

namespace Instant

/-- The seconds of a day. -/
private def secondsInDay : Int := 86400

/-- The date an instant falls on. -/
def date (t : Instant) : Date := .ofDay (t.seconds / secondsInDay)

/-- The time of day of an instant. -/
def timeOfDay (t : Instant) : TimeOfDay :=
  let second := (t.seconds % secondsInDay).toNat
  ⟨second / 3600, second / 60 % 60, second % 60, t.subsecond⟩

/-- A year: four digits, and with a sign when four do not do. -/
def yearText (year : Int) : String :=
  if 0 ≤ year ∧ year ≤ 9999 then padLeft 4 year.toNat
  else (if year < 0 then "-" else "+") ++ padLeft 4 year.natAbs

/-- A date: year, month and day. -/
def dateText (d : Date) : String :=
  yearText d.year ++ "-" ++ padLeft 2 d.month ++ "-" ++ padLeft 2 d.day

/-- A time of day to the second. -/
def clockText (t : TimeOfDay) : String :=
  padLeft 2 t.hour ++ ":" ++ padLeft 2 t.minute ++ ":" ++ padLeft 2 t.second

/-- A fraction of a second in as few groups of three digits as it needs. -/
def fractionText (nanos : Nat) : String :=
  if nanos = 0 then ""
  else if nanos % 1000000 = 0 then "." ++ padLeft 3 (nanos / 1000000)
  else if nanos % 1000 = 0 then "." ++ padLeft 6 (nanos / 1000)
  else "." ++ padLeft 9 nanos

/-- The text of an instant, with a name for the offset. -/
def withZone (zone : String) (t : Instant) : String :=
  dateText t.date ++ "T" ++ clockText t.timeOfDay ++ fractionText t.timeOfDay.nanos ++ zone

/-- **The timestamp** of an instant in stored values. -/
def timestamp (t : Instant) : String := t.withZone "Z"

/-- The timestamp of an instant in messages. -/
def offsetTimestamp (t : Instant) : String := t.withZone "+00:00"

/-- The text of an instant in tables, to the second. -/
def tableTime (t : Instant) : String :=
  dateText t.date ++ " " ++ clockText t.timeOfDay ++ " UTC"

/-! ### Reading -/

/-- A number of one up to `width` digits, after blanks. -/
def readNumber? (width : Nat) (s : List Char) : Option (Nat × List Char) :=
  let s := dropBlanks s
  let ds := (s.take width).takeWhile isDigit
  if ds = [] then none else some (ofDigits ds, s.drop ds.length)

/-- A year: up to four digits, or any number of them after a sign. -/
def readYear? (s : List Char) : Option (Int × List Char) :=
  match dropBlanks s with
  | '-' :: rest =>
    let (ds, rest) := spanDigits rest
    if ds = [] then none else some (-(ofDigits ds : Int), rest)
  | '+' :: rest =>
    let (ds, rest) := spanDigits rest
    if ds = [] then none else some (ofDigits ds, rest)
  | rest => (readNumber? 4 rest).map fun (n, rest) => ((n : Int), rest)

/-- A mark between two numbers, after blanks. -/
def readMark? (mark : Char) (s : List Char) : Option (List Char) :=
  match dropBlanks s with
  | c :: rest => if c = mark then some rest else none
  | [] => none

/-- A date and what follows it. -/
def readDate? (s : List Char) : Option (Date × List Char) := do
  let (year, s) ← readYear? s
  let s ← readMark? '-' s
  let (month, s) ← readNumber? 2 s
  let s ← readMark? '-' s
  let (day, s) ← readNumber? 2 s
  if Date.IsValid ⟨year, month, day⟩ then some (⟨year, month, day⟩, s) else none

/-- A fraction of a second in nanoseconds, digits beyond the ninth ignored. -/
def readFraction? (s : List Char) : Option (Nat × List Char) :=
  match s with
  | '.' :: s =>
    let (ds, s) := spanDigits s
    let kept := ds.take 9
    if kept = [] then none else some (ofDigits kept * Nat.pow 10 (9 - kept.length), s)
  | s => some (0, s)

/-- The nanoseconds of the day at a time of day, and what follows it. The minute may have a
sixtieth second, which is the first of the next minute. -/
def readClock? (s : List Char) : Option (Int × List Char) := do
  let (hour, s) ← readNumber? 2 s
  let s ← readMark? ':' s
  let (minute, s) ← readNumber? 2 s
  let s ← readMark? ':' s
  let (second, s) ← readNumber? 2 s
  let (nanos, s) ← readFraction? s
  if hour ≤ 23 ∧ minute ≤ 59 ∧ second ≤ 60 then
    some (((hour * 3600 + minute * 60 + second) * 1000000000 + nanos : Nat), s)
  else none

/-- Hours and minutes of an offset, in seconds. -/
def readHoursAndMinutes? (s : List Char) : Option (Nat × List Char) :=
  match s with
  | h₁ :: h₂ :: s =>
    match s.dropWhile (fun c => c = ':' || isBlank c) with
    | m₁ :: m₂ :: s =>
      if [h₁, h₂, m₁, m₂].all isDigit then
        let hours := ofDigits [h₁, h₂]
        let minutes := ofDigits [m₁, m₂]
        if hours ≤ 23 ∧ minutes ≤ 59 then some (hours * 3600 + minutes * 60, s) else none
      else none
    | _ => none
  | _ => none

/-- The offset of a zone in seconds, positive to the east, and what follows it. -/
def readOffset? (s : List Char) : Option (Int × List Char) :=
  let s := dropBlanks s
  if (s.take 3).map Char.toUpper = ['U', 'T', 'C'] then some (0, s.drop 3)
  else
    match s with
    | 'Z' :: s => some (0, s)
    | 'z' :: s => some (0, s)
    | '+' :: s => (readHoursAndMinutes? s).map fun (n, s) => ((n : Int), s)
    | '-' :: s => (readHoursAndMinutes? s).map fun (n, s) => (-(n : Int), s)
    | '−' :: s => (readHoursAndMinutes? s).map fun (n, s) => (-(n : Int), s)
    | _ => none

/-- The letter between date and time of day, or the blank that stands for it. -/
def readSeparator? (s : List Char) : Option (List Char) :=
  match s with
  | c :: s => if c = 'T' || c = 't' || c = ' ' then some s else none
  | [] => none

/-- **The instant of a timestamp**, absent when the text is none or its instant is off the
line, in its own zone or in Coordinated Universal Time. -/
def ofTimestamp? (text : String) : Option Instant := do
  let (date, s) ← readDate? text.toList
  let s ← readSeparator? s
  let (clock, s) ← readClock? s
  let (offset, s) ← readOffset? s
  let there ← ofNanos? (date.toDay * secondsInDay * 1000000000 + clock)
  let here ← ofNanos? (there.nanos - offset * 1000000000)
  if (dropBlanks s).isEmpty then some here else none

end Instant

end Leasehold
