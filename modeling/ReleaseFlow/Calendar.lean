import ReleaseFlow.Text.Decimal

/-!
# Dates and instants

Dates of the Gregorian calendar, extended to all years of a fixed range, and instants counted in
seconds from the start of 1970.

* `Date`, `Date.of?`: a valid date;
* `Date.text`: day, month name in capitals and year, as release titles show it;
* `civilOfDays`: the date that lies a number of days after the start of 1970;
* `Instant.text`: an instant in UTC with the precision of a second.
-/

namespace ReleaseFlow

/-- The year has a 29th of February. -/
def isLeapYear (year : Int) : Bool :=
  year % 4 == 0 && (year % 100 != 0 || year % 400 == 0)

def daysInMonth (year : Int) (month : Nat) : Nat :=
  match month with
  | 2 => if isLeapYear year then 29 else 28
  | 4 | 6 | 9 | 11 => 30
  | _ => 31

/-- The years that dates can have. -/
def firstYear : Int := -262143

def lastYear : Int := 262142

/-- A date of the calendar. -/
structure Date where
  year : Int
  month : Nat
  day : Nat
  inRange : firstYear ≤ year ∧ year ≤ lastYear
  isMonth : 1 ≤ month ∧ month ≤ 12
  isDay : 1 ≤ day ∧ day ≤ daysInMonth year month
  deriving DecidableEq

/-- A year with at least four digits, and with a sign when it lies outside of 0 to 9999. -/
def yearText (year : Int) : String :=
  if 0 ≤ year && year ≤ 9999 then Text.padded 4 year.natAbs
  else (if year < 0 then "-" else "+") ++ Text.padded 4 year.natAbs

namespace Date

/-- The date with these numbers, if there is one. -/
def of? (year month day : Int) : Option Date :=
  if h : (firstYear ≤ year ∧ year ≤ lastYear) ∧ (1 ≤ month.toNat ∧ month.toNat ≤ 12) ∧
      (1 ≤ day.toNat ∧ day.toNat ≤ daysInMonth year month.toNat) then
    some ⟨year, month.toNat, day.toNat, h.1, h.2.1, h.2.2⟩
  else none

def monthText (month : Nat) : String :=
  match month with
  | 1 => "JAN"
  | 2 => "FEB"
  | 3 => "MAR"
  | 4 => "APR"
  | 5 => "MAY"
  | 6 => "JUN"
  | 7 => "JUL"
  | 8 => "AUG"
  | 9 => "SEP"
  | 10 => "OCT"
  | 11 => "NOV"
  | _ => "DEC"

/-- Day, month and year, such as `15 MAY 2024`. -/
def text (d : Date) : String :=
  Text.padded 2 d.day ++ " " ++ monthText d.month ++ " " ++ yearText d.year

end Date

/-- The numbers of the date that lies `days` after the start of 1970. A year is counted from March,
so that the leap day is its last, and 400 years have 146097 days. -/
def civilOfDays (days : Int) : Int × Nat × Nat :=
  let z := days + 719468
  let era := z.fdiv 146097
  let dayOfEra := (z - era * 146097).toNat
  let yearOfEra :=
    (dayOfEra - dayOfEra / 1460 + dayOfEra / 36524 - dayOfEra / 146096) / 365
  let dayOfYear := dayOfEra - (365 * yearOfEra + yearOfEra / 4 - yearOfEra / 100)
  let fromMarch := (5 * dayOfYear + 2) / 153
  let day := dayOfYear - (153 * fromMarch + 2) / 5 + 1
  let month := if fromMarch < 10 then fromMarch + 3 else fromMarch - 9
  (yearOfEra + era * 400 + (if month ≤ 2 then 1 else 0), month, day)

/-- A point in time: seconds from the start of 1970 and nanoseconds after them. A thousand million
nanoseconds and more stand for a leap second, which is shown as second sixty. -/
structure Instant where
  seconds : Int
  nanos : Nat
  deriving DecidableEq, Repr

namespace Instant

/-- The instant in UTC, such as `2024-05-15T12:00:00Z`. -/
def text (t : Instant) : String :=
  let (year, month, day) := civilOfDays (t.seconds.fdiv 86400)
  let second := (t.seconds.fmod 86400).toNat
  let leap := if 1000000000 ≤ t.nanos then 1 else 0
  yearText year ++ "-" ++ Text.padded 2 month ++ "-" ++ Text.padded 2 day ++ "T" ++
    Text.padded 2 (second / 3600) ++ ":" ++ Text.padded 2 (second / 60 % 60) ++ ":" ++
    Text.padded 2 (second % 60 + leap) ++ "Z"

/-- The date of the instant in UTC, if the calendar reaches it. -/
def date? (t : Instant) : Option Date :=
  let (year, month, day) := civilOfDays (t.seconds.fdiv 86400)
  Date.of? year month day

end Instant

/-- The title of a release: its tag and the date. -/
def releaseTitle (tag : String) (date : Date) : String :=
  tag ++ " - " ++ date.text

end ReleaseFlow
