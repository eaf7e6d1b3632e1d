/-
**The Gregorian calendar.**

Days are counted from 1 January 1970 and may be negative; the calendar is extended to all years,
with a year 0 before the year 1. `Date.ofDays` and `Date.toDays` go through eras of 400 years,
counted from 1 March so that a leap day ends its year.
-/

namespace PolicyLedger.Time

/-- A day of the calendar. -/
structure Date where
  year : Int
  month : Nat
  day : Nat
  deriving DecidableEq, Repr

namespace Date

/-- The days of an era of 400 years. -/
def eraDays : Int := 146097

/-- The days from 1 March of the year 0 to 1 January 1970. -/
def epochDay : Int := 719468

/-- The number of a date's day. -/
def toDays (date : Date) : Int :=
  let month : Int := date.month
  let year := if month ≤ 2 then date.year - 1 else date.year
  let era := year / 400
  let yearOfEra := year - era * 400
  let shifted := if month ≤ 2 then month + 9 else month - 3
  let dayOfYear := (153 * shifted + 2) / 5 + date.day - 1
  era * eraDays + yearOfEra * 365 + yearOfEra / 4 - yearOfEra / 100 + dayOfYear - epochDay

/-- The date of a day's number. -/
def ofDays (days : Int) : Date :=
  let shifted := days + epochDay
  let era := shifted / eraDays
  let dayOfEra := shifted - era * eraDays
  let yearOfEra := (dayOfEra - dayOfEra / 1460 + dayOfEra / 36524 - dayOfEra / 146096) / 365
  let dayOfYear := dayOfEra - (365 * yearOfEra + yearOfEra / 4 - yearOfEra / 100)
  let month := (5 * dayOfYear + 2) / 153
  let day := dayOfYear - (153 * month + 2) / 5 + 1
  let civilMonth := if month < 10 then month + 3 else month - 9
  let year := yearOfEra + era * 400
  ⟨if civilMonth ≤ 2 then year + 1 else year, civilMonth.toNat, day.toNat⟩

/-- Holds of the years with a leap day. -/
def isLeapYear (year : Int) : Bool :=
  year % 4 == 0 && (year % 100 != 0 || year % 400 == 0)

/-- The number of days of a month, none if there is no such month. -/
def monthLength (year : Int) (month : Nat) : Nat :=
  if month = 2 then if isLeapYear year then 29 else 28
  else if month = 4 ∨ month = 6 ∨ month = 9 ∨ month = 11 then 30
  else if 1 ≤ month ∧ month ≤ 12 then 31
  else 0

/-- Holds of the dates that the calendar has. -/
def isValid (date : Date) : Bool :=
  1 ≤ date.day && date.day ≤ monthLength date.year date.month

end Date

end PolicyLedger.Time
