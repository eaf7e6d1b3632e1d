/-
**Instants.**

An instant is a number of seconds since the beginning of 1970, universal time, with a fraction in
nanoseconds. A fraction of a billion or more belongs to a leap second: it lies in the second after
second 59 of its minute and is written as second 60.

* `rfc3339` writes an instant with a fraction of 0, 3, 6 or 9 digits, as few as tell it exactly,
  `rfc3339Seconds` without a fraction;
* `display` is the form used in messages.
-/

import PolicyLedger.Time.Calendar

namespace PolicyLedger.Time

/-- A moment in time. -/
structure Instant where
  seconds : Int
  nanoseconds : Nat
  deriving DecidableEq, Repr

namespace Instant

/-- The seconds of a day. -/
def daySeconds : Int := 86400

/-- The nanoseconds of a second. -/
def secondNanoseconds : Nat := 1000000000

/-- The date of an instant. -/
def date (instant : Instant) : Date := Date.ofDays (instant.seconds / daySeconds)

/-- The year of an instant. -/
def year (instant : Instant) : Int := instant.date.year

/-- The number of whole seconds since midnight; a leap second counts with the one before it. -/
def secondOfDay (instant : Instant) : Nat := (instant.seconds % daySeconds).toNat

/-- The same second without its fraction. -/
def wholeSecond (instant : Instant) : Instant := ⟨instant.seconds, 0⟩

/-! ### Writing -/

/-- A number with zeros in front to fill a width. -/
def padded (width value : Nat) : List Char :=
  let digits := Nat.toDigits 10 value
  List.replicate (width - digits.length) '0' ++ digits

/-- Four digits for the years they suffice for; other years have a sign and at least four digits. -/
def yearDigits (year : Int) : List Char :=
  if 0 ≤ year ∧ year ≤ 9999 then padded 4 year.toNat
  else (if year < 0 then '-' else '+') :: padded 4 year.natAbs

/-- Year, month and day. -/
def dateDigits (instant : Instant) : List Char :=
  let date := instant.date
  yearDigits date.year ++ '-' :: padded 2 date.month ++ '-' :: padded 2 date.day

/-- Hours, minutes and seconds. -/
def clockDigits (instant : Instant) : List Char :=
  let second := instant.secondOfDay
  let leap := if instant.nanoseconds < secondNanoseconds then 0 else 1
  padded 2 (second / 3600) ++ ':' :: padded 2 (second / 60 % 60) ++
    ':' :: padded 2 (second % 60 + leap)

/-- The fraction of a second, in thousandths, millionths or billionths. -/
def fractionDigits (instant : Instant) : List Char :=
  let fraction := instant.nanoseconds % secondNanoseconds
  if fraction = 0 then []
  else if fraction % 1000000 = 0 then '.' :: padded 3 (fraction / 1000000)
  else if fraction % 1000 = 0 then '.' :: padded 6 (fraction / 1000)
  else '.' :: padded 9 fraction

/-- The form of RFC 3339, in universal time, to the second. -/
def rfc3339Seconds (instant : Instant) : List Char :=
  instant.dateDigits ++ 'T' :: instant.clockDigits ++ ['Z']

/-- The form of RFC 3339, in universal time, with the fraction. -/
def rfc3339 (instant : Instant) : List Char :=
  instant.dateDigits ++ 'T' :: instant.clockDigits ++ instant.fractionDigits ++ ['Z']

/-- The form used in messages. -/
def display (instant : Instant) : String :=
  String.ofList (instant.dateDigits ++ ' ' :: instant.clockDigits ++ instant.fractionDigits) ++
    " UTC"

end Instant

end PolicyLedger.Time
