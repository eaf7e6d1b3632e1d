/-
**Moments and durations.**

Both are kept in milliseconds. A moment is a date, possibly with a time of day and an offset from
universal time; a duration is a row of days, hours, minutes, seconds and milliseconds.
-/

import PolicyLedger.Policy.Extension.Decimal
import PolicyLedger.Time.Calendar

namespace PolicyLedger.Policy

/-- A moment, in milliseconds since the beginning of 1970. -/
structure Moment where
  milliseconds : Int64
  deriving DecidableEq, Repr

/-- A duration, in milliseconds. -/
structure Duration where
  milliseconds : Int64
  deriving DecidableEq, Repr

/-- The milliseconds of a day. -/
def dayMilliseconds : Int := 86400000

namespace Moment

/-- The milliseconds of an offset that ends a text. -/
def offset? : List Char → Option Int
  | ['Z'] => some 0
  | sign :: rest => do
    let factor : Int ← if sign = '+' then some 1 else if sign = '-' then some (-1) else none
    let (hours, rest) ← Text.fixedNumber? 2 rest
    let (minutes, rest) ← Text.fixedNumber? 2 rest
    if rest.isEmpty && hours < 24 && minutes < 60 then
      some (factor * (hours * 3600000 + minutes * 60000))
    else none
  | [] => none

/-- The milliseconds of a time of day with an offset that ends a text. -/
def time? (cs : List Char) : Option Int := do
  let (hour, cs) ← Text.fixedNumber? 2 cs
  let cs ← Text.after? ':' cs
  let (minute, cs) ← Text.fixedNumber? 2 cs
  let cs ← Text.after? ':' cs
  let (second, cs) ← Text.fixedNumber? 2 cs
  let (millisecond, cs) ← match cs with
    | '.' :: rest => Text.fixedNumber? 3 rest
    | cs => some (0, cs)
  let offset ← offset? cs
  if hour < 24 && minute < 60 && second < 60 then
    some (hour * 3600000 + minute * 60000 + second * 1000 + millisecond - offset)
  else none

/-- The moment with a text. -/
def ofText? (text : String) : Option Moment := do
  let (year, cs) ← Text.fixedNumber? 4 text.toList
  let cs ← Text.after? '-' cs
  let (month, cs) ← Text.fixedNumber? 2 cs
  let cs ← Text.after? '-' cs
  let (day, cs) ← Text.fixedNumber? 2 cs
  let date : Time.Date := ⟨year, month, day⟩
  if date.isValid then
    let time ← match cs with
      | [] => some 0
      | 'T' :: rest => time? rest
      | _ => none
    let value ← Bounded.ofInt? (date.toDays * dayMilliseconds + time)
    return ⟨value⟩
  else none

/-- A moment and a duration later. -/
def offset (moment : Moment) (duration : Duration) : Option Moment :=
  (Bounded.add? moment.milliseconds duration.milliseconds).map .mk

/-- The duration from one moment to another. -/
def since (moment earlier : Moment) : Option Duration :=
  (Bounded.sub? moment.milliseconds earlier.milliseconds).map .mk

/-- The beginning of a moment's day. -/
def toDate (moment : Moment) : Option Moment :=
  let value := moment.milliseconds.toInt
  (Bounded.ofInt? (value / dayMilliseconds * dayMilliseconds)).map .mk

/-- The duration since the beginning of a moment's day. -/
def toTime (moment : Moment) : Option Duration :=
  (Bounded.ofInt? (moment.milliseconds.toInt % dayMilliseconds)).map .mk

end Moment

namespace Duration

/-- A number with a unit, if one follows, and the rest. -/
def part (unit : List Char) (cs : List Char) : Nat × List Char :=
  let digits := cs.takeWhile Text.isDigit
  if digits.isEmpty then (0, cs)
  else
    match Text.stripStart? unit (cs.dropWhile Text.isDigit) with
    | some rest =>
      -- the unit of minutes is also the beginning of the unit of milliseconds
      if unit = ['m'] ∧ rest.head? = some 's' then (0, cs) else (Text.decimalValue digits, rest)
    | none => (0, cs)

/-- The duration with a text: at least one number with its unit, from long units to short ones,
after a minus sign if it is negative. -/
def ofText? (text : String) : Option Duration :=
  let (negative, cs) := unsigned text.toList
  let (days, afterDays) := part ['d'] cs
  let (hours, afterHours) := part ['h'] afterDays
  let (minutes, afterMinutes) := part ['m'] afterHours
  let (seconds, afterSeconds) := part ['s'] afterMinutes
  let (milliseconds, rest) := part ['m', 's'] afterSeconds
  if cs.isEmpty || !rest.isEmpty then none
  else
    let size : Nat :=
      (((days * 24 + hours) * 60 + minutes) * 60 + seconds) * 1000 + milliseconds
    (Bounded.ofInt? (if negative then -(size : Int) else size)).map .mk

/-- A duration in whole units of some milliseconds, toward zero. -/
def inUnits (duration : Duration) (unit : Int) : Option Int64 :=
  Bounded.ofInt? (duration.milliseconds.toInt.tdiv unit)

end Duration

end PolicyLedger.Policy
