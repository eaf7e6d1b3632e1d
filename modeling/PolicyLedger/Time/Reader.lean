/-
**Reading instants.**

Two forms of a date and a time with an offset from universal time are read.

* `readStrict` takes exactly the form of RFC 3339: every field has its full width;
* `readLenient` takes fields of fewer digits, signed years, blanks between fields and `UTC` as an
  offset.

Second 60 is read as a leap second in any minute. More than nine digits of a fraction are allowed,
but only nine count.
-/

import PolicyLedger.Text.Blank
import PolicyLedger.Text.Digit
import PolicyLedger.Time.Instant

namespace PolicyLedger.Time

/-- The fields of a date and a time as they are written. -/
structure Fields where
  date : Date
  hour : Nat
  minute : Nat
  second : Nat
  nanoseconds : Nat
  offset : Int
  deriving Repr

namespace Fields

/-- The first and the last year of the calendar in use. -/
def firstYear : Int := -262143

/-- The last year of the calendar in use. -/
def lastYear : Int := 262142

/-- Holds of a year of the calendar in use. -/
def isYear (year : Int) : Bool := firstYear ≤ year && year ≤ lastYear

/-- The instant that the fields denote, if each of them is in its range. -/
def toInstant? (fields : Fields) : Option Instant :=
  if isYear fields.date.year && fields.date.isValid && fields.hour < 24 && fields.minute < 60 &&
      fields.second ≤ 60 && fields.offset.natAbs < 86400 then
    let leap := fields.second = 60
    let second : Int := if leap then 59 else fields.second
    let seconds := fields.date.toDays * Instant.daySeconds + fields.hour * 3600 +
      fields.minute * 60 + second - fields.offset
    let instant : Instant :=
      ⟨seconds, fields.nanoseconds + if leap then Instant.secondNanoseconds else 0⟩
    if isYear instant.year then some instant else none
  else none

end Fields

namespace Reader

/-- A number of at least one and at most `width` digits, and the rest. -/
def number? (width : Nat) (cs : List Char) : Option (Nat × List Char) :=
  let digits := (cs.takeWhile Text.isDigit).take width
  if digits.isEmpty then none else some (Text.decimalValue digits, cs.drop digits.length)

/-- What follows the mark between a date and a time. -/
def afterDate? : List Char → Option (List Char)
  | [] => none
  | c :: rest => if c = 'T' ∨ c = 't' ∨ c = ' ' then some rest else none

/-- A fraction of a second, if one is written, and the rest. -/
def fraction? : List Char → Option (Nat × List Char)
  | [] => some (0, [])
  | c :: rest =>
    if c = '.' then
      let digits := rest.takeWhile Text.isDigit
      if digits.isEmpty then none
      else
        let counted := digits.take 9
        some (Text.decimalValue counted * Nat.pow 10 (9 - counted.length),
          rest.drop digits.length)
    else some (0, c :: rest)

/-- An offset in seconds and the rest; `between` skips what stands between hours and minutes. -/
def offset? (between : List Char → Option (List Char)) :
    List Char → Option (Int × List Char)
  | [] => none
  | c :: rest =>
    if c = 'Z' ∨ c = 'z' then some (0, rest)
    else
      let sign? : Option Int :=
        if c = '+' then some 1 else if c = '-' ∨ c = '\u2212' then some (-1) else none
      match sign?, Text.fixedNumber? 2 rest with
      | some sign, some (hours, afterHours) =>
        match (between afterHours).bind (Text.fixedNumber? 2) with
        | some (minutes, after) =>
          if minutes < 60 then some (sign * (hours * 3600 + minutes * 60), after) else none
        | none => none
      | _, _ => none

/-- The fields of the strict form, and the rest. -/
def strict? (cs : List Char) : Option (Fields × List Char) := do
  let (year, cs) ← Text.fixedNumber? 4 cs
  let cs ← Text.after? '-' cs
  let (month, cs) ← Text.fixedNumber? 2 cs
  let cs ← Text.after? '-' cs
  let (day, cs) ← Text.fixedNumber? 2 cs
  let cs ← afterDate? cs
  let (hour, cs) ← Text.fixedNumber? 2 cs
  let cs ← Text.after? ':' cs
  let (minute, cs) ← Text.fixedNumber? 2 cs
  let cs ← Text.after? ':' cs
  let (second, cs) ← Text.fixedNumber? 2 cs
  let (nanoseconds, cs) ← fraction? cs
  let (offset, cs) ← offset? (Text.after? ':') cs
  return (⟨⟨year, month, day⟩, hour, minute, second, nanoseconds, offset⟩, cs)

/-- A year of at most four digits, or of any number of digits after a sign. -/
def year? (cs : List Char) : Option (Int × List Char) :=
  match Text.trimLeft cs with
  | '-' :: rest => (number? rest.length rest).map fun (year, after) => (-(year : Int), after)
  | '+' :: rest => (number? rest.length rest).map fun (year, after) => ((year : Int), after)
  | trimmed => (number? 4 trimmed).map fun (year, after) => ((year : Int), after)

/-- A number of one or two digits after blanks. -/
def looseNumber? (cs : List Char) : Option (Nat × List Char) := number? 2 (Text.trimLeft cs)

/-- What follows an expected character after blanks. -/
def looseLiteral? (expected : Char) (cs : List Char) : Option (List Char) :=
  Text.after? expected (Text.trimLeft cs)

/-- What follows any colons and blanks. -/
def skipColons (cs : List Char) : List Char := cs.dropWhile fun c => c = ':' || Text.isBlank c

/-- An offset, possibly the word `UTC`, and the rest. -/
def looseOffset? (cs : List Char) : Option (Int × List Char) :=
  if (cs.take 3).map Char.toUpper = ['U', 'T', 'C'] then some (0, cs.drop 3)
  else offset? (fun after => some (skipColons after)) cs

/-- The fields of the lenient form, and the rest. -/
def lenient? (cs : List Char) : Option (Fields × List Char) := do
  let (year, cs) ← year? cs
  let cs ← looseLiteral? '-' cs
  let (month, cs) ← looseNumber? cs
  let cs ← looseLiteral? '-' cs
  let (day, cs) ← looseNumber? cs
  let cs ← afterDate? cs
  let (hour, cs) ← looseNumber? cs
  let cs ← looseLiteral? ':' cs
  let (minute, cs) ← looseNumber? cs
  let cs ← looseLiteral? ':' cs
  let (second, cs) ← looseNumber? cs
  let (nanoseconds, cs) ← fraction? cs
  let (offset, cs) ← looseOffset? (Text.trimLeft cs)
  return (⟨⟨year, month, day⟩, hour, minute, second, nanoseconds, offset⟩, cs)

end Reader

/-- The instant written in the strict form. -/
def Instant.readStrict (cs : List Char) : Option Instant :=
  match Reader.strict? cs with
  | some (fields, []) => fields.toInstant?
  | _ => none

/-- The instant written in the lenient form, with blanks after it allowed. -/
def Instant.readLenient (cs : List Char) : Option Instant :=
  match Reader.lenient? cs with
  | some (fields, rest) => if rest.all Text.isBlank then fields.toInstant? else none
  | none => none

end PolicyLedger.Time
