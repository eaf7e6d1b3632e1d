/-
**Calls of extension functions.**

A function gives a value only for the right number of arguments of the right kinds; otherwise, and
where a text is malformed or a result does not fit, the call fails.
-/

import PolicyLedger.Policy.Value

namespace PolicyLedger.Policy

namespace Extension

/-- The value that a function makes from a text. -/
def make? (function : Extension) (text : String) : Option ExtensionValue :=
  match function with
  | ip => (Address.ofText? text).map .address
  | decimal => (Decimal.ofText? text).map .decimal
  | datetime => (Moment.ofText? text).map .moment
  | duration => (Duration.ofText? text).map .duration
  | _ => none

/-- The answer of a function about an address. -/
def askAddress? (function : Extension) (address : Address) : Option Value :=
  match function with
  | isIpv4 => some (.bool (address.version = .v4))
  | isIpv6 => some (.bool (address.version = .v6))
  | isLoopback => some (.bool address.isLoopback)
  | isMulticast => some (.bool address.isMulticast)
  | _ => none

/-- The value that a function takes from a moment. -/
def ofMoment? (function : Extension) (moment : Moment) : Option Value :=
  match function with
  | toDate => moment.toDate.map fun date => .ext (.moment date)
  | toTime => moment.toTime.map fun time => .ext (.duration time)
  | _ => none

/-- The number that a function takes from a duration. -/
def ofDuration? (function : Extension) (length : Duration) : Option Value :=
  (match function with
    | toMilliseconds => length.inUnits 1
    | toSeconds => length.inUnits 1000
    | toMinutes => length.inUnits 60000
    | toHours => length.inUnits 3600000
    | toDays => length.inUnits 86400000
    | _ => none).map .int

/-- The answer of a comparison of decimals. -/
def compareDecimals? (function : Extension) (a b : Decimal) : Option Value :=
  let a := a.tenThousandths
  let b := b.tenThousandths
  match function with
  | lessThan => some (.bool (a < b))
  | lessThanOrEqual => some (.bool (a ≤ b))
  | greaterThan => some (.bool (b < a))
  | greaterThanOrEqual => some (.bool (b ≤ a))
  | _ => none

/-- The value of a call. -/
def call? (function : Extension) (args : List Value) : Option Value :=
  match args with
  | [.text text] => (function.make? text).map .ext
  | [.ext (.address address)] => function.askAddress? address
  | [.ext (.moment moment)] => function.ofMoment? moment
  | [.ext (.duration length)] => function.ofDuration? length
  | [.ext (.address address), .ext (.address range)] =>
    if function = isInRange then some (.bool (address.isInRange range)) else none
  | [.ext (.decimal a), .ext (.decimal b)] => function.compareDecimals? a b
  | [.ext (.moment moment), .ext (.duration shift)] =>
    if function = offset then (moment.offset shift).map fun later => .ext (.moment later) else none
  | [.ext (.moment moment), .ext (.moment earlier)] =>
    if function = durationSince then
      (moment.since earlier).map fun length => .ext (.duration length)
    else none
  | _ => none

end Extension

end PolicyLedger.Policy
