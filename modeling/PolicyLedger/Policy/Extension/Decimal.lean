/-
**Decimals.**

A decimal has up to four places and is kept as a whole number of ten-thousandths.
-/

import PolicyLedger.Policy.Extension.Bounded
import PolicyLedger.Text.Digit

namespace PolicyLedger.Policy

/-- A decimal, in ten-thousandths. -/
structure Decimal where
  tenThousandths : Int64
  deriving DecidableEq, Repr

/-- A text without its minus sign, and whether there was one. -/
def unsigned : List Char → Bool × List Char
  | '-' :: rest => (true, rest)
  | cs => (false, cs)

namespace Decimal

/-- The decimal with a text: digits, a point and one to four digits, after a minus sign if it is
negative. -/
def ofText? (text : String) : Option Decimal := do
  let (negative, cs) := unsigned text.toList
  let (whole, places) ← Text.splitFirst? ['.'] cs
  if Text.isDigits whole && Text.isDigits places && places.length ≤ 4 then
    let size : Nat :=
      Text.decimalValue whole * 10000 +
        Text.decimalValue places * Nat.pow 10 (4 - places.length)
    let value ← Bounded.ofInt? (if negative then -(size : Int) else size)
    return ⟨value⟩
  else none

end Decimal

end PolicyLedger.Policy
