/-
**Numbers of 64 bits with a sign.**

Whole numbers in policies, and the numbers behind decimals, moments and durations, have 64 bits.
Arithmetic on them is exact or fails.

* `toInt_of_ofInt?`: a number that fits keeps its value.
-/

namespace PolicyLedger.Policy

namespace Bounded

/-- The number of 64 bits with a value, if it fits. -/
def ofInt? (value : Int) : Option Int64 :=
  if -9223372036854775808 ≤ value ∧ value < 9223372036854775808 then some (Int64.ofInt value)
  else none

/-- The sum of two numbers. -/
def add? (a b : Int64) : Option Int64 := ofInt? (a.toInt + b.toInt)

/-- The difference of two numbers. -/
def sub? (a b : Int64) : Option Int64 := ofInt? (a.toInt - b.toInt)

/-- The product of two numbers. -/
def mul? (a b : Int64) : Option Int64 := ofInt? (a.toInt * b.toInt)

/-- The number of opposite sign. -/
def neg? (a : Int64) : Option Int64 := ofInt? (-a.toInt)

/-- A number that fits keeps its value. -/
theorem toInt_of_ofInt? {value : Int} {number : Int64} (fits : ofInt? value = some number) :
    number.toInt = value := by
  unfold ofInt? at fits
  split at fits
  next bounds =>
    cases fits
    exact Int64.toInt_ofInt_of_le (by simpa using bounds.1) (by simpa using bounds.2)
  next => cases fits

end Bounded

end PolicyLedger.Policy
