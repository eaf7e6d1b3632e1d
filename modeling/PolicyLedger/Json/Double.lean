/-
**Doubles in exact arithmetic.**

A finite double is its 64 bits; it stands for a significand times a power of two. Rounding, products
and quotients are computed on natural numbers, so nothing depends on floating-point instructions.

* `ofRatio?` rounds a ratio to the nearest double, a half to the even neighbour, and gives nothing
  where the result would be infinite;
* `shortest` finds the fewest decimal digits that are read back as the double, and of these the ones
  nearest to it;
* `jsonLayout` says where positional notation ends.
-/

namespace PolicyLedger.Json

/-- A finite double, by its bits. -/
structure Double where
  bits : UInt64
  deriving DecidableEq, Repr

namespace Double

/-- The bit that tells a negative double. -/
def signBit : UInt64 := 0x8000000000000000

/-- Holds of doubles with a minus sign, the negative zero included. -/
def isNegative (double : Double) : Bool := double.bits &&& signBit != 0

/-- The double of opposite sign. -/
def negate (double : Double) : Double := ⟨double.bits ^^^ signBit⟩

/-- Zero, without a sign. -/
def zero : Double := ⟨0⟩

/-- The bits without the one of the sign. -/
def magnitude (double : Double) : Nat := double.bits.toNat % signBit.toNat

/-- The leading bit of a significand, which is left out of the bits unless the exponent is zero. -/
def hiddenBit : Nat := 0x10000000000000

/-- The significand of a double without its sign. -/
def significand (double : Double) : Nat :=
  if double.magnitude / hiddenBit = 0 then double.magnitude
  else double.magnitude % hiddenBit + hiddenBit

/-- The power of two that goes with the significand, plus 1075. -/
def biasedExponent (double : Double) : Nat := max 1 (double.magnitude / hiddenBit)

/-- A double without its sign as a ratio of natural numbers. -/
def ratio (double : Double) : Nat × Nat :=
  let exponent := double.biasedExponent
  if 1075 ≤ exponent then (double.significand <<< (exponent - 1075), 1)
  else (double.significand, 1 <<< (1075 - exponent))

/-- A quotient rounded to the nearest integer, a half to the even one. -/
def roundQuotient (num den : Nat) : Nat :=
  let whole := num / den
  let twice := 2 * (num % den)
  if twice < den ∨ (twice = den ∧ whole % 2 = 0) then whole else whole + 1

/-- The double nearest to a ratio with a nonzero denominator. -/
def ofRatio? (num den : Nat) : Option Double :=
  if num = 0 then some zero
  else
    -- the ratio lies between `2 ^ (size - 1)` and `2 ^ (size + 1)`
    let size : Int := (Nat.log2 num : Int) - Nat.log2 den
    let scaled (exponent : Int) : Nat :=
      if 0 ≤ exponent then roundQuotient num (den <<< exponent.toNat)
      else roundQuotient (num <<< (-exponent).toNat) den
    let fits (exponent : Int) : Bool :=
      if 0 ≤ exponent then num < (den <<< exponent.toNat) * (2 * hiddenBit)
      else num <<< (-exponent).toNat < den * (2 * hiddenBit)
    let close := max (-1074) (size - 53)
    let exponent := if fits close then close else close + 1
    let rounded := scaled exponent
    -- rounding up may carry into the exponent, which the addition below takes care of
    let bits :=
      if rounded < hiddenBit then rounded
      else rounded - hiddenBit + (exponent + 1075).toNat * hiddenBit
    if bits < 0x7FF0000000000000 then some ⟨UInt64.ofNat bits⟩ else none

/-- The product of two doubles without their signs. -/
def times? (a b : Double) : Option Double :=
  ofRatio? (a.ratio.1 * b.ratio.1) (a.ratio.2 * b.ratio.2)

/-- The quotient of two doubles without their signs, the second one not zero. -/
def over? (a b : Double) : Option Double :=
  ofRatio? (a.ratio.1 * b.ratio.2) (a.ratio.2 * b.ratio.1)

/-- The double nearest to a power of ten. -/
def powerOfTen? (exponent : Nat) : Option Double := ofRatio? (Nat.pow 10 exponent) 1

/-- A double divided by a power of ten; powers beyond the doubles are taken in steps. -/
def divideByPower : Nat → Double → Nat → Option Double
  | 0, double, _ => some double
  | steps + 1, double, exponent =>
    if exponent ≤ 308 then (powerOfTen? exponent).bind double.over?
    else if double.bits = 0 then some double
    else do
      let power ← powerOfTen? 308
      let smaller ← double.over? power
      divideByPower steps smaller (exponent - 308)

/-- A significand of at most 64 bits times a power of ten: the significand is rounded first, the
product or quotient once more. -/
def ofDecimal? (significand : Nat) (exponent : Int) : Option Double := do
  let double ← ofRatio? significand 1
  if significand = 0 then return double
  else if 0 ≤ exponent then
    if exponent ≤ 308 then
      let power ← powerOfTen? exponent.toNat
      double.times? power
    else none
  else divideByPower ((-exponent).toNat / 308 + 1) double (-exponent).toNat

/-! ### Shortest digits -/

/-- The number of factors of ten that lift a ratio to at least one, at most `room`. -/
def liftToOne : Nat → Nat → Nat → Nat
  | 0, _, _ => 0
  | room + 1, num, den => if den ≤ num then 0 else liftToOne room (10 * num) den + 1

/-- The decimal exponent of the first digit of a positive ratio. -/
def leadingExponent (num den : Nat) : Int :=
  if den ≤ num then ((Nat.toDigits 10 (num / den)).length : Int) - 1
  else -(liftToOne 400 num den : Int)

/-- A decimal of a double: its digits and the power of ten of the last one. -/
structure Decimal where
  digits : Nat
  exponent : Int
  deriving DecidableEq, Repr

/-- The nearer of the two neighbours on a decimal grid that the double can be read back from. -/
def onGrid? (double : Double) (exponent : Int) : Option Decimal :=
  let m := double.significand
  let power := double.biasedExponent
  let even := m % 2 = 0
  -- quarters of the last place: the value, and the ends of what rounds to it
  let value := 4 * m
  let high := 4 * m + 2
  let low := if m = hiddenBit ∧ 1 < power then 4 * m - 1 else 4 * m - 2
  -- quarter units and grid units over a common denominator
  let quarter := if 1077 ≤ power then 1 <<< (power - 1077) else 1
  let quarterDen := if 1077 ≤ power then 1 else 1 <<< (1077 - power)
  let grid := if 0 ≤ exponent then Nat.pow 10 exponent.toNat else 1
  let gridDen := if 0 ≤ exponent then 1 else Nat.pow 10 (-exponent).toNat
  let unit := quarter * gridDen
  let step := grid * quarterDen
  let inside (digits : Nat) : Bool :=
    let point := digits * step
    if even then low * unit ≤ point && point ≤ high * unit
    else low * unit < point && point < high * unit
  let below := value * unit / step
  let above := below + 1
  let toBelow := value * unit - below * step
  let toAbove := above * step - value * unit
  match inside below, inside above with
  | true, true =>
    if toBelow < toAbove ∨ (toBelow = toAbove ∧ below % 2 = 0) then some ⟨below, exponent⟩
    else some ⟨above, exponent⟩
  | true, false => some ⟨below, exponent⟩
  | false, true => some ⟨above, exponent⟩
  | false, false => none

/-- The first grid with a decimal, from coarse to fine. -/
def firstOnGrid (double : Double) : Nat → Int → Decimal
  | 0, exponent => ⟨0, exponent⟩
  | room + 1, exponent =>
    match double.onGrid? exponent with
    | some decimal => decimal
    | none => firstOnGrid double room (exponent - 1)

/-- The shortest decimal of a double other than zero. -/
def shortest (double : Double) : Decimal :=
  firstOnGrid double 20 (leadingExponent double.ratio.1 double.ratio.2)

/-- A decimal without zeros at its end. -/
def Decimal.strip : Nat → Decimal → Decimal
  | 0, decimal => decimal
  | room + 1, decimal =>
    if decimal.digits ≠ 0 ∧ decimal.digits % 10 = 0 then
      strip room ⟨decimal.digits / 10, decimal.exponent + 1⟩
    else decimal

/-! ### Text -/

/-- Where positional notation ends: the place of the point, counted from the first digit, must be
above `low` and at most `high`. -/
structure Layout where
  low : Int
  high : Int
  deriving Repr

/-- Doubles in JSON are written positionally from `0.00001` to below `10 ^ 16`. -/
def jsonLayout : Layout := ⟨-5, 16⟩

/-- The digits of a number. -/
def digitsOf (value : Nat) : List Char := Nat.toDigits 10 value

/-- The text of a positive decimal. -/
def Decimal.write (layout : Layout) (decimal : Decimal) : List Char :=
  let digits := digitsOf decimal.digits
  let point : Int := digits.length + decimal.exponent
  if 0 ≤ decimal.exponent ∧ point ≤ layout.high then
    digits ++ List.replicate decimal.exponent.toNat '0' ++ ['.', '0']
  else if 0 < point ∧ point ≤ layout.high then
    digits.take point.toNat ++ '.' :: digits.drop point.toNat
  else if layout.low < point ∧ point ≤ 0 then
    '0' :: '.' :: List.replicate (-point).toNat '0' ++ digits
  else
    let power := point - 1
    let sign := if power < 0 then ['-'] else []
    let fraction := if digits.length = 1 then [] else '.' :: digits.drop 1
    digits.take 1 ++ fraction ++ 'e' :: sign ++ digitsOf power.natAbs

/-- The text of a double. -/
def write (double : Double) : List Char :=
  let sign := if double.isNegative then ['-'] else []
  if double.bits &&& ~~~ signBit = 0 then sign ++ ['0', '.', '0']
  else sign ++ (double.shortest.strip 20).write jsonLayout

end Double

end PolicyLedger.Json
