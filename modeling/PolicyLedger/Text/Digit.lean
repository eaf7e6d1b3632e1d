/-
**Digits.**

Every format here writes numbers with ASCII digits. What they share is kept in one place:

* `decimalValue` is the number with some decimal digits, `intDigits` writes an integer;
* `fixedNumber?` reads a number of exactly some digits;
* `hexValue?` reads a hexadecimal digit of either case, `hexDigit` writes a small one
  (`hexValue?_hexDigit`: it is read back);
* `scalar?` is the character with a number.
-/

import PolicyLedger.Text.Split

namespace PolicyLedger.Text

/-! ### Decimal -/

/-- Holds of the decimal digits. -/
def isDigit (c : Char) : Bool := '0' ≤ c && c ≤ '9'

/-- Holds of a row of at least one decimal digit. -/
def isDigits (cs : List Char) : Bool := !cs.isEmpty && cs.all isDigit

/-- Holds of a row of decimal digits whose first one is no zero, and of a single zero. -/
def isPlainNumber (cs : List Char) : Bool :=
  isDigits cs && (cs.head? != some '0' || cs.length == 1)

/-- The number with some decimal digits. -/
def decimalValue (digits : List Char) : Nat :=
  digits.foldl (fun sum c => 10 * sum + (c.toNat - 48)) 0

/-- The decimal digits of an integer, after a minus sign if it is negative. -/
def intDigits (value : Int) : List Char :=
  (if value < 0 then ['-'] else []) ++ Nat.toDigits 10 value.natAbs

/-- A number of exactly some digits, and the rest. -/
def fixedNumber? (width : Nat) (cs : List Char) : Option (Nat × List Char) :=
  let digits := cs.take width
  if digits.length = width ∧ digits.all isDigit then
    some (decimalValue digits, cs.drop width)
  else none

/-- Holds of the ASCII letters. -/
def isLetter (c : Char) : Bool := ('a' ≤ c && c ≤ 'z') || ('A' ≤ c && c ≤ 'Z')

/-! ### Hexadecimal -/

/-- The lowercase hexadecimal digit of a number below sixteen. -/
def hexDigit (value : Nat) : Char :=
  if value < 10 then Char.ofNat (48 + value) else Char.ofNat (87 + value)

/-- The value of a hexadecimal digit of either case. -/
def hexValue? (c : Char) : Option Nat :=
  if '0' ≤ c ∧ c ≤ '9' then some (c.toNat - 48)
  else if 'a' ≤ c ∧ c ≤ 'f' then some (c.toNat - 87)
  else if 'A' ≤ c ∧ c ≤ 'F' then some (c.toNat - 55)
  else none

/-- The number with some hexadecimal digits. -/
def hexNumber? (cs : List Char) : Option Nat :=
  (cs.mapM hexValue?).map fun values => values.foldl (fun sum value => 16 * sum + value) 0

/-- The character with a number, unless it is a surrogate or too large. -/
def scalar? (code : Nat) : Option Char :=
  if code < 0xD800 ∨ (0xDFFF < code ∧ code < 0x110000) then some (Char.ofNat code) else none

/-- A hexadecimal digit is read back. -/
theorem hexValue?_hexDigit {value : Nat} (small : value < 16) :
    hexValue? (hexDigit value) = some value := by
  have all : ∀ digit : Fin 16, hexValue? (hexDigit digit.1) = some digit.1 := by decide
  exact all ⟨value, small⟩

end PolicyLedger.Text
