/-
**Reading JSON.**

`parse?` reads a whole text as one value. Objects keep repeated members; objects and lists may be
nested to a depth of `maxDepth`. Texts must not hold control characters, and an escaped surrogate
must be half of a pair. A number is whole if it is written without fraction and exponent and fits
64 bits; any other number is rounded to a double and must be finite.

The readers of values, items and members call each other on a decreasing amount of fuel, for which
the length of the text suffices.
-/

import PolicyLedger.Json.Basic
import PolicyLedger.Bytes

namespace PolicyLedger.Json

namespace Reader

/-- The greatest depth of objects and lists that is read. -/
def maxDepth : Nat := 127

/-- Space between the parts of a text. -/
def isSpace (c : Char) : Bool := c == ' ' || c == '\t' || c == '\n' || c == '\r'

/-- What follows the space. -/
def skip (cs : List Char) : List Char := cs.dropWhile isSpace

/-- What follows an expected word. -/
def word? : List Char → List Char → Option (List Char)
  | [], cs => some cs
  | _ :: _, [] => none
  | e :: expected, c :: cs => if e = c then word? expected cs else none

/-! ### Texts -/

/-- The value of four hexadecimal digits. -/
def unit? (a b c d : Char) : Option Nat := Text.hexNumber? [a, b, c, d]

/-- The character that an escape of one letter stands for. -/
def shortEscape? (c : Char) : Option Char :=
  if c = '"' ∨ c = '\\' ∨ c = '/' then some c
  else if c = 'n' then some '\n'
  else if c = 'r' then some '\r'
  else if c = 't' then some '\t'
  else if c = 'b' then some '\x08'
  else if c = 'f' then some '\x0C'
  else none

/-- Holds of the first half of a surrogate pair. -/
def isHigh (unit : Nat) : Bool := 0xD800 ≤ unit && unit < 0xDC00

/-- Holds of the second half of a surrogate pair. -/
def isLow (unit : Nat) : Bool := 0xDC00 ≤ unit && unit < 0xE000

/-- A character in front of what was read. -/
def before (c : Char) : Option (List Char × List Char) → Option (List Char × List Char)
  | some (read, rest) => some (c :: read, rest)
  | none => none

/-- The characters up to the closing quotation mark, and what follows it. -/
def chars : List Char → Option (List Char × List Char)
  | [] => none
  | '\\' :: 'u' :: a :: b :: c :: d :: '\\' :: 'u' :: e :: f :: g :: h :: rest =>
    match unit? a b c d, unit? e f g h with
    | some first, some second =>
      if isHigh first then
        if isLow second then
          before (Char.ofNat (0x10000 + (first - 0xD800) * 0x400 + (second - 0xDC00))) (chars rest)
        else none
      else if isLow first then none
      else before (Char.ofNat first) (chars ('\\' :: 'u' :: e :: f :: g :: h :: rest))
    | _, _ => none
  | '\\' :: 'u' :: a :: b :: c :: d :: rest =>
    match unit? a b c d with
    | some unit => if isHigh unit || isLow unit then none else before (Char.ofNat unit) (chars rest)
    | none => none
  | '\\' :: c :: rest =>
    match shortEscape? c with
    | some meant => before meant (chars rest)
    | none => none
  | c :: rest =>
    if c = '"' then some ([], rest)
    else if c = '\\' ∨ c.toNat < 32 then none
    else before c (chars rest)

/-- Any other character is read as it is. -/
theorem chars_plain {c : Char} (quote : c ≠ '"') (slash : c ≠ '\\') (printed : ¬ c.toNat < 32)
    (rest : List Char) : chars (c :: rest) = before c (chars rest) := by
  rw [chars, if_neg quote, if_neg (not_or.mpr ⟨slash, printed⟩)]
  all_goals intros; contradiction

/-! ### Numbers -/

/-- The greatest significand that is kept. -/
def maxSignificand : Nat := 18446744073709551615

/-- A significand with a power of ten. -/
structure Scaled where
  significand : Nat
  exponent : Int

/-- Digits before the point: from the first that does not fit, each only raises the exponent. -/
def wholeDigits (scaled : Scaled) : List Char → Scaled
  | [] => scaled
  | c :: rest =>
    let longer := scaled.significand * 10 + (c.toNat - 48)
    if maxSignificand < longer then ⟨scaled.significand, (rest.length + 1 : Nat)⟩
    else wholeDigits ⟨longer, 0⟩ rest

/-- Digits after the point: once one does not fit, it and all later ones are dropped. -/
def fractionDigits (scaled : Scaled) : List Char → Scaled
  | [] => scaled
  | c :: rest =>
    let longer := scaled.significand * 10 + (c.toNat - 48)
    if maxSignificand < longer then scaled
    else fractionDigits ⟨longer, scaled.exponent - 1⟩ rest

/-- The fraction after some whole digits, if there is a point, and the rest. -/
def fraction? (scaled : Scaled) : List Char → Option (Scaled × Bool × List Char)
  | '.' :: rest =>
    let digits := rest.takeWhile Text.isDigit
    if digits.isEmpty then none
    else some (fractionDigits scaled digits, true, rest.dropWhile Text.isDigit)
  | rest => some (scaled, false, rest)

/-- The exponent after the digits, if there is one, and the rest. -/
def exponent? (scaled : Scaled) : List Char → Option (Scaled × Bool × List Char)
  | [] => some (scaled, false, [])
  | c :: rest =>
    if c = 'e' ∨ c = 'E' then
      let (sign, unsigned) : Int × List Char :=
        match rest with
        | '+' :: after => (1, after)
        | '-' :: after => (-1, after)
        | after => (1, after)
      let digits := unsigned.takeWhile Text.isDigit
      if digits.isEmpty then none
      else
        let power : Nat := Text.decimalValue digits
        some (⟨scaled.significand, scaled.exponent + sign * power⟩, true,
          unsigned.dropWhile Text.isDigit)
    else some (scaled, false, c :: rest)

/-- The number with a sign, a significand and a power of ten. -/
def finish? (negative isWhole : Bool) (scaled : Scaled) : Option Number :=
  let signed (double : Double) : Number := .double (if negative then double.negate else double)
  let value : Int := if negative then -(scaled.significand : Int) else scaled.significand
  if isWhole && scaled.exponent == 0 && !(negative && scaled.significand == 0) then
    if fits : FitsWhole value then some (.whole value fits)
    else (Double.ofDecimal? scaled.significand 0).map signed
  else (Double.ofDecimal? scaled.significand scaled.exponent).map signed

/-- An unsigned number, and the rest. -/
def unsigned? (negative : Bool) (cs : List Char) : Option (Number × List Char) := do
  let digits := cs.takeWhile Text.isDigit
  if digits.isEmpty || (digits.head? == some '0' && 1 < digits.length) then none
  else
    let (scaled, hasFraction, cs) ←
      fraction? (wholeDigits ⟨0, 0⟩ digits) (cs.dropWhile Text.isDigit)
    let (scaled, hasExponent, cs) ← exponent? scaled cs
    let number ← finish? negative (!hasFraction && !hasExponent) scaled
    return (number, cs)

/-- A number, and the rest. -/
def number? : List Char → Option (Number × List Char)
  | '-' :: rest => unsigned? true rest
  | cs => unsigned? false cs

/-! ### Values -/

mutual

/-- A value after space, and the rest; `room` is the depth still allowed. -/
def value? : Nat → Nat → List Char → Option (Json × List Char)
  | 0, _, _ => none
  | fuel + 1, room, cs =>
    match skip cs with
    | [] => none
    | '"' :: rest => (chars rest).map fun (read, rest) => (text (String.ofList read), rest)
    | '[' :: rest =>
      match room with
      | 0 => none
      | room + 1 =>
        match skip rest with
        | ']' :: rest => some (list [], rest)
        | _ => (items? fuel room rest).map fun (items, rest) => (list items, rest)
    | '\x7b' :: rest =>
      match room with
      | 0 => none
      | room + 1 =>
        match skip rest with
        | '\x7d' :: rest => some (object [], rest)
        | _ => (members? fuel room rest).map fun (members, rest) => (object members, rest)
    | 'n' :: rest => (word? ['u', 'l', 'l'] rest).map fun rest => (null, rest)
    | 't' :: rest => (word? ['r', 'u', 'e'] rest).map fun rest => (bool true, rest)
    | 'f' :: rest => (word? ['a', 'l', 's', 'e'] rest).map fun rest => (bool false, rest)
    | c :: rest => (number? (c :: rest)).map fun (read, rest) => (number read, rest)

/-- One item or more up to the closing bracket, and the rest. -/
def items? : Nat → Nat → List Char → Option (List Json × List Char)
  | 0, _, _ => none
  | fuel + 1, room, cs =>
    match value? fuel room cs with
    | none => none
    | some (item, rest) =>
      match skip rest with
      | ']' :: rest => some ([item], rest)
      | ',' :: rest => (items? fuel room rest).map fun (items, rest) => (item :: items, rest)
      | _ => none

/-- One member or more up to the closing brace, and the rest. -/
def members? : Nat → Nat → List Char → Option (List (String × Json) × List Char)
  | 0, _, _ => none
  | fuel + 1, room, cs =>
    match skip cs with
    | '"' :: rest =>
      match chars rest with
      | none => none
      | some (key, rest) =>
        match skip rest with
        | ':' :: rest =>
          match value? fuel room rest with
          | none => none
          | some (value, rest) =>
            let member := (String.ofList key, value)
            match skip rest with
            | '\x7d' :: rest => some ([member], rest)
            | ',' :: rest =>
              (members? fuel room rest).map fun (members, rest) => (member :: members, rest)
            | _ => none
        | _ => none
    | _ => none

end

end Reader

/-- The value that a text is written for, with all members of its objects. -/
def parse? (text : String) : Option Json :=
  let cs := text.toList
  match Reader.value? (2 * cs.length + 2) Reader.maxDepth cs with
  | some (value, rest) => if (Reader.skip rest).isEmpty then some value else none
  | none => none

/-- The value that bytes are written for. -/
def ofBytes? (bytes : Bytes) : Option Json := (Bytes.toText? bytes).bind parse?

/-- The value that bytes are written for, without repeated members. -/
def canonicalOfBytes? (bytes : Bytes) : Option Json := (ofBytes? bytes).map canonical

end PolicyLedger.Json
