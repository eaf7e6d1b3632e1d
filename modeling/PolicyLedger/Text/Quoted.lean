/-
**Quoted texts.**

A text between quotation marks shows the characters that can be seen and escapes the others. Marks
that attach to the character before them would attach to the opening quotation mark, so they are
escaped at the beginning of a text.
-/

import PolicyLedger.Bytes
import PolicyLedger.Text.Printable

namespace PolicyLedger.Text

/-- Hexadecimal digits of a number, at least one. -/
def hexNumber (value : Nat) : List Char := Nat.toDigits 16 value

/-- An escape by number. -/
def escapeNumber (c : Char) : List Char :=
  ['\\', 'u', '\x7b'] ++ hexNumber c.toNat ++ ['\x7d']

/-- A character in a quoted text; with `extending` one that attaches to the character before it is
escaped as well. -/
def escapeChar (extending : Bool) (c : Char) : List Char :=
  if c = '\x00' then ['\\', '0']
  else if c = '\t' then ['\\', 't']
  else if c = '\r' then ['\\', 'r']
  else if c = '\n' then ['\\', 'n']
  else if c = '\\' ∨ c = '"' ∨ c = '\x27' then ['\\', c]
  else if (extending && isExtending c) || !isPrintable c then escapeNumber c
  else [c]

/-- The characters of a text between its quotation marks. -/
def escapeText : List Char → List Char
  | [] => []
  | c :: rest => escapeChar true c ++ rest.flatMap (escapeChar false)

/-- A text between quotation marks. -/
def quote (text : String) : List Char := '"' :: escapeText text.toList ++ ['"']

end PolicyLedger.Text
