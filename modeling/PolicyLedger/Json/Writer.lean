/-
**Writing JSON.**

* `compact` writes a value without any space;
* `pretty` puts every member and item on a line of its own, indented by two spaces a level.

In texts the quotation mark, the backslash and the control characters are escaped, everything else
stands for itself.
-/

import PolicyLedger.Json.Basic
import PolicyLedger.Bytes

namespace PolicyLedger.Json

/-- A character inside a text. -/
def escape (c : Char) : List Char :=
  if c = '"' then ['\\', '"']
  else if c = '\\' then ['\\', '\\']
  else if c = '\n' then ['\\', 'n']
  else if c = '\r' then ['\\', 'r']
  else if c = '\t' then ['\\', 't']
  else if c = '\x08' then ['\\', 'b']
  else if c = '\x0C' then ['\\', 'f']
  else if c.toNat < 32 then
    ['\\', 'u', '0', '0', Text.hexDigit (c.toNat / 16), Text.hexDigit (c.toNat % 16)]
  else [c]

/-- A text between quotation marks. -/
def writeText (value : String) : List Char := '"' :: value.toList.flatMap escape ++ ['"']

/-- The text of a number. -/
def Number.write : Number → List Char
  | whole value _ => Text.intDigits value
  | double value => value.write

mutual

/-- A value without any space. -/
def write : Json → List Char
  | null => ['n', 'u', 'l', 'l']
  | bool true => ['t', 'r', 'u', 'e']
  | bool false => ['f', 'a', 'l', 's', 'e']
  | number value => value.write
  | text value => writeText value
  | list items => '[' :: writeItems items ++ [']']
  | object members => '\x7b' :: writeMembers members ++ ['\x7d']

/-- Values with commas between them. -/
def writeItems : List Json → List Char
  | [] => []
  | [item] => write item
  | item :: other :: rest => write item ++ ',' :: writeItems (other :: rest)

/-- Members with commas between them. -/
def writeMembers : List (String × Json) → List Char
  | [] => []
  | [(key, value)] => writeText key ++ ':' :: write value
  | (key, value) :: other :: rest =>
    writeText key ++ ':' :: write value ++ ',' :: writeMembers (other :: rest)

end

/-- The end of a line and the space before the next one. -/
def newLine (level : Nat) : List Char := '\n' :: List.replicate (2 * level) ' '

mutual

/-- A value on lines indented to a level; empty lists and objects take no line. -/
def writeLines (level : Nat) : Json → List Char
  | null => ['n', 'u', 'l', 'l']
  | bool true => ['t', 'r', 'u', 'e']
  | bool false => ['f', 'a', 'l', 's', 'e']
  | number value => value.write
  | text value => writeText value
  | list [] => ['[', ']']
  | list (item :: rest) =>
    '[' :: writeItemLines (level + 1) (item :: rest) ++ newLine level ++ [']']
  | object [] => ['\x7b', '\x7d']
  | object (first :: rest) =>
    '\x7b' :: writeMemberLines (level + 1) (first :: rest) ++ newLine level ++ ['\x7d']

/-- Values, each on a line of its own. -/
def writeItemLines (level : Nat) : List Json → List Char
  | [] => []
  | [item] => newLine level ++ writeLines level item
  | item :: other :: rest =>
    newLine level ++ writeLines level item ++ ',' :: writeItemLines level (other :: rest)

/-- Members, each on a line of its own. -/
def writeMemberLines (level : Nat) : List (String × Json) → List Char
  | [] => []
  | [(key, value)] => newLine level ++ writeText key ++ ':' :: ' ' :: writeLines level value
  | (key, value) :: other :: rest =>
    newLine level ++ writeText key ++ ':' :: ' ' :: writeLines level value ++
      ',' :: writeMemberLines level (other :: rest)

end

/-- The text of a value without any space. -/
def compact (value : Json) : String := String.ofList (write value)

/-- The text of a value on indented lines. -/
def pretty (value : Json) : String := String.ofList (writeLines 0 value)

end PolicyLedger.Json
