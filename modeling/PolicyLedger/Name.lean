/-
**Names.**

Two rules on names. Policies are named with small letters, digits, hyphens and underscores
(`PolicyName`). The namespace of the platform is reserved: callers may not use an identifier in it,
however it is spelled with blanks and capitals (`isReserved`).
-/

import PolicyLedger.Error
import PolicyLedger.Bytes
import PolicyLedger.Text.Blank
import PolicyLedger.Text.Case
import PolicyLedger.Text.Split

namespace PolicyLedger

/-! ### The reserved namespace -/

/-- The namespace of the platform, in small letters. -/
def reservedWord : List Char := ['z', 't', 'a', 'u', 't', 'h']

/-- What stands between the parts of an identifier. -/
def separator : List Char := [':', ':']

/-- An identifier without blanks and in small letters. -/
def normalized (identifier : List Char) : List Char := Text.lower (Text.squeeze identifier)

/-- Holds of the reserved namespace and the identifiers in it. -/
def isReserved (identifier : String) : Bool :=
  let plain := normalized identifier.toList
  plain == reservedWord || (Text.stripStart? (reservedWord ++ separator) plain).isSome

/-- Refuses an identifier of the reserved namespace. -/
def refuseReserved (what identifier : String) : Except Error Unit :=
  if isReserved identifier then .error (.reserved what identifier) else .ok ()

/-! ### Policy names -/

namespace PolicyName

/-- The longest name, in bytes. -/
def maxLength : Nat := 254

/-- Holds of small letters and digits. -/
def isPlain (c : Char) : Bool := ('a' ≤ c && c ≤ 'z') || Text.isDigit c

/-- Holds of the characters of a name. -/
def isInner (c : Char) : Bool := isPlain c || c == '-' || c == '_'

/-- Holds of a row of name characters that begins and ends with a letter or a digit. -/
def isWellFormed (cs : List Char) : Bool :=
  cs.all isInner && (cs.head?.any isPlain) && (cs.getLast?.any isPlain)

/-- Refuses a text that does not name a policy. -/
def check (name : String) : Except Error Unit :=
  if name.isEmpty then .error (.name .empty)
  else if maxLength < (Bytes.ofText name).length then .error (.name (.tooLong maxLength))
  else if (Text.stripStart? reservedWord (Text.lower name.toList)).isSome then
    .error (.name (.reserved name (String.ofList reservedWord)))
  else if isWellFormed name.toList then .ok ()
  else .error (.name (.malformed name))

end PolicyName

end PolicyLedger
