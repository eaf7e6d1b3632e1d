/-
**Versions.**

A version has three numbers, optionally marks of a pre-release after a hyphen and of a build after a
plus sign. Numbers have no zero in front and fit 64 bits; marks are separated by points and made of
letters, digits and hyphens, and a numeric mark of a pre-release has no zero in front.
-/

import PolicyLedger.Text.Digit

namespace PolicyLedger

namespace Version

/-- Holds of the characters of a mark. -/
def isMark (c : Char) : Bool := Text.isDigit c || Text.isLetter c || c == '-'

/-- Holds of the numbers of a version. -/
def isNumber (cs : List Char) : Bool :=
  Text.isPlainNumber cs && Text.decimalValue cs < 18446744073709551616

/-- Holds of the marks of a build. -/
def isBuild (cs : List Char) : Bool := !cs.isEmpty && cs.all isMark

/-- Holds of the marks of a pre-release. -/
def isPreRelease (cs : List Char) : Bool :=
  isBuild cs && (!cs.all Text.isDigit || Text.isPlainNumber cs)

/-- Holds of three numbers with points between them. -/
def isCore (cs : List Char) : Bool :=
  let numbers := Text.pieces '.' cs
  numbers.length == 3 && numbers.all isNumber

/-- Holds of the versions without marks of a build. -/
def isRelease (cs : List Char) : Bool :=
  match Text.splitFirst? ['-'] cs with
  | none => isCore cs
  | some (core, marks) => isCore core && (Text.pieces '.' marks).all isPreRelease

/-- Holds of the versions. -/
def isVersion (cs : List Char) : Bool :=
  match Text.splitFirst? ['+'] cs with
  | none => isRelease cs
  | some (release, marks) => isRelease release && (Text.pieces '.' marks).all isBuild

end Version

/-- A version, by its text. -/
structure Version where
  text : String
  valid : Version.isVersion text.toList = true
  deriving DecidableEq

namespace Version

/-- The version with a text. -/
def parse? (text : String) : Option Version :=
  if valid : isVersion text.toList = true then some ⟨text, valid⟩ else none

/-- A version is read back from its text. -/
@[simp] theorem parse?_text (version : Version) : parse? version.text = some version := by
  simp [parse?, version.valid]

end Version

end PolicyLedger
