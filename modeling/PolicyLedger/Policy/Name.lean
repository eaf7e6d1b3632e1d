/-
**Names in policies.**

An identifier is a letter or an underscore, followed by letters, digits and underscores. A name is
an identifier that any number of further ones may precede as its namespace; it has one written
form, with two colons between the parts. Words of the language and the word `__cedar` are no parts
of names.
-/

import PolicyLedger.Text.Digit

namespace PolicyLedger.Policy

/-- Holds of the characters that an identifier begins with. -/
def isIdentifierStart (c : Char) : Bool := Text.isLetter c || c == '_'

/-- Holds of the characters of an identifier. -/
def isIdentifierPart (c : Char) : Bool := isIdentifierStart c || Text.isDigit c

/-- Holds of identifiers. -/
def isIdentifier : List Char → Bool
  | [] => false
  | c :: rest => isIdentifierStart c && rest.all isIdentifierPart

/-- The words of the language. -/
def languageWords : List String :=
  ["true", "false", "if", "then", "else", "in", "is", "like", "has"]

/-- The word that is kept for the language itself. -/
def internalWord : String := "__cedar"

/-- Holds of the identifiers that can be part of a name. -/
def isNamePart (identifier : String) : Bool :=
  isIdentifier identifier.toList && !languageWords.contains identifier && identifier ≠ internalWord

/-- An identifier with its namespace. -/
structure Name where
  path : List String
  base : String
  deriving DecidableEq, Repr

namespace Name

/-- The parts of a name. -/
def parts (name : Name) : List String := name.path ++ [name.base]

/-- The written form of a name. -/
def text (name : Name) : String := "::".intercalate name.parts

/-- The name with some parts. -/
def ofParts? (parts : List String) : Option Name :=
  match parts.reverse with
  | [] => none
  | base :: path => if parts.all isNamePart then some ⟨path.reverse, base⟩ else none

/-- The parts of a text between pairs of colons. -/
def splitParts : Nat → List Char → List (List Char)
  | 0, cs => [cs]
  | fuel + 1, cs =>
    match Text.splitFirst? [':', ':'] cs with
    | none => [cs]
    | some (part, rest) => part :: splitParts fuel rest

/-- The name with a written form. -/
def ofText? (text : String) : Option Name :=
  let cs := text.toList
  ofParts? ((splitParts cs.length cs).map String.ofList)

/-- Holds of the names of action types. -/
def isAction (name : Name) : Bool := name.base = "Action"

end Name

/-- The name of an entity: a type and an id of any characters. -/
structure EntityUid where
  type : Name
  id : String
  deriving DecidableEq, Repr

end PolicyLedger.Policy
