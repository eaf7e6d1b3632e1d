/-
**Statements of a source file.**

A source is cut into statements at its semicolons, so that one broken policy does not hide the
others. Semicolons in texts and comments do not count. Brackets are not looked at: no policy has a
semicolon inside, so an unbalanced bracket stays inside its own statement.

* `flatten_cut`: cutting loses no character.
-/

import PolicyLedger.Text.Blank
import PolicyLedger.Text.Split

namespace PolicyLedger.Statements

/-- What the next character belongs to. -/
inductive Mode
  | code
  | quotedText
  | escape
  | comment
  deriving DecidableEq, Repr

/-- The mode after a character; two slashes in code begin a comment, which lasts to the end of the
line, and a backslash in a text takes the next character with it. -/
def Mode.next (mode : Mode) (c : Char) (following : Option Char) : Mode :=
  match mode with
  | code => if c = '"' then quotedText else if c = '/' ∧ following = some '/' then comment else code
  | quotedText => if c = '\\' then escape else if c = '"' then code else quotedText
  | escape => quotedText
  | comment => if c = '\n' then code else comment

/-- A character in front of the first part. -/
def prepend (c : Char) : List (List Char) → List (List Char)
  | [] => [[c]]
  | part :: others => (c :: part) :: others

/-- The parts of a source, each ended by a semicolon but the last. -/
def cut (mode : Mode) : List Char → List (List Char)
  | [] => [[]]
  | c :: rest =>
    if mode = .code ∧ c = ';' then [c] :: cut .code rest
    else prepend c (cut (mode.next c rest.head?) rest)

/-- Holds of a line with more than blanks and a comment. -/
def lineHasCode (line : List Char) : Bool :=
  let line := Text.trim line
  !line.isEmpty && (Text.stripStart? ['/', '/'] line).isNone

/-- Holds of a part with a line that has code. -/
def hasCode (part : List Char) : Bool := (Text.pieces '\n' part).any lineHasCode

/-- The statements of a source, without the blanks around them. -/
def split (source : List Char) : List (List Char) :=
  ((cut .code source).filter hasCode).map Text.trim

/-- Putting a character in front adds it in front. -/
theorem flatten_prepend (c : Char) (parts : List (List Char)) :
    (prepend c parts).flatten = c :: parts.flatten := by
  cases parts <;> simp [prepend]

/-- Cutting loses no character. -/
theorem flatten_cut (mode : Mode) (source : List Char) : (cut mode source).flatten = source := by
  induction source generalizing mode with
  | nil => rfl
  | cons c rest ih =>
    unfold cut
    split
    · simp [ih]
    · rw [flatten_prepend, ih]

end PolicyLedger.Statements
