/-
**Tokens of policies.**

A source is a row of tokens with blanks and comments between them. A comment begins with two
slashes and ends at a line feed or a carriage return. A token is as long as possible; a text runs
to the next quotation mark that no backslash precedes, and its escapes are looked at later, since
patterns have one more.

* `Token.next?` reads one token;
* `tokens?` reads a whole source.
-/

import PolicyLedger.Policy.Expr
import PolicyLedger.Text.Blank
import PolicyLedger.Text.Digit

namespace PolicyLedger.Policy

/-- The marks that policies are written with. -/
inductive Mark
  | at
  | dot
  | comma
  | semicolon
  | colon
  | colons
  | openParen
  | closeParen
  | openBrace
  | closeBrace
  | openBracket
  | closeBracket
  | equal
  | notEqual
  | less
  | lessEqual
  | greater
  | greaterEqual
  | or
  | and
  | plus
  | minus
  | times
  | not
  deriving DecidableEq, Repr

/-- A word of a source; of a text, the characters between the quotation marks as they stand. -/
inductive Token
  | identifier (name : String)
  | number (value : Nat)
  | text (raw : List Char)
  | mark (mark : Mark)
  deriving DecidableEq, Repr

namespace Token

/-- What follows the blanks and comments before a token. -/
def skip : Nat → List Char → List Char
  | 0, cs => cs
  | fuel + 1, cs =>
    match Text.trimLeft cs with
    | '/' :: '/' :: rest => skip fuel (rest.dropWhile fun c => c ≠ '\n' ∧ c ≠ '\r')
    | rest => rest

/-- The characters up to the closing quotation mark as they stand, and the rest. A backslash takes
the next character with it, which must be on the same line. -/
def rawText? : List Char → Option (List Char × List Char)
  | [] => none
  | '\\' :: c :: rest =>
    if c = '\n' then none
    else (rawText? rest).map fun (read, rest) => ('\\' :: c :: read, rest)
  | c :: rest =>
    if c = '"' then some ([], rest)
    else if c = '\\' then none
    else (rawText? rest).map fun (read, rest) => (c :: read, rest)

/-- The mark that a source begins with, and the rest. -/
def mark? : List Char → Option (Mark × List Char)
  | ':' :: ':' :: rest => some (.colons, rest)
  | '=' :: '=' :: rest => some (.equal, rest)
  | '!' :: '=' :: rest => some (.notEqual, rest)
  | '<' :: '=' :: rest => some (.lessEqual, rest)
  | '>' :: '=' :: rest => some (.greaterEqual, rest)
  | '|' :: '|' :: rest => some (.or, rest)
  | '&' :: '&' :: rest => some (.and, rest)
  | '@' :: rest => some (.at, rest)
  | '.' :: rest => some (.dot, rest)
  | ',' :: rest => some (.comma, rest)
  | ';' :: rest => some (.semicolon, rest)
  | ':' :: rest => some (.colon, rest)
  | '(' :: rest => some (.openParen, rest)
  | ')' :: rest => some (.closeParen, rest)
  | '\x7b' :: rest => some (.openBrace, rest)
  | '\x7d' :: rest => some (.closeBrace, rest)
  | '[' :: rest => some (.openBracket, rest)
  | ']' :: rest => some (.closeBracket, rest)
  | '<' :: rest => some (.less, rest)
  | '>' :: rest => some (.greater, rest)
  | '+' :: rest => some (.plus, rest)
  | '-' :: rest => some (.minus, rest)
  | '*' :: rest => some (.times, rest)
  | '!' :: rest => some (.not, rest)
  | _ => none

/-- The token that a source begins with, and the rest. -/
def next? : List Char → Option (Token × List Char)
  | [] => none
  | c :: rest =>
    if c = '"' then (rawText? rest).map fun (raw, rest) => (text raw, rest)
    else if isIdentifierStart c then
      some (identifier (String.ofList (c :: rest.takeWhile isIdentifierPart)),
        rest.dropWhile isIdentifierPart)
    else if Text.isDigit c then
      let digits := c :: rest.takeWhile Text.isDigit
      some (number (Text.decimalValue digits), rest.dropWhile Text.isDigit)
    else (mark? (c :: rest)).map fun (read, rest) => (mark read, rest)

/-- The tokens of a source, given fuel for each of them and the end. -/
def readAll : Nat → List Char → Option (List Token)
  | 0, _ => none
  | fuel + 1, cs =>
    match skip (fuel + 1) cs with
    | [] => some []
    | c :: rest =>
      match next? (c :: rest) with
      | none => none
      | some (token, rest) => (readAll fuel rest).map fun tokens => token :: tokens

end Token

/-- The tokens of a source. -/
def tokens? (source : List Char) : Option (List Token) := Token.readAll (source.length + 1) source

/-! ### Texts -/

/-- The digits of a number in braces, and what follows the closing brace: at most `room` digits, and
underscores among them but not in front. -/
def bracedDigits : Nat → Nat → List Char → Option (Nat × List Char)
  | _, _, [] => none
  | room, value, c :: rest =>
    if c = '\x7d' then some (value, rest)
    else if c = '_' then bracedDigits room value rest
    else
      match Text.hexValue? c, room with
      | some digit, room + 1 => bracedDigits room (16 * value + digit) rest
      | _, _ => none

/-- The character of an escape, after its backslash, and the rest. -/
def escape? : List Char → Option (Char × List Char)
  | [] => none
  | c :: rest =>
    if c = 'n' then some ('\n', rest)
    else if c = 'r' then some ('\r', rest)
    else if c = 't' then some ('\t', rest)
    else if c = '0' then some ('\x00', rest)
    else if c = '\\' ∨ c = '"' ∨ c = '\x27' then some (c, rest)
    else if c = 'x' then
      match rest with
      | high :: low :: rest => do
        let high ← Text.hexValue? high
        let low ← Text.hexValue? low
        if high < 8 then some (Char.ofNat (16 * high + low), rest) else none
      | _ => none
    else if c = 'u' then
      match rest with
      | '\x7b' :: first :: rest => do
        let digit ← Text.hexValue? first
        let (code, rest) ← bracedDigits 5 digit rest
        let char ← Text.scalar? code
        return (char, rest)
      | _ => none
    else none

/-- The elements of a pattern that a text stands for. An escaped asterisk stands for itself, any
other asterisk, even one that an escape by number stands for, for any row of characters. -/
def pattern? : Nat → List Char → Option (List PatternElement)
  | 0, _ => none
  | _ + 1, [] => some []
  | fuel + 1, '\\' :: '*' :: rest => (pattern? fuel rest).map fun read => .char '*' :: read
  | fuel + 1, '\\' :: rest => do
    let (c, rest) ← escape? rest
    let read ← pattern? fuel rest
    return (if c = '*' then .wildcard else .char c) :: read
  | fuel + 1, c :: rest =>
    if c = '\r' then none
    else (pattern? fuel rest).map fun read => (if c = '*' then .wildcard else .char c) :: read

/-- The characters that a text stands for. -/
def unescape? : Nat → List Char → Option (List Char)
  | 0, _ => none
  | _ + 1, [] => some []
  | fuel + 1, '\\' :: rest => do
    let (c, rest) ← escape? rest
    let read ← unescape? fuel rest
    return c :: read
  | fuel + 1, c :: rest =>
    if c = '\r' then none else (unescape? fuel rest).map fun read => c :: read

/-- The text that a token stands for. -/
def textOf? (raw : List Char) : Option String :=
  (unescape? (raw.length + 1) raw).map String.ofList

/-- The pattern that a token stands for. -/
def patternOf? (raw : List Char) : Option (List PatternElement) := pattern? (raw.length + 1) raw

end PolicyLedger.Policy
