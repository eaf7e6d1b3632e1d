/-
**Reading TOML.**

`parse?` reads a document of TOML 1.0 as a table. A document is read line by line; values may span
lines. Each reader takes the characters at hand and gives what it read with the rest.
-/

import PolicyLedger.Text.Digit
import PolicyLedger.Time.Calendar
import PolicyLedger.Toml.Basic

namespace PolicyLedger.Toml

namespace Reader

/-! ### Characters -/

/-- Blanks inside a line. -/
def isSpace (c : Char) : Bool := c == ' ' || c == '\t'

/-- What follows the blanks. -/
def skip (cs : List Char) : List Char := cs.dropWhile isSpace

/-- Holds of the characters that may stand in a comment or a text: no control character but the
tab. -/
def isPlain (c : Char) : Bool := c == '\t' || (32 ≤ c.toNat && c.toNat ≠ 127)

/-- Holds of the characters of a key without quotation marks. -/
def isKeyChar (c : Char) : Bool :=
  Text.isDigit c || Text.isLetter c || c == '_' || c == '-'

/-- The value of a digit of a base up to sixteen. -/
def digit? (base : Nat) (c : Char) : Option Nat := (Text.hexValue? c).filter (· < base)

/-- What follows the end of a line. -/
def lineEnd? : List Char → Option (List Char)
  | '\n' :: rest => some rest
  | '\r' :: '\n' :: rest => some rest
  | _ => none

/-- What follows a comment, if there is one; its line does not end here. -/
def skipComment : List Char → List Char
  | '#' :: rest => rest.dropWhile isPlain
  | cs => cs

/-- What follows a line that has nothing more than a comment. -/
def restOfLine? (cs : List Char) : Option (List Char) :=
  match skipComment (skip cs) with
  | [] => some []
  | cs => lineEnd? cs

/-- What follows blanks, comments and ends of lines. -/
def skipLines : Nat → List Char → List Char
  | 0, cs => cs
  | fuel + 1, cs =>
    match lineEnd? (skipComment (skip cs)) with
    | some rest => skipLines fuel rest
    | none => skip cs

/-! ### Texts -/

/-- The character with a hexadecimal number of some digits, and the rest. -/
def scalar? (count : Nat) (cs : List Char) : Option (Char × List Char) := do
  let digits := cs.take count
  if digits.length = count then
    let code ← Text.hexNumber? digits
    let char ← Text.scalar? code
    return (char, cs.drop count)
  else none

/-- The character of an escape, after its backslash, and the rest. -/
def escape? : List Char → Option (Char × List Char)
  | [] => none
  | c :: rest =>
    if c = 'b' then some ('\x08', rest)
    else if c = 't' then some ('\t', rest)
    else if c = 'n' then some ('\n', rest)
    else if c = 'f' then some ('\x0C', rest)
    else if c = 'r' then some ('\r', rest)
    else if c = '"' ∨ c = '\\' then some (c, rest)
    else if c = 'u' then scalar? 4 rest
    else if c = 'U' then scalar? 8 rest
    else none

/-- The text up to a quotation mark, with escapes. -/
def basic? : Nat → List Char → Option (List Char × List Char)
  | 0, _ => none
  | _ + 1, [] => none
  | fuel + 1, c :: rest =>
    if c = '"' then some ([], rest)
    else if c = '\\' then do
      let (meant, rest) ← escape? rest
      let (read, rest) ← basic? fuel rest
      return (meant :: read, rest)
    else if isPlain c then (basic? fuel rest).map fun (read, rest) => (c :: read, rest)
    else none

/-- The text up to an apostrophe, without escapes. -/
def literal? : List Char → Option (List Char × List Char)
  | [] => none
  | c :: rest =>
    if c = '\x27' then some ([], rest)
    else if isPlain c then (literal? rest).map fun (read, rest) => (c :: read, rest)
    else none

/-- The text up to three marks, which at most two further marks may precede; with `escapes` a
backslash escapes, or joins lines if it ends one. -/
def long? (mark : Char) (escapes : Bool) : Nat → List Char → Option (List Char × List Char)
  | 0, _ => none
  | _ + 1, [] => none
  | fuel + 1, c :: rest =>
    let marks := ((c :: rest).takeWhile (· = mark)).length
    if 6 ≤ marks then none
    else if 3 ≤ marks then some (List.replicate (marks - 3) mark, (c :: rest).drop marks)
    else if c = '\\' ∧ escapes then
      match lineEnd? (skip rest) with
      | some after => long? mark escapes fuel (skipBreaks fuel after)
      | none => do
        let (meant, rest) ← escape? rest
        let (read, rest) ← long? mark escapes fuel rest
        return (meant :: read, rest)
    else if isPlain c then (long? mark escapes fuel rest).map fun (read, rest) => (c :: read, rest)
    else match lineEnd? (c :: rest) with
      | some after => (long? mark escapes fuel after).map fun (read, rest) => ('\n' :: read, rest)
      | none => none
where
  /-- What follows blanks and ends of lines. -/
  skipBreaks : Nat → List Char → List Char
    | 0, cs => cs
    | fuel + 1, cs =>
      match lineEnd? (skip cs) with
      | some rest => skipBreaks fuel rest
      | none => skip cs

/-- A text of many lines after its opening marks; a line end right there does not count. -/
def openLong? (mark : Char) (escapes : Bool) (cs : List Char) : Option (List Char × List Char) :=
  let cs := (lineEnd? cs).getD cs
  long? mark escapes (cs.length + 1) cs

/-- A text in quotation marks or apostrophes, on one line or more, and the rest. -/
def text? : List Char → Option (String × List Char)
  | '"' :: '"' :: '"' :: rest => finish (openLong? '"' true rest)
  | '\x27' :: '\x27' :: '\x27' :: rest => finish (openLong? '\x27' false rest)
  | '"' :: rest => finish (basic? (rest.length + 1) rest)
  | '\x27' :: rest => finish (literal? rest)
  | _ => none
where
  /-- Characters as a text. -/
  finish : Option (List Char × List Char) → Option (String × List Char)
    | some (read, rest) => some (String.ofList read, rest)
    | none => none

/-! ### Keys -/

/-- One part of a key, and the rest. -/
def keyPart? : List Char → Option (String × List Char)
  | '"' :: rest => text?.finish (basic? (rest.length + 1) rest)
  | '\x27' :: rest => text?.finish (literal? rest)
  | cs =>
    let read := cs.takeWhile isKeyChar
    if read.isEmpty then none else some (String.ofList read, cs.dropWhile isKeyChar)

/-- The parts of a key but the last, the last, and the rest; blanks around the parts are skipped. -/
def key? : Nat → List Char → Option (List String × String × List Char)
  | 0, _ => none
  | fuel + 1, cs => do
    let (part, rest) ← keyPart? (skip cs)
    match skip rest with
    | '.' :: rest =>
      let (path, key, rest) ← key? fuel rest
      return (part :: path, key, rest)
    | rest => return ([], part, rest)

/-! ### Numbers and moments -/

/-- A row of digits of a base, with single underscores between them, and the rest. -/
def digitRow? (base : Nat) : List Char → Option (List Nat × List Char)
  | [] => none
  | c :: rest =>
    match digit? base c with
    | none => none
    | some value =>
      match rest with
      | '_' :: d :: after =>
        if (digit? base d).isSome then
          (digitRow? base (d :: after)).map fun (values, rest) => (value :: values, rest)
        else none
      | ['_'] => none
      | d :: after =>
        if (digit? base d).isSome then
          (digitRow? base (d :: after)).map fun (values, rest) => (value :: values, rest)
        else some ([value], d :: after)
      | [] => some ([value], [])

/-- The number with some digits. -/
def ofDigits (base : Nat) (digits : List Nat) : Int :=
  Int.ofNat (digits.foldl (fun sum digit => sum * base + digit) 0)

/-- A whole number that fits 64 bits with a sign. -/
def fitting? (value : Int) : Option Value :=
  if -9223372036854775808 ≤ value ∧ value ≤ 9223372036854775807 then some (.whole value) else none

/-- A sign, if there is one, and the rest. -/
def sign : List Char → Int × List Char
  | '+' :: rest => (1, rest)
  | '-' :: rest => (-1, rest)
  | cs => (1, cs)

/-- Decimal digits without a zero in front, and the rest. -/
def decimal? (cs : List Char) : Option (List Nat × List Char) :=
  match cs with
  | '0' :: rest => some ([0], rest)
  | cs => digitRow? 10 cs

/-- An exponent, and the rest. -/
def exponent? : List Char → Option (List Char)
  | [] => none
  | c :: rest =>
    if c = 'e' ∨ c = 'E' then (digitRow? 10 (sign rest).2).map Prod.snd else none

/-- A fraction with an optional exponent, or an exponent, and the rest. -/
def fractional? : List Char → Option (List Char)
  | '.' :: rest => (digitRow? 10 rest).map fun (_, rest) => (exponent? rest).getD rest
  | cs => exponent? cs

/-- A number, and the rest. -/
def number? (cs : List Char) : Option (Value × List Char) :=
  let (factor, unsigned) := sign cs
  match (decimal? unsigned).bind fun (_, rest) => fractional? rest with
  | some rest => some (.other, rest)
  | none =>
    match unsigned with
    | 'i' :: 'n' :: 'f' :: rest => some (.other, rest)
    | 'n' :: 'a' :: 'n' :: rest => some (.other, rest)
    | _ =>
      match cs with
      | '0' :: 'x' :: rest => based 16 rest
      | '0' :: 'o' :: rest => based 8 rest
      | '0' :: 'b' :: rest => based 2 rest
      | _ => do
        let (digits, rest) ← decimal? unsigned
        let value ← fitting? (factor * ofDigits 10 digits)
        return (value, rest)
where
  /-- A number of a base other than ten, and the rest. -/
  based (base : Nat) (cs : List Char) : Option (Value × List Char) := do
    let (digits, rest) ← digitRow? base cs
    let value ← fitting? (ofDigits base digits)
    return (value, rest)

/-- A number of exactly some decimal digits between two bounds, and the rest. -/
def field? (width low high : Nat) (cs : List Char) : Option (Nat × List Char) :=
  (Text.fixedNumber? width cs).filter fun (value, _) => low ≤ value && value ≤ high

/-- What follows a time of day. -/
def time? (cs : List Char) : Option (List Char) := do
  let (_, cs) ← field? 2 0 23 cs
  let cs ← Text.after? ':' cs
  let (_, cs) ← field? 2 0 59 cs
  let cs ← Text.after? ':' cs
  let (_, cs) ← field? 2 0 60 cs
  match cs with
  | '.' :: rest =>
    if rest.head?.any Text.isDigit then some (rest.dropWhile Text.isDigit) else some cs
  | _ => some cs

/-- What follows an offset from universal time. -/
def offset? : List Char → Option (List Char)
  | [] => none
  | c :: rest =>
    if c = 'Z' ∨ c = 'z' then some rest
    else if c = '+' ∨ c = '-' then do
      let (_, rest) ← field? 2 0 23 rest
      let rest ← Text.after? ':' rest
      let (_, rest) ← field? 2 0 59 rest
      return rest
    else none

/-- What follows a date. -/
def date? (cs : List Char) : Option (List Char) := do
  let (year, cs) ← field? 4 0 9999 cs
  let cs ← Text.after? '-' cs
  let (month, cs) ← field? 2 1 12 cs
  let cs ← Text.after? '-' cs
  let (_, cs) ← field? 2 1 (Time.Date.monthLength year month) cs
  return cs

/-- What follows a date, a time, or a date with a time and an optional offset. -/
def moment? (cs : List Char) : Option (List Char) :=
  match date? cs with
  | none => time? cs
  | some rest =>
    match rest with
    | c :: after =>
      if c = 'T' ∨ c = 't' ∨ c = ' ' then
        match time? after with
        | some rest => some ((offset? rest).getD rest)
        | none => some rest
      else some rest
    | [] => some []

/-! ### Values -/

/-- The greatest depth of lists and inline tables. -/
def maxDepth : Nat := 79

mutual

/-- A value, and the rest; `room` is the depth still allowed. -/
def value? : Nat → Nat → List Char → Option (Value × List Char)
  | 0, _, _ => none
  | fuel + 1, room, cs =>
    match cs with
    | [] => none
    | c :: rest =>
      if c = '"' ∨ c = '\x27' then (text? cs).map fun (read, rest) => (.text read, rest)
      else if c = '[' then
        match room with
        | 0 => none
        | room + 1 => (items? fuel room rest).map fun rest => (.other, rest)
      else if c = '\x7b' then
        match room with
        | 0 => none
        | room + 1 =>
          match skip rest with
          | '\x7d' :: rest => some (.other, rest)
          | rest => (pairs? fuel room (.mk false false []) rest).map fun rest => (.other, rest)
      else if c = 't' then
        match rest with
        | 'r' :: 'u' :: 'e' :: rest => some (.flag true, rest)
        | _ => none
      else if c = 'f' then
        match rest with
        | 'a' :: 'l' :: 's' :: 'e' :: rest => some (.flag false, rest)
        | _ => none
      else
        match moment? cs with
        | some rest => some (.other, rest)
        | none => number? cs

/-- What follows the items of a list and its closing bracket. -/
def items? : Nat → Nat → List Char → Option (List Char)
  | 0, _, _ => none
  | fuel + 1, room, cs =>
    match skipLines (cs.length + 1) cs with
    | ']' :: rest => some rest
    | cs =>
      match value? fuel room cs with
      | none => none
      | some (_, rest) =>
        match skipLines (rest.length + 1) rest with
        | ']' :: rest => some rest
        | ',' :: rest => items? fuel room rest
        | _ => none

/-- What follows the pairs of an inline table and its closing brace. -/
def pairs? : Nat → Nat → Table → List Char → Option (List Char)
  | 0, _, _, _ => none
  | fuel + 1, room, table, cs =>
    match key? (cs.length + 1) cs with
    | some (path, key, '=' :: rest) =>
      match value? fuel room (skip rest) with
      | none => none
      | some (value, rest) =>
        match table.addValue path key value with
        | none => none
        | some table =>
          match skip rest with
          | '\x7d' :: rest => some rest
          | ',' :: rest => pairs? fuel room table rest
          | _ => none
    | _ => none

end

/-! ### Documents -/

/-- A document read so far, and the way to the table that its pairs go to. -/
structure State where
  root : Table
  current : List String

/-- The state after a header, and what follows its brackets. -/
def header? (state : State) : List Char → Option (State × List Char)
  | '[' :: cs => do
    let (path, key, rest) ← key? (cs.length + 1) cs
    match rest with
    | ']' :: ']' :: rest =>
      let root ← state.root.openItem path key
      return (⟨root, path ++ [key]⟩, rest)
    | _ => none
  | cs => do
    let (path, key, rest) ← key? (cs.length + 1) cs
    match rest with
    | ']' :: rest =>
      let root ← state.root.openTable path key
      return (⟨root, path ++ [key]⟩, rest)
    | _ => none

/-- The state after a key with its value, and the rest. -/
def pair? (state : State) (cs : List Char) : Option (State × List Char) := do
  let (path, key, rest) ← key? (cs.length + 1) cs
  match rest with
  | '=' :: rest =>
    let rest := skip rest
    let (value, rest) ← value? (2 * rest.length + 2) maxDepth rest
    let root ← state.root.change false (fun table => table.addValue path key value) state.current
    return (⟨root, state.current⟩, rest)
  | _ => none

/-- The table of a document, line by line. -/
def lines? : Nat → State → List Char → Option Table
  | 0, _, _ => none
  | fuel + 1, state, cs =>
    match skip cs with
    | [] => some state.root
    | c :: rest =>
      if c = '#' ∨ c = '\n' ∨ c = '\r' then (restOfLine? (c :: rest)).bind (lines? fuel state)
      else do
        let (state, rest) ← if c = '[' then header? state rest else pair? state (c :: rest)
        let rest ← restOfLine? rest
        lines? fuel state rest

end Reader

/-- The table of a document, which a byte order mark may precede. -/
def parse? (document : String) : Option Table :=
  let cs := match document.toList with
    | '\uFEFF' :: rest => rest
    | cs => cs
  Reader.lines? (cs.length + 1) ⟨.empty, []⟩ cs

end PolicyLedger.Toml
