/-
**Reading policies.**

The readers take the tokens at hand and give what they read with the tokens that are left.
Expressions are read by the levels of their operators: a conditional, disjunctions, conjunctions,
at most one comparison, sums, products, signs, and primaries with accesses. The readers of
expressions call each other on a decreasing amount of fuel, for which a multiple of the number of
tokens before the next semicolon suffices, since no expression has one.

* `parse?` reads a source that is one policy, `parseAll?` a source that is any number of them.
-/

import PolicyLedger.Policy.Basic
import PolicyLedger.Policy.Token

namespace PolicyLedger.Policy

namespace Parser

/-- What follows an expected mark. -/
def expect? (mark : Mark) : List Token → Option (List Token)
  | .mark found :: rest => if found = mark then some rest else none
  | _ => none

/-- What follows an expected word. -/
def word? (word : String) : List Token → Option (List Token)
  | .identifier found :: rest => if found = word then some rest else none
  | _ => none

/-- What follows a mark, if the mark is there. -/
def skipMark (mark : Mark) (tokens : List Token) : List Token := (expect? mark tokens).getD tokens

/-- The number of tokens before the next semicolon, where every policy ends. -/
def room (tokens : List Token) : Nat :=
  (tokens.takeWhile fun token => token ≠ .mark .semicolon).length

/-- Fuel for the expressions among some tokens. -/
def fuelFor (tokens : List Token) : Nat := 10 * room tokens + 10

/-! ### Names -/

/-- The parts of a name after its first part, and the rest; a text ends them. -/
def moreParts : List Token → List String × List Token
  | .mark .colons :: .identifier part :: rest =>
    let (parts, rest) := moreParts rest
    (part :: parts, rest)
  | rest => ([], rest)

/-- A name, and the rest. -/
def name? : List Token → Option (Name × List Token)
  | .identifier first :: rest =>
    let (parts, rest) := moreParts rest
    (Name.ofParts? (first :: parts)).map fun name => (name, rest)
  | _ => none

/-- The name of an entity, and the rest. -/
def entity? (tokens : List Token) : Option (EntityUid × List Token) := do
  let (type, rest) ← name? tokens
  match rest with
  | .mark .colons :: .text raw :: rest =>
    let id ← textOf? raw
    return (⟨type, id⟩, rest)
  | _ => none

/-! ### Expressions -/

/-- The whole number of 64 bits. -/
def int? (value : Int) : Option Expr :=
  if -9223372036854775808 ≤ value ∧ value < 9223372036854775808 then
    some (.literal (.int (Int64.ofInt value)))
  else none

/-- The operators of comparisons. -/
def comparison? : Mark → Option BinaryOp
  | .equal => some .equal
  | .notEqual => some .notEqual
  | .less => some .less
  | .lessEqual => some .lessEqual
  | .greater => some .greater
  | .greaterEqual => some .greaterEqual
  | _ => none

/-- An expression under a number of signs. -/
def wrap (sign : Expr → Expr) : Nat → Expr → Expr
  | 0, expr => expr
  | count + 1, expr => sign (wrap sign count expr)

/-- The number of equal marks in front, and the rest. -/
def countMarks (mark : Mark) : List Token → Nat × List Token
  | .mark found :: rest =>
    if found = mark then
      let (count, rest) := countMarks mark rest
      (count + 1, rest)
    else (0, .mark found :: rest)
  | rest => (0, rest)

/-- The greatest number of signs in front of an operand. -/
def maxSigns : Nat := 4

/-- The expression of a method call. -/
def method? (receiver : Expr) (name : String) (args : List Expr) : Option Expr :=
  match BinaryOp.ofMethod? name with
  | some op =>
    match args with
    | [arg] => some (.binary op receiver arg)
    | _ => none
  | none =>
    if name = "isEmpty" then
      match args with
      | [] => some (.isEmpty receiver)
      | _ => none
    else
      match Extension.ofName? name with
      | some function =>
        if function.isMethod then some (.call function (receiver :: args)) else none
      | none => none

/-- Holds of the identifiers that can stand for an attribute. -/
def isAttribute (identifier : String) : Bool := isNamePart identifier

/-- The attributes after the first one on the right of `has`, and the rest. -/
def moreAttributes : List Token → Option (List String × List Token)
  | .mark .dot :: .identifier name :: rest =>
    if isAttribute name then (moreAttributes rest).map fun (names, rest) => (name :: names, rest)
    else none
  | .mark .dot :: _ => none
  | rest => some ([], rest)

/-- An expression with what stands on the right of `has`, and the rest. -/
def hasRight? (left : Expr) : List Token → Option (Expr × List Token)
  | .text raw :: rest => (textOf? raw).map fun name => (.has left name [], rest)
  | .identifier first :: rest =>
    if isAttribute first then
      (moreAttributes rest).map fun (others, rest) => (.has left first others, rest)
    else none
  | _ => none

/-- An expression with what stands on the right of `like`, and the rest. -/
def likeRight? (left : Expr) : List Token → Option (Expr × List Token)
  | .text raw :: rest => (patternOf? raw).map fun pattern => (.like left pattern, rest)
  | _ => none

/-- The key of a record's field, and what follows the colon. -/
def key? : List Token → Option (String × List Token)
  | .identifier name :: .mark .colon :: rest => if isAttribute name then some (name, rest) else none
  | .text raw :: .mark .colon :: rest => (textOf? raw).map fun name => (name, rest)
  | _ => none

/-- Holds if an access follows. -/
def startsAccess : List Token → Bool
  | .mark .dot :: _ | .mark .openBracket :: _ | .mark .openParen :: _ => true
  | _ => false

mutual

/-- An expression, and the rest. -/
def expr? : Nat → List Token → Option (Expr × List Token)
  | 0, _ => none
  | fuel + 1, tokens =>
    match word? "if" tokens with
    | some rest => do
      let (condition, rest) ← expr? fuel rest
      let rest ← word? "then" rest
      let (yes, rest) ← expr? fuel rest
      let rest ← word? "else" rest
      let (no, rest) ← expr? fuel rest
      return (.ite condition yes no, rest)
    | none => do
      let (left, rest) ← conjunction? fuel tokens
      disjunctionTail? fuel left rest

/-- A disjunction that begins with an operand, and the rest. -/
def disjunctionTail? : Nat → Expr → List Token → Option (Expr × List Token)
  | 0, _, _ => none
  | fuel + 1, left, tokens =>
    match tokens with
    | .mark .or :: rest => do
      let (right, rest) ← conjunction? fuel rest
      disjunctionTail? fuel (.binary .or left right) rest
    | rest => some (left, rest)

/-- A conjunction, and the rest. -/
def conjunction? : Nat → List Token → Option (Expr × List Token)
  | 0, _ => none
  | fuel + 1, tokens => do
    let (left, rest) ← relation? fuel tokens
    conjunctionTail? fuel left rest

/-- A conjunction that begins with an operand, and the rest. -/
def conjunctionTail? : Nat → Expr → List Token → Option (Expr × List Token)
  | 0, _, _ => none
  | fuel + 1, left, tokens =>
    match tokens with
    | .mark .and :: rest => do
      let (right, rest) ← relation? fuel rest
      conjunctionTail? fuel (.binary .and left right) rest
    | rest => some (left, rest)

/-- At most one comparison, and the rest. -/
def relation? : Nat → List Token → Option (Expr × List Token)
  | 0, _ => none
  | fuel + 1, tokens => do
    let (left, rest) ← sum? fuel tokens
    match rest with
    | .mark mark :: after =>
      match comparison? mark with
      | some op => do
        let (right, rest) ← sum? fuel after
        return (.binary op left right, rest)
      | none => return (left, rest)
    | .identifier word :: after =>
      if word = "in" then do
        let (right, rest) ← sum? fuel after
        return (.binary .isIn left right, rest)
      else if word = "has" then hasRight? left after
      else if word = "like" then likeRight? left after
      else if word = "is" then do
        let (type, rest) ← name? after
        match word? "in" rest with
        | some rest => do
          let (group, rest) ← sum? fuel rest
          return (.isWithin left type group, rest)
        | none => return (.is left type, rest)
      else return (left, rest)
    | _ => return (left, rest)

/-- A sum, and the rest. -/
def sum? : Nat → List Token → Option (Expr × List Token)
  | 0, _ => none
  | fuel + 1, tokens => do
    let (left, rest) ← product? fuel tokens
    sumTail? fuel left rest

/-- A sum that begins with an operand, and the rest. -/
def sumTail? : Nat → Expr → List Token → Option (Expr × List Token)
  | 0, _, _ => none
  | fuel + 1, left, tokens =>
    match tokens with
    | .mark .plus :: rest => do
      let (right, rest) ← product? fuel rest
      sumTail? fuel (.binary .plus left right) rest
    | .mark .minus :: rest => do
      let (right, rest) ← product? fuel rest
      sumTail? fuel (.binary .minus left right) rest
    | rest => some (left, rest)

/-- A product, and the rest. -/
def product? : Nat → List Token → Option (Expr × List Token)
  | 0, _ => none
  | fuel + 1, tokens => do
    let (left, rest) ← signed? fuel tokens
    productTail? fuel left rest

/-- A product that begins with an operand, and the rest. -/
def productTail? : Nat → Expr → List Token → Option (Expr × List Token)
  | 0, _, _ => none
  | fuel + 1, left, tokens =>
    match tokens with
    | .mark .times :: rest => do
      let (right, rest) ← signed? fuel rest
      productTail? fuel (.binary .times left right) rest
    | rest => some (left, rest)

/-- An operand under signs of one kind. A minus right before a number belongs to the number. -/
def signed? : Nat → List Token → Option (Expr × List Token)
  | 0, _ => none
  | fuel + 1, tokens =>
    let (nots, rest) := countMarks .not tokens
    if 0 < nots then
      if nots ≤ maxSigns then
        (member? fuel rest).map fun (arg, rest) => (wrap .not nots arg, rest)
      else none
    else
      let (minuses, rest) := countMarks .minus tokens
      if maxSigns < minuses then none
      else
        match minuses, rest with
        | 0, rest => member? fuel rest
        | minuses + 1, .number value :: after =>
          if startsAccess after then
            (member? fuel rest).map fun (arg, rest) => (wrap .negate (minuses + 1) arg, rest)
          else (int? (-(value : Int))).map fun arg => (wrap .negate minuses arg, after)
        | minuses, rest =>
          (member? fuel rest).map fun (arg, rest) => (wrap .negate minuses arg, rest)

/-- A primary with accesses, and the rest. -/
def member? : Nat → List Token → Option (Expr × List Token)
  | 0, _ => none
  | fuel + 1, tokens => do
    let (left, rest) ← primary? fuel tokens
    accesses? fuel left rest

/-- An expression with the accesses that follow it, and the rest. -/
def accesses? : Nat → Expr → List Token → Option (Expr × List Token)
  | 0, _, _ => none
  | fuel + 1, left, tokens =>
    match tokens with
    | .mark .dot :: .identifier name :: .mark .openParen :: rest => do
      let (args, rest) ← items? fuel .closeParen rest
      let call ← method? left name args
      accesses? fuel call rest
    | .mark .dot :: .identifier name :: rest =>
      if isAttribute name then accesses? fuel (.attr left name) rest else none
    | .mark .dot :: _ => none
    | .mark .openBracket :: .text raw :: .mark .closeBracket :: rest => do
      let name ← textOf? raw
      accesses? fuel (.attr left name) rest
    | .mark .openBracket :: _ => none
    | .mark .openParen :: _ => none
    | rest => some (left, rest)

/-- A literal, a variable, the name of an entity, a call, a list, a record or an expression in
parentheses, and the rest. -/
def primary? : Nat → List Token → Option (Expr × List Token)
  | 0, _ => none
  | fuel + 1, tokens =>
    match tokens with
    | .number value :: rest => (int? value).map fun arg => (arg, rest)
    | .text raw :: rest => (textOf? raw).map fun value => (.literal (.text value), rest)
    | .mark .openParen :: rest => do
      let (inner, rest) ← expr? fuel rest
      let rest ← expect? .closeParen rest
      return (inner, rest)
    | .mark .openBracket :: rest =>
      (items? fuel .closeBracket rest).map fun (items, rest) => (.set items, rest)
    | .mark .openBrace :: rest =>
      (fields? fuel [] rest).map fun (fields, rest) => (.record fields, rest)
    | .identifier first :: rest =>
      if first = "true" then some (.literal (.bool true), rest)
      else if first = "false" then some (.literal (.bool false), rest)
      else
        match rest with
        | .mark .colons :: _ =>
          (entity? tokens).map fun (uid, rest) => (.literal (.entity uid), rest)
        | .mark .openParen :: rest =>
          match (Extension.ofName? first).filter fun function => !function.isMethod with
          | some function =>
            (items? fuel .closeParen rest).map fun (args, rest) => (.call function args, rest)
          | none => none
        | rest => (Variable.ofWord? first).map fun part => (.var part, rest)
    | _ => none

/-- Expressions with commas between them up to a closing mark, and the rest; a comma may precede the
closing mark. -/
def items? : Nat → Mark → List Token → Option (List Expr × List Token)
  | 0, _, _ => none
  | fuel + 1, close, tokens =>
    match expect? close tokens with
    | some rest => some ([], rest)
    | none => do
      let (item, rest) ← expr? fuel tokens
      match expect? .comma rest with
      | some rest => (items? fuel close rest).map fun (items, rest) => (item :: items, rest)
      | none => (expect? close rest).map fun rest => ([item], rest)

/-- Fields with commas between them up to a closing brace, added to those at hand, and the rest; no
key may be repeated, and a comma may precede the closing brace. -/
def fields? : Nat → List (String × Expr) → List Token → Option (List (String × Expr) × List Token)
  | 0, _, _ => none
  | fuel + 1, done, tokens =>
    match expect? .closeBrace tokens with
    | some rest => some (done, rest)
    | none => do
      let (key, rest) ← key? tokens
      let (value, rest) ← expr? fuel rest
      if done.any fun field => field.1 = key then none
      else
        let done := KeyMap.place key value done
        match expect? .comma rest with
        | some rest => fields? fuel done rest
        | none => (expect? .closeBrace rest).map fun rest => (done, rest)

end

/-! ### Policies -/

/-- The annotations in front of a policy, added to those at hand, and the rest; no key may be
repeated. -/
def annotations? : Nat → KeyMap (Option String) → List Token →
    Option (KeyMap (Option String) × List Token)
  | 0, _, _ => none
  | fuel + 1, done, tokens =>
    match tokens with
    | .mark .at :: .identifier key :: rest =>
      if done.contains key then none
      else
        match rest with
        | .mark .openParen :: .text raw :: .mark .closeParen :: rest => do
          let value ← textOf? raw
          annotations? fuel (done.insert key (some value)) rest
        | .mark .openParen :: _ => none
        | rest => annotations? fuel (done.insert key none) rest
    | .mark .at :: _ => none
    | rest => some (done, rest)

/-- The name of an entity in any number of parentheses, and the rest. -/
def scopeEntity? : Nat → List Token → Option (EntityUid × List Token)
  | 0, _ => none
  | fuel + 1, tokens =>
    match tokens with
    | .mark .openParen :: rest => do
      let (uid, rest) ← scopeEntity? fuel rest
      let rest ← expect? .closeParen rest
      return (uid, rest)
    | rest => entity? rest

/-- The names of entities up to a closing bracket, and the rest. -/
def scopeEntities? : Nat → List Token → Option (List EntityUid × List Token)
  | 0, _ => none
  | fuel + 1, tokens =>
    match expect? .closeBracket tokens with
    | some rest => some ([], rest)
    | none => do
      let (uid, rest) ← scopeEntity? (room tokens) tokens
      match expect? .comma rest with
      | some rest => (scopeEntities? fuel rest).map fun (uids, rest) => (uid :: uids, rest)
      | none => (expect? .closeBracket rest).map fun rest => ([uid], rest)

/-- A list of entities in any number of parentheses, and the rest. -/
def scopeList? : Nat → List Token → Option (List EntityUid × List Token)
  | 0, _ => none
  | fuel + 1, tokens =>
    match tokens with
    | .mark .openParen :: rest => do
      let (uids, rest) ← scopeList? fuel rest
      let rest ← expect? .closeParen rest
      return (uids, rest)
    | .mark .openBracket :: rest => scopeEntities? fuel rest
    | _ => none

/-- The scope of a principal or a resource after its word, and the rest. -/
def entityScope? (tokens : List Token) : Option (EntityScope × List Token) :=
  match tokens with
  | .mark .equal :: rest =>
    (scopeEntity? (room rest + 1) rest).map fun (uid, rest) => (.equal uid, rest)
  | .identifier word :: rest =>
    if word = "in" then
      (scopeEntity? (room rest + 1) rest).map fun (uid, rest) => (.isIn uid, rest)
    else if word = "is" then do
      let (type, rest) ← name? rest
      match word? "in" rest with
      | some rest =>
        (scopeEntity? (room rest + 1) rest).map fun (uid, rest) => (.isWithin type uid, rest)
      | none => return (.is type, rest)
    else none
  | rest => some (.all, rest)

/-- The scope of an action after its word, and the rest. -/
def actionScope? (tokens : List Token) : Option (ActionScope × List Token) :=
  match tokens with
  | .mark .equal :: rest =>
    (scopeEntity? (room rest + 1) rest).map fun (uid, rest) => (.equal uid, rest)
  | .identifier word :: rest =>
    if word = "in" then
      match scopeList? (room rest + 1) rest with
      | some (uids, rest) => some (.isInAny uids, rest)
      | none => (scopeEntity? (room rest + 1) rest).map fun (uid, rest) => (.isIn uid, rest)
    else none
  | rest => some (.all, rest)

/-- The conditions of a policy up to its semicolon, and the rest. -/
def conditions? : Nat → List Token → Option (List Condition × List Token)
  | 0, _ => none
  | fuel + 1, tokens =>
    match tokens with
    | .mark .semicolon :: rest => some ([], rest)
    | .identifier word :: .mark .openBrace :: rest => do
      let kind ← ConditionKind.ofWord? word
      let (body, rest) ← expr? (fuelFor rest) rest
      let rest ← expect? .closeBrace rest
      let (conditions, rest) ← conditions? fuel rest
      return (⟨kind, body⟩ :: conditions, rest)
    | _ => none

/-- A policy, and the rest. -/
def policy? (tokens : List Token) : Option (Policy × List Token) := do
  let (annotations, rest) ← annotations? (room tokens + 1) .empty tokens
  match rest with
  | .identifier effectWord :: .mark .openParen :: rest =>
    let effect ← Effect.ofWord? effectWord
    let rest ← word? "principal" rest
    let (principal, rest) ← entityScope? rest
    let rest ← expect? .comma rest
    let rest ← word? "action" rest
    let (action, rest) ← actionScope? rest
    let rest ← expect? .comma rest
    let rest ← word? "resource" rest
    let (resource, rest) ← entityScope? rest
    let rest ← expect? .closeParen (skipMark .comma rest)
    let (conditions, rest) ← conditions? (room rest + 1) rest
    if action.isWellTyped then
      return (⟨effect, principal, action, resource, conditions, annotations⟩, rest)
    else none
  | _ => none

/-- Policies up to the end. -/
def policies? : Nat → List Token → Option (List Policy)
  | 0, _ => none
  | _ + 1, [] => some []
  | fuel + 1, tokens => do
    let (policy, rest) ← policy? tokens
    let policies ← policies? fuel rest
    return policy :: policies

end Parser

/-- The policy that a source is. -/
def parse? (source : List Char) : Option Policy :=
  match (tokens? source).bind Parser.policy? with
  | some (policy, []) => some policy
  | _ => none

/-- The policies that a source is a row of. -/
def parseAll? (source : List Char) : Option (List Policy) :=
  (tokens? source).bind fun tokens => Parser.policies? (tokens.length + 1) tokens

end PolicyLedger.Policy
