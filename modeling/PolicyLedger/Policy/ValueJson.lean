/-
**Values in JSON.**

Attributes of entities, contexts and literals of stored policies are JSON values. Three kinds of
objects are escapes: a member `__entity` holds the name of an entity, `__extn` a call of a
function, and `__expr` is refused. An object whose escape is malformed is a plain record. Null and
numbers that are not whole or do not fit 64 bits with a sign are no values.

* `EntityUid.ofJson?` reads the name of an entity, with or without its escape;
* `Expr.ofValue?` reads a value as the expression that makes it.
-/

import PolicyLedger.Json.Basic
import PolicyLedger.KeyMap
import PolicyLedger.Policy.Expr

namespace PolicyLedger.Policy

/-- The type and the id in an object with both of them, or in a list of the two. -/
def typeAndId? : Json → Option (String × String)
  | .object members =>
    match members.lookup "type", members.lookup "id" with
    | some (.text type), some (.text id) => some (type, id)
    | _, _ => none
  | .list [.text type, .text id] => some (type, id)
  | _ => none

namespace EntityUid

/-- The name of an entity with a type and an id. -/
def ofTexts? (texts : String × String) : Option EntityUid :=
  (Name.ofText? texts.1).map fun type => ⟨type, texts.2⟩

/-- The name of an entity in a value, with or without its escape. -/
def ofJson? (value : Json) : Option EntityUid :=
  match value.member? "__expr" with
  | some (.text _) => none
  | _ =>
    match (value.member? "__entity").bind typeAndId? with
    | some texts => ofTexts? texts
    | none => (typeAndId? value).bind ofTexts?

end EntityUid

/-- The function and the argument values in an object. -/
def functionCall? (value : Json) : Option (String × List Json) :=
  match value.member? "fn", value.member? "arg", value.member? "args" with
  | some (.text function), some arg, _ => some (function, [arg])
  | some (.text function), none, some (.list args) => some (function, args)
  | _, _, _ => none

namespace Expr

/-- The expression that makes a whole number. -/
def ofNumber? : Json.Number → Option Expr
  | .whole value _ =>
    if value < 9223372036854775808 then some (.literal (.int (Int64.ofInt value))) else none
  | .double _ => none

/-- What an object stands for, before its members are read. -/
inductive Escape
  | refused
  | entity (texts : String × String)
  | call (function : String) (args : List Json)
  | plain

/-- What an object stands for. -/
def escapeOf (value : Json) : Escape :=
  match value.member? "__expr" with
  | some (.text _) => .refused
  | _ =>
    match (value.member? "__entity").bind typeAndId? with
    | some texts => .entity texts
    | none =>
      match (value.member? "__extn").bind functionCall? with
      | some (function, args) => .call function args
      | none => .plain

/-- The expression that makes a value, given fuel for its depth. -/
def readValue? : Nat → Json → Option Expr
  | 0, _ => none
  | fuel + 1, value =>
    match value with
    | .null => none
    | .bool value => some (.literal (.bool value))
    | .number value => ofNumber? value
    | .text value => some (.literal (.text value))
    | .list items => (items.mapM (readValue? fuel)).map .set
    | .object members =>
      match escapeOf (.object members) with
      | .refused => none
      | .entity texts => (EntityUid.ofTexts? texts).map fun uid => .literal (.entity uid)
      | .call name args => do
        let function ← Extension.ofName? name
        let args ← args.mapM (readValue? fuel)
        return .call function args
      | .plain => do
        let fields ← members.mapM fun member =>
          (readValue? fuel member.2).map fun value => (member.1, value)
        return .record (fields.foldl (fun done field => KeyMap.place field.1 field.2 done) [])

/-- The expression that makes a value. -/
def ofValue? (value : Json) : Option Expr := readValue? (value.depth + 1) value

end Expr

end PolicyLedger.Policy
