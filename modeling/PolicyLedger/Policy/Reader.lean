/-
**Reading stored policies.**

`ofJson?` reads a policy from its JSON form. Structures may be given as lists of their fields as
well. Members that are not known are refused, names must be in their written form, and a policy
with slots is none.
-/

import PolicyLedger.Json.Record
import PolicyLedger.Policy.Basic
import PolicyLedger.Policy.ValueJson

namespace PolicyLedger.Policy

open Json (Record)

/-- A structure that has no members but the named fields. -/
def structure? (names : List String) : Json → Option Record
  | .object members =>
    if members.all fun member => names.contains member.1 then Record.of? names (.object members)
    else none
  | value => Record.of? names value

/-- The name with a written form. -/
def nameOf? (value : Json) : Option Name := value.asText?.bind Name.ofText?

/-- The elements of a pattern. -/
def patternElements? (value : Json) : Option (List PatternElement) :=
  match value with
  | .object [("Literal", .text text)] => some (text.toList.map .char)
  | value => if value.asChoice? = some "Wildcard" then some [.wildcard] else none

namespace Expr

/-- An expression, given fuel for its depth. -/
def read? : Nat → Json → Option Expr
  | 0, _ => none
  | fuel + 1, .object [(key, body)] =>
    let under (record : Record) (name : String) : Option Expr := record.required name (read? fuel)
    let one (make : Expr → Expr) : Option Expr := do
      let record ← structure? ["arg"] body
      let arg ← under record "arg"
      return make arg
    if key = "Value" then ofValue? body
    else if key = "Var" then ((Json.asChoice? body).bind Variable.ofWord?).map .var
    else if key = "!" then one .not
    else if key = "neg" then one .negate
    else if key = "isEmpty" then one .isEmpty
    else if key = "." then do
      let record ← structure? ["left", "attr"] body
      let left ← under record "left"
      let name ← record.required "attr" Json.asText?
      return .attr left name
    else if key = "has" then do
      let record ← structure? ["left", "attr"] body
      let left ← under record "left"
      let names ← record.required "attr" fun
        | .text name => some [name]
        | value => value.asListOf? Json.asText?
      match names with
      | [] => none
      | first :: others => return .has left first others
    else if key = "like" then do
      let record ← structure? ["left", "pattern"] body
      let left ← under record "left"
      let pattern ← record.required "pattern" (Json.asListOf? patternElements?)
      return .like left pattern.flatten
    else if key = "is" then do
      let record ← structure? ["left", "entity_type", "in"] body
      let left ← under record "left"
      let type ← record.required "entity_type" nameOf?
      let group ← record.optional "in" (read? fuel)
      match group with
      | none => return .is left type
      | some group => return .isWithin left type group
    else if key = "if-then-else" then do
      let record ← structure? ["if", "then", "else"] body
      let condition ← under record "if"
      let yes ← under record "then"
      let no ← under record "else"
      return .ite condition yes no
    else if key = "Set" then (body.asListOf? (read? fuel)).map .set
    else if key = "Record" then
      match body with
      | .object members => do
        let fields ← members.mapM fun member =>
          (read? fuel member.2).map fun value => (member.1, value)
        return .record (fields.foldl (fun done field => KeyMap.place field.1 field.2 done) [])
      | _ => none
    else
      match BinaryOp.ofSymbol? key with
      | some op => do
        let record ← structure? ["left", "right"] body
        let left ← under record "left"
        let right ← under record "right"
        return .binary op left right
      | none => do
        let function ← Extension.ofName? key
        let args ← body.asListOf? (read? fuel)
        return .call function args
  | _ + 1, _ => none

/-- The expression in a value. -/
def ofJson? (value : Json) : Option Expr := read? (value.depth + 1) value

end Expr

/-- The members of a scope beside its operator. -/
def scopeMembers (members : List (String × Json)) : List (String × Json) :=
  members.filter fun member => member.1 ≠ "op"

/-- The entity that is the only member of an object. -/
def onlyEntity? (value : Json) : Option EntityUid :=
  match value with
  | .object [("entity", uid)] => EntityUid.ofJson? uid
  | _ => none

/-- The scope of a principal or a resource. -/
def EntityScope.ofJson? (value : Json) : Option EntityScope := do
  let op ← (value.member? "op").bind Json.asChoice?
  let rest := Json.object (scopeMembers value.members)
  if op = "All" ∨ op = "all" then some .all
  else if op = "==" then (onlyEntity? rest).map .equal
  else if op = "in" then (onlyEntity? rest).map .isIn
  else if op = "is" then do
    let record ← structure? ["entity_type", "in"] rest
    let type ← record.required "entity_type" nameOf?
    let group ← record.optional "in" onlyEntity?
    match group with
    | none => return .is type
    | some uid => return .isWithin type uid
  else none

/-- The scope of an action. -/
def ActionScope.ofJson? (value : Json) : Option ActionScope := do
  let op ← (value.member? "op").bind Json.asChoice?
  let rest := Json.object (scopeMembers value.members)
  if op = "All" ∨ op = "all" then some .all
  else if op = "==" then (onlyEntity? rest).map .equal
  else if op = "in" then
    match rest with
    | .object [("entities", uids)] => (uids.asListOf? EntityUid.ofJson?).map .isInAny
    | rest => (onlyEntity? rest).map .isIn
  else none

/-- A condition. -/
def Condition.ofJson? (value : Json) : Option Condition := do
  let record ← structure? ["kind", "body"] value
  let kind ← record.required "kind" fun word => (Json.asChoice? word).bind ConditionKind.ofWord?
  let body ← record.required "body" Expr.ofJson?
  return ⟨kind, body⟩

/-- The text of an annotation, which may be null. -/
def annotationOf? : Json → Option (Option String)
  | .null => some none
  | .text text => some (some text)
  | _ => none

/-- Annotations; their keys are identifiers. -/
def annotationsOf? : Json → Option (KeyMap (Option String))
  | .object members => do
    let rows ← members.mapM fun member =>
      if isIdentifier member.1.toList then
        (annotationOf? member.2).map fun text => (member.1, text)
      else none
    return .ofRows rows
  | _ => none

/-- The policy in a value. -/
def ofJson? (value : Json) : Option Policy := do
  let record ← structure?
    ["effect", "principal", "action", "resource", "conditions", "annotations"] value
  let effect ← record.required "effect" fun word => (Json.asChoice? word).bind Effect.ofWord?
  let principal ← record.required "principal" EntityScope.ofJson?
  let action ← record.required "action" ActionScope.ofJson?
  let resource ← record.required "resource" EntityScope.ofJson?
  let conditions ← record.required "conditions" (Json.asListOf? Condition.ofJson?)
  let annotations ← record.defaulted "annotations" .empty annotationsOf?
  if action.isWellTyped then
    return ⟨effect, principal, action, resource, conditions, annotations⟩
  else none

end PolicyLedger.Policy
