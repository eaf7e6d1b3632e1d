/-
**The JSON form of policies.**

A policy is stored as an object with its effect, its scopes, its conditions and its annotations,
which are left out if there are none. Every expression is an object with one member, whose key says
what the expression is.
-/

import PolicyLedger.Json.Basic
import PolicyLedger.Policy.Basic

namespace PolicyLedger.Policy

/-- The object for the name of an entity. -/
def EntityUid.toJson (uid : EntityUid) : Json :=
  .object [("type", .text uid.type.text), ("id", .text uid.id)]

/-- The value for a literal. -/
def Literal.toJson : Literal → Json
  | bool value => .bool value
  | int value => .ofInt64 value
  | text value => .text value
  | entity uid => .object [("__entity", uid.toJson)]

/-- The value for an element of a pattern. -/
def PatternElement.toJson : PatternElement → Json
  | wildcard => .text "Wildcard"
  | char c => .object [("Literal", .text (String.singleton c))]

namespace Expr

/-- An object with one member. -/
def tagged (key : String) (value : Json) : Json := .object [(key, value)]

mutual

/-- The object for an expression. -/
def toJson : Expr → Json
  | literal value => tagged "Value" value.toJson
  | var part => tagged "Var" (.text part.word)
  | not arg => tagged "!" (.object [("arg", toJson arg)])
  | negate arg => tagged "neg" (.object [("arg", toJson arg)])
  | isEmpty arg => tagged "isEmpty" (.object [("arg", toJson arg)])
  | binary op left right =>
    tagged op.symbol (.object [("left", toJson left), ("right", toJson right)])
  | attr left name => tagged "." (.object [("left", toJson left), ("attr", .text name)])
  | has left first others =>
    tagged "has" (.object [("left", toJson left),
      ("attr", if others.isEmpty then .text first else .list ((first :: others).map .text))])
  | like left pattern =>
    tagged "like" (.object [("left", toJson left),
      ("pattern", .list (pattern.map PatternElement.toJson))])
  | is left type =>
    tagged "is" (.object [("left", toJson left), ("entity_type", .text type.text)])
  | isWithin left type group =>
    tagged "is" (.object [("left", toJson left), ("entity_type", .text type.text),
      ("in", toJson group)])
  | ite condition yes no =>
    tagged "if-then-else" (.object [("if", toJson condition), ("then", toJson yes),
      ("else", toJson no)])
  | set items => tagged "Set" (.list (itemsToJson items))
  | record fields => tagged "Record" (.object (fieldsToJson fields))
  | call function args => tagged function.name (.list (itemsToJson args))

/-- The objects for some expressions. -/
def itemsToJson : List Expr → List Json
  | [] => []
  | item :: rest => toJson item :: itemsToJson rest

/-- The members for the fields of a record. -/
def fieldsToJson : List (String × Expr) → List (String × Json)
  | [] => []
  | (key, value) :: rest => (key, toJson value) :: fieldsToJson rest

end

end Expr

/-- The object for the scope of a principal or a resource. -/
def EntityScope.toJson : EntityScope → Json
  | all => .object [("op", .text "All")]
  | equal uid => .object [("op", .text "=="), ("entity", uid.toJson)]
  | isIn uid => .object [("op", .text "in"), ("entity", uid.toJson)]
  | is type => .object [("op", .text "is"), ("entity_type", .text type.text)]
  | isWithin type uid =>
    .object [("op", .text "is"), ("entity_type", .text type.text),
      ("in", .object [("entity", uid.toJson)])]

/-- The object for the scope of an action. -/
def ActionScope.toJson : ActionScope → Json
  | all => .object [("op", .text "All")]
  | equal uid => .object [("op", .text "=="), ("entity", uid.toJson)]
  | isIn uid => .object [("op", .text "in"), ("entity", uid.toJson)]
  | isInAny uids =>
    .object [("op", .text "in"), ("entities", .list (uids.map EntityUid.toJson))]

/-- The object for a condition. -/
def Condition.toJson (condition : Condition) : Json :=
  .object [("kind", .text condition.kind.word), ("body", condition.body.toJson)]

/-- The value for the text of an annotation. -/
def annotationJson (text : Option String) : Json :=
  match text with
  | some text => .text text
  | none => .null

/-- The members of a policy's object. -/
def toMembers (policy : Policy) : List (String × Json) :=
  [("effect", .text policy.effect.word), ("principal", policy.principal.toJson),
    ("action", policy.action.toJson), ("resource", policy.resource.toJson),
    ("conditions", .list (policy.conditions.map Condition.toJson))] ++
    if policy.annotations.rows.isEmpty then []
    else [("annotations",
      .object (policy.annotations.rows.map fun row => (row.1, annotationJson row.2)))]

/-- The object for a policy. -/
def toJson (policy : Policy) : Json := .object policy.toMembers

end PolicyLedger.Policy
