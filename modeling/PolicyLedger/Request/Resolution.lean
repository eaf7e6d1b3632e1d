/-
**Requests as policies see them.**

Policies see a principal of a type of the platform, an action and a resource, with the entities that
the caller describes and one entity for each of the three that the caller does not describe.

* `Resolution.subjectType`: the three kinds of subjects, in any case;
* `Resolution.splitAction`: an action's name is its type and its id, with two colons between them;
* `Resolution.items`: the caller's entities come first and are not displaced.
-/

import PolicyLedger.Name
import PolicyLedger.Policy.EntitiesJson
import PolicyLedger.Request.Model

namespace PolicyLedger

open Policy (EntityUid Environment)

namespace Resolution

/-- The type of the principal for a kind of subject. -/
def subjectType (kind : String) : Except Error String :=
  let word := Text.uppered (Text.trimmed kind)
  if word = "USER" then .ok "ZTAuth::IAM::User"
  else if word = "ROLE-ACTOR" then .ok "ZTAuth::IAM::RoleActor"
  else if word = "TWIN-ACTOR" then .ok "ZTAuth::IAM::TwinActor"
  else .error (.subjectKind kind)

/-- The last part of the name of every action type. -/
def actionWord : List Char := ['A', 'c', 't', 'i', 'o', 'n']

/-- Holds of the texts that end as the names of action types do. -/
def isActionType (type : List Char) : Bool :=
  type = actionWord ||
    (Text.stripStart? (separator ++ actionWord).reverse type.reverse).isSome

/-- The type and the id in the name of an action. -/
def splitAction (name : String) : Except Error (String × String) :=
  match Text.splitLast? separator name.toList with
  | none => .error (.request (.actionFormat name))
  | some (type, id) =>
    let type := Text.trim type
    let id := Text.trim id
    if type.isEmpty then .error (.request (.actionType name))
    else if id.isEmpty then .error (.request (.actionId name))
    else
      let type := if isActionType type then type else type ++ separator ++ actionWord
      .ok (String.ofList type, String.ofList id)

/-- The description of an entity. -/
def entityJson (type id : String) (attributes : Properties) : Json :=
  .object [("uid", .object [("type", .text type), ("id", .text id)]),
    ("attrs", .object attributes), ("parents", .list [])]

/-- Holds of the descriptions of an entity whose type and id are members of its name. -/
def describes (type id : String) (item : Json) : Bool :=
  let part (key : String) : Option String :=
    ((item.member? "uid").bind fun uid => uid.member? key).bind Json.asText?
  part "type" = some type && part "id" = some id

/-- Descriptions with one of an entity, unless there is one. -/
def pushEntity (items : List Json) (type id : String) (attributes : Properties) : List Json :=
  if items.any (describes type id) then items else items ++ [entityJson type id attributes]

/-- The type and the id of the principal, the action and the resource. -/
structure Parties where
  principal : String × String
  action : String × String
  resource : String × String
  deriving DecidableEq, Repr

/-- The parties of a query. -/
def parties (query : AccessQuery) : Except Error Parties := do
  query.validate
  let subjectType ← subjectType query.subject.kind
  let action ← splitAction query.action.name
  return ⟨(subjectType, query.subject.id), action,
    (Text.trimmed query.resource.kind, query.resource.id)⟩

/-- The descriptions of all entities: the caller's, then one of each party that has none. -/
def items (query : AccessQuery) (found : Parties) : List Json :=
  let callers := query.items
  let withSubject :=
    pushEntity callers found.principal.1 found.principal.2 query.subject.properties
  let withAction := pushEntity withSubject found.action.1 found.action.2 query.action.properties
  pushEntity withAction found.resource.1 found.resource.2 query.resource.properties

/-- The name of a party. -/
def partyUid (texts : String × String) : Except Error EntityUid :=
  match EntityUid.ofTexts? texts with
  | some uid => .ok uid
  | none => .error (.request (.entityType texts.1))

/-- What the policies are evaluated for. -/
def environment (query : AccessQuery) : Except Error Environment := do
  let found ← parties query
  match Policy.Entities.ofJson? (items query found) with
  | none => throw (.request .entities)
  | some entities =>
    match Policy.contextOf? query.context with
    | none => throw (.request .context)
    | some context =>
      let principal ← partyUid found.principal
      let action ← partyUid found.action
      let resource ← partyUid found.resource
      return ⟨principal, action, resource, context, entities⟩

end Resolution

end PolicyLedger
