/-
**The JSON form of requests.**

A request is one object: the parts of its query stand beside its id and its reference to a policy
store. An empty source and absent entities are left out when a request is written; when it is read,
properties, context and the parts of entities have empty defaults.
-/

import PolicyLedger.Json.Record
import PolicyLedger.Request.Model

namespace PolicyLedger

open Json (Record)

namespace Subject

/-- The object for a subject. -/
def toJson (subject : Subject) : Json :=
  .object ([("type", .text subject.kind), ("id", .text subject.id)] ++
    (if subject.source.isEmpty then [] else [("source", .text subject.source)]) ++
    [("properties", .object subject.properties)])

/-- The subject in a structure. -/
def ofJson? (value : Json) : Option Subject := do
  let record ← Record.of? ["type", "id", "source", "properties"] value
  let kind ← record.required "type" Json.asText?
  let id ← record.required "id" Json.asText?
  let source ← record.defaulted "source" "" Json.asText?
  let properties ← record.defaulted "properties" [] Json.asMembers?
  return ⟨kind, id, source, properties⟩

end Subject

namespace Resource

/-- The object for a resource. -/
def toJson (resource : Resource) : Json :=
  .object [("type", .text resource.kind), ("id", .text resource.id),
    ("properties", .object resource.properties)]

/-- The resource in a structure. -/
def ofJson? (value : Json) : Option Resource := do
  let record ← Record.of? ["type", "id", "properties"] value
  let kind ← record.required "type" Json.asText?
  let id ← record.required "id" Json.asText?
  let properties ← record.defaulted "properties" [] Json.asMembers?
  return ⟨kind, id, properties⟩

end Resource

namespace Action

/-- The object for an action. -/
def toJson (action : Action) : Json :=
  .object [("name", .text action.name), ("properties", .object action.properties)]

/-- The action in a structure. -/
def ofJson? (value : Json) : Option Action := do
  let record ← Record.of? ["name", "properties"] value
  let name ← record.required "name" Json.asText?
  let properties ← record.defaulted "properties" [] Json.asMembers?
  return ⟨name, properties⟩

end Action

namespace CallerEntities

/-- The object for a caller's entities. -/
def toJson (entities : CallerEntities) : Json :=
  .object [("schema", .text entities.schema), ("items", .list entities.items)]

/-- The entities in a structure. -/
def ofJson? (value : Json) : Option CallerEntities := do
  let record ← Record.of? ["schema", "items"] value
  let schema ← record.defaulted "schema" "" Json.asText?
  let items ← record.defaulted "items" [] (Json.asListOf? (some ∘ Json.canonical))
  return ⟨schema, items⟩

end CallerEntities

namespace AccessQuery

/-- The names of a query's parts. -/
def fieldNames : List String := ["subject", "resource", "action", "context", "entities"]

/-- The members for a query's parts. -/
def toMembers (query : AccessQuery) : List (String × Json) :=
  [("subject", query.subject.toJson), ("resource", query.resource.toJson),
    ("action", query.action.toJson), ("context", .object query.context)] ++
    match query.entities with
    | none => []
    | some entities => [("entities", entities.toJson)]

/-- The query with given parts. -/
def ofRecord? (record : Record) : Option AccessQuery := do
  let subject ← record.required "subject" Subject.ofJson?
  let resource ← record.required "resource" Resource.ofJson?
  let action ← record.required "action" Action.ofJson?
  let context ← record.defaulted "context" [] Json.asMembers?
  let entities ← record.defaulted "entities" none fun
    | .null => some none
    | value => (CallerEntities.ofJson? value).map some
  return ⟨subject, resource, action, context, entities⟩

/-- The query in a structure. -/
def ofJson? (value : Json) : Option AccessQuery := (Record.of? fieldNames value).bind ofRecord?

end AccessQuery

namespace PolicyStoreRef

/-- The object for a reference. -/
def toJson (ref : PolicyStoreRef) : Json :=
  .object [("account_id", .ofUInt64 ref.accountId), ("ledger_id", .text ref.ledgerId),
    ("commit_id", .text ref.commitId)]

/-- The reference in a structure. -/
def ofJson? (value : Json) : Option PolicyStoreRef := do
  let record ← Record.of? ["account_id", "ledger_id", "commit_id"] value
  let accountId ← record.required "account_id" Json.asUInt64?
  let ledgerId ← record.required "ledger_id" Json.asText?
  let commitId ← record.required "commit_id" Json.asText?
  return ⟨accountId, ledgerId, commitId⟩

end PolicyStoreRef

namespace AuthorizationRequest

/-- The object for a request. -/
def toJson (request : AuthorizationRequest) : Json :=
  .object ([("request_id", .text request.requestId),
    ("policy_store", request.policyStore.toJson)] ++ request.query.toMembers)

/-- The request in an object. -/
def ofJson? (value : Json) : Option AuthorizationRequest := do
  let record ← Record.ofObject? ("request_id" :: "policy_store" :: AccessQuery.fieldNames) value
  let requestId ← record.defaulted "request_id" "" Json.asText?
  let policyStore ← record.required "policy_store" PolicyStoreRef.ofJson?
  let query ← AccessQuery.ofRecord? record
  return ⟨requestId, policyStore, query⟩

end AuthorizationRequest

end PolicyLedger
