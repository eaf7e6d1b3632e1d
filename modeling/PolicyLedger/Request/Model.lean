/-
**Authorization requests.**

A request asks whether a subject may perform an action on a resource, in a context and with
entities of the caller's own, against the policies of one commit of a ledger. Properties, context
and entities are JSON values whose members keep their order.

* `AccessQuery.validate`: the parts that must be given;
* `PolicyStoreRef.validate`: the commit that a reference names.
-/

import PolicyLedger.Json.Basic
import PolicyLedger.Object.Id
import PolicyLedger.Text.Blank

namespace PolicyLedger

/-- JSON values under keys, in the order they were given. -/
abbrev Properties := List (String × Json)

/-- Who asks. -/
structure Subject where
  kind : String
  id : String
  source : String := ""
  properties : Properties := []

/-- What is asked for. -/
structure Resource where
  kind : String
  id : String
  properties : Properties := []

/-- What is to be done; the name begins with a type. -/
structure Action where
  name : String
  properties : Properties := []

/-- Entities that the caller describes. -/
structure CallerEntities where
  schema : String := ""
  items : List Json := []

/-- A question about one access. -/
structure AccessQuery where
  subject : Subject
  resource : Resource
  action : Action
  context : Properties := []
  entities : Option CallerEntities := none

/-- The commit of a ledger that policies are taken from. -/
structure PolicyStoreRef where
  accountId : UInt64
  ledgerId : String
  commitId : String
  deriving DecidableEq, Repr

/-- A question with the policies to answer it. -/
structure AuthorizationRequest where
  requestId : String := ""
  policyStore : PolicyStoreRef
  query : AccessQuery

/-- Refuses a text of blanks. -/
def requireText (what value : String) : Except Error Unit :=
  if Text.isBlankText value then .error (.request (.missing what)) else .ok ()

namespace Subject

/-- The kind of subject that stands for a person. -/
def userKind : String := "USER"

/-- A person. -/
def user (id : String) : Subject := { kind := userKind, id }

/-- A subject with one more property; a repeated key keeps its place. -/
def withProperty (subject : Subject) (key : String) (value : Json) : Subject :=
  { subject with properties := Json.setMember key value subject.properties }

end Subject

namespace Resource

/-- A resource with one more property; a repeated key keeps its place. -/
def withProperty (resource : Resource) (key : String) (value : Json) : Resource :=
  { resource with properties := Json.setMember key value resource.properties }

end Resource

namespace Action

/-- An action with one more property; a repeated key keeps its place. -/
def withProperty (action : Action) (key : String) (value : Json) : Action :=
  { action with properties := Json.setMember key value action.properties }

end Action

namespace AccessQuery

/-- A query with one more value in its context; a repeated key keeps its place. -/
def withContext (query : AccessQuery) (key : String) (value : Json) : AccessQuery :=
  { query with context := Json.setMember key value query.context }

/-- A query with entities of the caller. -/
def withEntities (query : AccessQuery) (entities : CallerEntities) : AccessQuery :=
  { query with entities := some entities }

/-- The caller's entities, none if none were given. -/
def items (query : AccessQuery) : List Json := (query.entities.map (·.items)).getD []

/-- Refuses a query with a blank type, id or action. -/
def validate (query : AccessQuery) : Except Error Unit := do
  requireText "subject type" query.subject.kind
  requireText "subject id" query.subject.id
  requireText "resource type" query.resource.kind
  requireText "resource id" query.resource.id
  requireText "action name" query.action.name

end AccessQuery

namespace PolicyStoreRef

/-- The commit that a reference names, which is not the zero id. -/
def validate (ref : PolicyStoreRef) : Except Error ObjectId :=
  if ref.accountId = 0 then .error (.request (.missing "account id"))
  else do
    requireText "ledger id" ref.ledgerId
    let text := Text.trimmed ref.commitId
    if ObjectId.isName text then
      if ObjectId.isZero ⟨text⟩ then .error (.request .zeroCommit) else .ok ⟨text⟩
    else .error (.request (.commitId (.notAnId text)))

end PolicyStoreRef

end PolicyLedger
