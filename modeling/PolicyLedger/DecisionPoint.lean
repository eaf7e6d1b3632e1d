/-
**The decision point.**

A request is decided in steps: the reference to its policies is checked, the policies are loaded,
the guard looks for reserved identifiers, the request is resolved, the stored policies are
collected and evaluated. The first step that fails denies the request; so does a policy whose
evaluation fails.

* `DecisionPoint.authorizeFrom` decides a request on the policies of a commit, wherever the objects
  come from, and `DecisionPoint.authorize` on objects of a store in memory;
* `DecisionPoint.authorizeWith` decides a query on policies at hand.

What the libraries say of a failure is told in a wording.
-/

import PolicyLedger.Authoring.Export
import PolicyLedger.Config
import PolicyLedger.Decision
import PolicyLedger.Language.Registry
import PolicyLedger.Policy.Authorizer
import PolicyLedger.PolicyStore
import PolicyLedger.Request.Guard
import PolicyLedger.Request.Resolution

namespace PolicyLedger

open Policy (PolicySet)

namespace Specification

/-- A policy set with one more stored policy, which must be in the language. -/
def addPolicy (spec : Specification) (set : PolicySet) (item : StoreItem) :
    Except Error PolicySet :=
  let header := item.blob.header
  if header.languageId ≠ spec.backendLanguageId ∨
      header.languageVersionId ≠ spec.languageVersionId then
    .error (.languageMismatch spec.backendLanguage
      s!"language id {header.languageId} version id {header.languageVersionId}")
  else
    match Json.canonicalOfBytes? item.blob.data with
    | none => .error .malformedJson
    | some value =>
      match (Policy.ofJson? value).bind (set.add? header.codeId) with
      | none => .error (.evaluation (.unusable header.codeId))
      | some set => .ok set

/-- The policies of a store. -/
def policySet (spec : Specification) (store : PolicyStore) : Except Error PolicySet :=
  store.policies.foldlM spec.addPolicy .empty

/-- Smaller texts in front, by the numbers of their characters. -/
def sortedIds (ids : List String) : List String := ids.mergeSort fun a b => decide (a ≤ b)

/-- What is told about a denial by some policies. -/
def denialMessage (reasons : List String) : String :=
  if reasons.isEmpty then "denied: no permit policy matched"
  else "denied by policies: " ++ ", ".intercalate (sortedIds reasons)

/-- The decision of a query by the policies of a store. -/
def check (spec : Specification) (requestId : String) (store : PolicyStore) (query : AccessQuery) :
    Except Error Decision := do
  Guard.verify query
  let env ← Resolution.environment query
  let set ← spec.policySet store
  let response := set.evaluate env
  if response.errors.isEmpty then
    if response.allows then return .permit requestId
    else return .forbidden requestId (denialMessage response.reasons)
  else throw (.evaluation (.failed response.errors))

end Specification

/-- A registry with the language that decides. -/
structure DecisionPoint where
  config : Config
  registry : Registry
  language : Specification

namespace DecisionPoint

/-- The decision point of a configuration, which must be valid and name a registered language. -/
def make (config : Config) (registry : Registry) : Except Error DecisionPoint := do
  config.validate
  let language ← registry.get config.language
  return ⟨config, registry, language⟩

/-- A result as a decision; an error denies. -/
def finish (point : DecisionPoint) (requestId : String) (wording : Wording) :
    Except Error Decision → Decision
  | .ok decision => decision
  | .error error => .ofError requestId error point.config.shareAdminReason wording

/-- The decision of a query on policies at hand. -/
def authorizeWith (point : DecisionPoint) (requestId : String) (store : PolicyStore)
    (query : AccessQuery) (wording : Wording := {}) : Decision :=
  point.finish requestId wording (point.language.check requestId store query)

/-- The steps of a request's decision, on what is found under each id and through `room` levels of
trees. -/
def decide (point : DecisionPoint) (lookup : Lookup) (room : Nat)
    (request : AuthorizationRequest) : Except Error Decision := do
  let commit ← request.policyStore.validate
  let store ← PolicyStore.loadFrom lookup point.registry.knows room commit
  point.language.check request.requestId store request.query

/-- After a good reference, the policies are loaded and the language decides. -/
theorem decide_of_named {point : DecisionPoint} {lookup : Lookup} {room : Nat}
    {request : AuthorizationRequest} {commit : ObjectId}
    (named : request.policyStore.validate = .ok commit) :
    point.decide lookup room request =
      (PolicyStore.loadFrom lookup point.registry.knows room commit >>= fun store =>
        point.language.check request.requestId store request.query) := by
  rw [decide, named]
  rfl

/-- The decision of a request on the policies of the commit it names, on what is found under each id
and through `room` levels of trees. -/
def authorizeFrom (point : DecisionPoint) (lookup : Lookup) (room : Nat)
    (request : AuthorizationRequest) (wording : Wording := {}) : Decision :=
  point.finish request.requestId wording (point.decide lookup room request)

/-- The decision of a request on the objects of a store, which limit the levels of trees as they do
for `PolicyStore.load`. -/
def authorize (point : DecisionPoint) (objects : Store) (request : AuthorizationRequest)
    (wording : Wording := {}) : Decision :=
  point.authorizeFrom objects.get objects.size request wording

/-- The history of a commit, from old to new, as long as the configuration allows. -/
def history (point : DecisionPoint) (objects : Store) (source target : ObjectId) :
    Except Error (Bool × List Commit) :=
  objects.history source target true point.config.maxCommitHistory

/-- One line about a decision point, for logs. -/
def summary (point : DecisionPoint) : String :=
  let config := point.config
  "PolicyDecisionPoint \x7b config: EngineConfig \x7b language: \"" ++ config.language ++
    "\", share_admin_reason: " ++ toString config.shareAdminReason ++
    ", max_commit_history: " ++ toString config.maxCommitHistory ++
    " \x7d, language: \"" ++ point.language.language ++ "\" \x7d"

end DecisionPoint

end PolicyLedger
