/-
**Requests that were written.**

A request is read back from its object if no object in it repeats a key
(`AuthorizationRequest.ofJson?_toJson`): the parts of the query stand in one object with the fields
of the request, and are found there under their own names (`AccessQuery.ofRecord?_toMembers`). If
its values are plain, the object is read back from its text as well, in both layouts, unless it is
too deep (`AuthorizationRequest.parse?_bind_ofJson?`).
-/

import PolicyLedger.Proofs.Json.RoundTrip

namespace PolicyLedger

open Json (AreDistinct Record)

/-! ### Parts of requests -/

theorem Subject.ofJson?_toJson {subject : Subject} (distinct : AreDistinct subject.properties) :
    ofJson? subject.toJson = some subject := by
  obtain ⟨kind, id, source, properties⟩ := subject
  have members := Json.asMembers?_object distinct
  by_cases empty : source = ""
  · subst empty
    simp [ofJson?, toJson, Record.of?_object, Record.required, Record.defaulted, List.lookup_cons,
      Json.asText?, members]
  · simp [ofJson?, toJson, Record.of?_object, Record.required, Record.defaulted, List.lookup_cons,
      Json.asText?, empty, members]

theorem Resource.ofJson?_toJson {resource : Resource} (distinct : AreDistinct resource.properties) :
    ofJson? resource.toJson = some resource := by
  simp [ofJson?, toJson, Record.of?_object, Record.required, Record.defaulted, List.lookup_cons,
    Json.asText?, Json.asMembers?_object distinct]

theorem Action.ofJson?_toJson {action : Action} (distinct : AreDistinct action.properties) :
    ofJson? action.toJson = some action := by
  simp [ofJson?, toJson, Record.of?_object, Record.required, Record.defaulted, List.lookup_cons,
    Json.asText?, Json.asMembers?_object distinct]

theorem CallerEntities.ofJson?_toJson {entities : CallerEntities}
    (distinct : ∀ item ∈ entities.items, item.hasDistinctKeys = true) :
    ofJson? entities.toJson = some entities := by
  simp [ofJson?, toJson, Record.of?_object, Record.defaulted, List.lookup_cons, Json.asText?,
    Json.asListOf?_canonical distinct]

theorem Json.asBelow?_whole {bound : Nat} {value : Int} {fits : FitsWhole value}
    (natural : 0 ≤ value) (below : value < bound) :
    (number (.whole value fits)).asBelow? bound = some value.toNat :=
  if_pos ⟨natural, below⟩

theorem Json.asUInt64?_ofUInt64 (value : UInt64) :
    (Json.ofUInt64 value).asUInt64? = some value := by
  have small := value.toNat_lt
  have fits : FitsWhole value.toNat := by constructor <;> omega
  have written : ofUInt64 value = number (.whole value.toNat fits) := rfl
  rw [written, asUInt64?, asBelow?_whole (by omega) (by omega), Option.map_some, Int.toNat_natCast,
    UInt64.ofNat_toNat]

theorem PolicyStoreRef.ofJson?_toJson (ref : PolicyStoreRef) : ofJson? ref.toJson = some ref := by
  have read : ∀ number : Json, number.asUInt64? = some ref.accountId →
      ofJson? (.object [("account_id", number), ("ledger_id", .text ref.ledgerId),
        ("commit_id", .text ref.commitId)]) = some ref := by
    intro number account
    simp [ofJson?, Record.of?_object, Record.required, List.lookup_cons, Json.asText?, account]
  exact read _ (Json.asUInt64?_ofUInt64 ref.accountId)

/-! ### Requests -/

/-- The JSON values of a query are plain. -/
structure AccessQuery.IsPlain (query : AccessQuery) : Prop where
  subject : (Json.object query.subject.properties).IsPlain
  resource : (Json.object query.resource.properties).IsPlain
  action : (Json.object query.action.properties).IsPlain
  context : (Json.object query.context).IsPlain
  items : ∀ item ∈ query.items, item.IsPlain

theorem AccessQuery.IsPlain.hasDistinctKeys {query : AccessQuery} (plain : query.IsPlain) :
    query.HasDistinctKeys where
  subject := Json.hasDistinctKeys_object.mp plain.subject.2
  resource := Json.hasDistinctKeys_object.mp plain.resource.2
  action := Json.hasDistinctKeys_object.mp plain.action.2
  context := Json.hasDistinctKeys_object.mp plain.context.2
  items item inside := (plain.items item inside).2

/-- The parts of a query are found behind members with other names. -/
theorem AccessQuery.ofRecord?_toMembers {query : AccessQuery} (distinct : query.HasDistinctKeys)
    {others : List (String × Json)} (apart : ∀ member ∈ others, member.1 ∉ fieldNames)
    (isList : Bool) : ofRecord? ⟨others ++ query.toMembers, isList⟩ = some query := by
  have behind : ∀ name ∈ fieldNames,
      (others ++ query.toMembers).lookup name = query.toMembers.lookup name := by
    intro name part
    have missing : others.lookup name = none := by
      rw [List.lookup_eq_none_iff]
      refine fun member inside => bne_iff_ne.mpr fun same => apart member inside ?_
      rwa [← same]
    rw [List.lookup_append, missing, Option.none_or]
  simp only [fieldNames, List.forall_mem_cons] at behind
  obtain ⟨subject, resource, action, context, entities, _⟩ := behind
  have readSubject := Subject.ofJson?_toJson distinct.subject
  have readResource := Resource.ofJson?_toJson distinct.resource
  have readAction := Action.ofJson?_toJson distinct.action
  have readContext := Json.asMembers?_object distinct.context
  simp only [ofRecord?, Record.required, Record.defaulted, subject, resource, action, context,
    entities]
  obtain ⟨_, _, _, _, none | given⟩ := query
  · simp [toMembers, List.lookup_cons, readSubject, readResource, readAction, readContext]
  · have readEntities := @CallerEntities.ofJson?_toJson given distinct.items
    obtain ⟨members, written⟩ : ∃ members, given.toJson = .object members := ⟨_, rfl⟩
    rw [written] at readEntities
    simp [toMembers, List.lookup_cons, readSubject, readResource, readAction, readContext, written,
      readEntities]

theorem AccessQuery.keys_toMembers (query : AccessQuery) :
    query.toMembers.map Prod.fst =
      ["subject", "resource", "action", "context"] ++
        if query.entities.isSome then ["entities"] else [] := by
  obtain ⟨_, _, _, _, none | given⟩ := query <;> rfl

namespace AuthorizationRequest

variable {request : AuthorizationRequest}

/-- A request is read from the fields of its own in front of the parts of its query. -/
theorem ofJson?_fields {requestId : String} {policyStore : PolicyStoreRef} {query : AccessQuery}
    {stored : Json} (store : PolicyStoreRef.ofJson? stored = some policyStore)
    (distinct : query.HasDistinctKeys) :
    ofJson? (.object ([("request_id", .text requestId), ("policy_store", stored)] ++
      query.toMembers)) = some ⟨requestId, policyStore, query⟩ := by
  let own := [("request_id", Json.text requestId), ("policy_store", stored)]
  have keys : (own ++ query.toMembers).map Prod.fst =
      ["request_id", "policy_store"] ++ (["subject", "resource", "action", "context"] ++
        if query.entities.isSome then ["entities"] else []) := by
    rw [List.map_append, AccessQuery.keys_toMembers]
    rfl
  have record : Record.ofObject? ("request_id" :: "policy_store" :: AccessQuery.fieldNames)
      (.object (own ++ query.toMembers)) = some ⟨own ++ query.toMembers, false⟩ := by
    refine Record.of?_object (fun member inside => ?_) ?_
    · have key := List.mem_map_of_mem (f := Prod.fst) inside
      rw [keys] at key
      refine List.Subset.trans ?_ (List.Subset.refl _) key
      split <;> simp [AccessQuery.fieldNames]
    · rw [keys]
      split <;> decide
  have first : (own ++ query.toMembers).lookup "request_id" = some (.text requestId) := rfl
  have second : (own ++ query.toMembers).lookup "policy_store" = some stored := rfl
  have parts : AccessQuery.ofRecord? ⟨own ++ query.toMembers, false⟩ = some query :=
    AccessQuery.ofRecord?_toMembers distinct (by simp [own, AccessQuery.fieldNames]) false
  show ofJson? (.object (own ++ query.toMembers)) = _
  simp only [ofJson?, record, bind, pure, Option.bind_some, Record.required, Record.defaulted,
    first, Json.asText?, second, store, parts]

/-- A request that repeats no key is read back from its object. -/
theorem ofJson?_toJson (distinct : request.query.HasDistinctKeys) :
    ofJson? request.toJson = some request :=
  ofJson?_fields (PolicyStoreRef.ofJson?_toJson request.policyStore) distinct

/-- The object of a plain request has no other numbers than whole ones. -/
theorem isWhole_toJson (plain : request.query.IsPlain) : request.toJson.isWhole = true := by
  obtain ⟨_, store, ⟨subject, resource, action, context, entities⟩⟩ := request
  have subjectWhole : subject.toJson.isWhole = true := by
    have properties := plain.subject.1
    rw [Subject.toJson]
    split <;> simpa [Json.isWhole, Json.membersAreWhole] using properties
  have resourceWhole : resource.toJson.isWhole = true := by
    simpa [Resource.toJson, Json.isWhole, Json.membersAreWhole] using plain.resource.1
  have actionWhole : action.toJson.isWhole = true := by
    simpa [Action.toJson, Json.isWhole, Json.membersAreWhole] using plain.action.1
  have contextWhole : Json.membersAreWhole context = true := plain.context.1
  cases entities with
  | none =>
    simp [toJson, AccessQuery.toMembers, Json.isWhole, Json.membersAreWhole, PolicyStoreRef.toJson,
      Json.ofUInt64, subjectWhole, resourceWhole, actionWhole, contextWhole]
  | some entities =>
    have itemsWhole : Json.itemsAreWhole entities.items = true :=
      Json.itemsAreWhole_iff.mpr fun item inside => (plain.items item inside).1
    simp [toJson, AccessQuery.toMembers, Json.isWhole, Json.membersAreWhole, PolicyStoreRef.toJson,
      Json.ofUInt64, subjectWhole, resourceWhole, actionWhole, contextWhole, CallerEntities.toJson,
      itemsWhole]

/-- The text of a request in one of the two layouts. -/
def encodeText (request : AuthorizationRequest) (indented : Bool) : String :=
  if indented then request.toJson.pretty else request.toJson.compact

/-- A plain request is read back from its text, unless the text is too deep. -/
theorem parse?_bind_ofJson? (plain : request.query.IsPlain) (indented : Bool) :
    (Json.parse? (request.encodeText indented)).bind ofJson? =
      if request.toJson.depth ≤ Json.Reader.maxDepth then some request else none := by
  have parsed : Json.parse? (request.encodeText indented) =
      if request.toJson.depth ≤ Json.Reader.maxDepth then some request.toJson else none := by
    cases indented with
    | true => exact Json.parse?_pretty (isWhole_toJson plain)
    | false => exact Json.parse?_compact (isWhole_toJson plain)
  rw [parsed]
  split
  next => exact ofJson?_toJson plain.hasDistinctKeys
  next => rfl

end AuthorizationRequest

end PolicyLedger
