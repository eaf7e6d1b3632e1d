/-
**Requests that are built.**

`RequestBuild` is what a program says to make a request. What is set one after the other keeps the
place of a key's first value and has its last one (`Json.setBy_setAll`), the entities are those that
are given last (`RequestBuild.query_entities`), and a query that is built from plain values is plain
(`RequestBuild.isPlain_query`). So the request is read back as it was built
(`RequestBuild.roundTrip`).
-/

import PolicyLedger.Proofs.Request.RoundTrip

namespace PolicyLedger

/-! ### Members one after the other -/

namespace Json

variable {key : String} {value : Json} {members settings : List (String × Json)}

/-- Setting a member with a plain value keeps an object plain. -/
theorem isPlain_setMember (plain : (object members).IsPlain) (proper : value.IsPlain) :
    (object (setMember key value members)).IsPlain := by
  have whole : ∀ member ∈ members, member.2.isWhole = true := membersAreWhole_iff.mp plain.1
  refine ⟨membersAreWhole_iff.mpr fun member set => ?_,
    hasDistinctKeys_object.mpr ((hasDistinctKeys_object.mp plain.2).setMember proper.2)⟩
  obtain rfl | before := mem_setMember set
  · exact proper.1
  · exact whole member before

/-- Members with others set one after the other. -/
def setAll (members settings : List (String × Json)) : List (String × Json) :=
  settings.foldl (fun members setting => setMember setting.1 setting.2 members) members

theorem isPlain_setAll (plain : (object members).IsPlain)
    (proper : ∀ setting ∈ settings, setting.2.IsPlain) :
    (object (setAll members settings)).IsPlain := by
  induction settings generalizing members with
  | nil => exact plain
  | cons setting rest ih =>
    rw [List.forall_mem_cons] at proper
    exact ih (isPlain_setMember plain proper.1) proper.2

/-- Steps that set what they say, if anything, set it one after the other. -/
theorem foldl_eq_setAll {α β : Type} {step : β → α → β} {held : β → List (String × Json)}
    {setting? : α → Option (String × Json)}
    (sets : ∀ state item, held (step state item) = setAll (held state) (setting? item).toList)
    (state : β) (items : List α) :
    held (items.foldl step state) = setAll (held state) (items.filterMap setting?) := by
  induction items generalizing state with
  | nil => rfl
  | cons item rest ih =>
    rw [List.foldl_cons, ih, sets, List.filterMap_cons]
    cases setting? item <;> rfl

/-- Members that were set one after the other: the keys in the order in which they were first set,
each with the value that was set last. -/
structure SetBy (settings members : List (String × Json)) : Prop where
  keys : members.map Prod.fst = (settings.map Prod.fst).eraseDups
  lookup : ∀ key, members.lookup key = settings.reverse.lookup key

theorem SetBy.nil : SetBy [] [] := ⟨rfl, fun _ => rfl⟩

/-- One more member is set behind the others or in the place of its key. -/
theorem SetBy.setMember (set : SetBy settings members) (key : String) (value : Json) :
    SetBy (settings ++ [(key, value)]) (setMember key value members) := by
  constructor
  · have inside : key ∈ members.map Prod.fst ↔ key ∈ settings.map Prod.fst := by
      rw [set.keys, List.mem_eraseDups]
    rw [keys_setMember, List.map_append, List.eraseDups_append, ← set.keys]
    by_cases old : key ∈ settings.map Prod.fst
    · rw [if_pos (inside.mpr old)]
      simp [List.removeAll, old]
    · rw [if_neg fun there => old (inside.mp there)]
      simp [List.removeAll, List.eraseDups_cons, old]
  · intro other
    rw [List.reverse_append, List.reverse_singleton, List.singleton_append, List.lookup_cons]
    by_cases same : other = key
    · rw [same, lookup_setMember, beq_self_eq_true]
    · rw [lookup_setMember_of_ne same value, beq_eq_false_iff_ne.mpr same, set.lookup]

theorem SetBy.append (set : SetBy settings members) (more : List (String × Json)) :
    SetBy (settings ++ more) (setAll members more) := by
  induction more generalizing settings members with
  | nil =>
    rw [List.append_nil]
    exact set
  | cons setting more ih =>
    have longer := ih (set.setMember setting.1 setting.2)
    rwa [List.append_assoc] at longer

theorem setBy_setAll (settings : List (String × Json)) : SetBy settings (setAll [] settings) :=
  SetBy.nil.append settings

end Json

/-! ### What is said -/

/-- What is said to a query after it was made. -/
inductive AccessQuery.Call
  | context (key : String) (value : Json)
  | entities (given : CallerEntities)

namespace AccessQuery.Call

/-- A query with what was said to it. -/
def apply (query : AccessQuery) : Call → AccessQuery
  | context key value => query.withContext key value
  | entities given => query.withEntities given

/-- What is set in the context. -/
def setting? : Call → Option (String × Json)
  | context key value => some (key, value)
  | entities _ => none

/-- The entities that are given. -/
def given? : Call → Option CallerEntities
  | context _ _ => none
  | entities given => some given

/-- The JSON values of what is said. -/
def values : Call → List Json
  | context _ value => [value]
  | entities given => given.items

end AccessQuery.Call

/-- What a program says to make a request: the names of its parts, the properties that are set in
each of them, and what is said to the query, in this order. -/
structure RequestBuild where
  requestId : String
  policyStore : PolicyStoreRef
  subjectKind : String
  subjectId : String
  subjectSource : String
  subjectProperties : List (String × Json)
  resourceKind : String
  resourceId : String
  resourceProperties : List (String × Json)
  actionName : String
  actionProperties : List (String × Json)
  calls : List AccessQuery.Call

namespace RequestBuild

/-- The subject that is built. -/
def subject (build : RequestBuild) : Subject :=
  build.subjectProperties.foldl (fun subject property => subject.withProperty property.1 property.2)
    { kind := build.subjectKind, id := build.subjectId, source := build.subjectSource }

/-- The resource that is built. -/
def resource (build : RequestBuild) : Resource :=
  build.resourceProperties.foldl
    (fun resource property => resource.withProperty property.1 property.2)
    { kind := build.resourceKind, id := build.resourceId }

/-- The action that is built. -/
def action (build : RequestBuild) : Action :=
  build.actionProperties.foldl (fun action property => action.withProperty property.1 property.2)
    { name := build.actionName }

/-- The query that is built. -/
def query (build : RequestBuild) : AccessQuery :=
  build.calls.foldl AccessQuery.Call.apply
    { subject := build.subject, resource := build.resource, action := build.action }

/-- The request that is built. -/
def request (build : RequestBuild) : AuthorizationRequest where
  requestId := build.requestId
  policyStore := build.policyStore
  query := build.query

/-- All JSON values that are said. -/
def values (build : RequestBuild) : List Json :=
  (build.subjectProperties ++ build.resourceProperties ++ build.actionProperties).map Prod.snd ++
    build.calls.flatMap AccessQuery.Call.values

theorem subject_properties (build : RequestBuild) :
    build.subject.properties = Json.setAll [] build.subjectProperties := by
  rw [subject, @Json.foldl_eq_setAll _ _ _ Subject.properties some fun _ _ => rfl,
    List.filterMap_some]

theorem resource_properties (build : RequestBuild) :
    build.resource.properties = Json.setAll [] build.resourceProperties := by
  rw [resource, @Json.foldl_eq_setAll _ _ _ Resource.properties some fun _ _ => rfl,
    List.filterMap_some]

theorem action_properties (build : RequestBuild) :
    build.action.properties = Json.setAll [] build.actionProperties := by
  rw [action, @Json.foldl_eq_setAll _ _ _ Action.properties some fun _ _ => rfl,
    List.filterMap_some]

theorem query_context (build : RequestBuild) :
    build.query.context = Json.setAll [] (build.calls.filterMap AccessQuery.Call.setting?) :=
  Json.foldl_eq_setAll (fun _ call => by cases call <;> rfl) _ build.calls

/-- What is said to a query leaves its subject, resource and action. -/
theorem foldl_apply_parts (calls : List AccessQuery.Call) (query : AccessQuery) :
    (calls.foldl AccessQuery.Call.apply query).subject = query.subject ∧
      (calls.foldl AccessQuery.Call.apply query).resource = query.resource ∧
      (calls.foldl AccessQuery.Call.apply query).action = query.action := by
  induction calls generalizing query with
  | nil => exact ⟨rfl, rfl, rfl⟩
  | cons call calls ih =>
    have rest := ih (call.apply query)
    cases call <;> exact rest

theorem query_parts (build : RequestBuild) : build.query.subject = build.subject ∧
    build.query.resource = build.resource ∧ build.query.action = build.action :=
  foldl_apply_parts build.calls _

/-- The entities of a query are the last ones given to it, or else its own. -/
theorem foldl_apply_entities (calls : List AccessQuery.Call) (query : AccessQuery) :
    (calls.foldl AccessQuery.Call.apply query).entities =
      (calls.filterMap AccessQuery.Call.given?).getLast?.or query.entities := by
  induction calls generalizing query with
  | nil => rfl
  | cons call calls ih =>
    rw [List.foldl_cons, ih]
    cases call with
    | context key value => rfl
    | entities given =>
      rw [List.filterMap_cons, AccessQuery.Call.given?, List.getLast?_cons]
      cases (calls.filterMap AccessQuery.Call.given?).getLast? <;> rfl

theorem query_entities (build : RequestBuild) :
    build.query.entities = (build.calls.filterMap AccessQuery.Call.given?).getLast? := by
  rw [query, foldl_apply_entities, Option.or_none]

/-- All entities of a query were given to it. -/
theorem mem_values_of_mem_items {build : RequestBuild} {item : Json}
    (inside : item ∈ build.query.items) :
    item ∈ build.calls.flatMap AccessQuery.Call.values := by
  rw [AccessQuery.items, query_entities] at inside
  cases last : (build.calls.filterMap AccessQuery.Call.given?).getLast? with
  | none =>
    rw [last] at inside
    cases inside
  | some given =>
    rw [last] at inside
    obtain ⟨call, called, gives⟩ := List.mem_filterMap.mp (List.mem_of_getLast? last)
    refine List.mem_flatMap.mpr ⟨call, called, ?_⟩
    cases call with
    | context key value => cases gives
    | entities other =>
      obtain rfl := Option.some.inj gives
      exact inside

/-- What is built from plain values is plain. -/
theorem isPlain_query {build : RequestBuild} (plain : ∀ value ∈ build.values, value.IsPlain) :
    build.query.IsPlain := by
  obtain ⟨subject, resource, action⟩ := build.query_parts
  simp only [values, List.mem_append, List.map_append] at plain
  have empty : (Json.object []).IsPlain := ⟨rfl, rfl⟩
  constructor
  · rw [subject, subject_properties]
    exact Json.isPlain_setAll empty fun setting inside =>
      plain _ (.inl (.inl (.inl (List.mem_map_of_mem inside))))
  · rw [resource, resource_properties]
    exact Json.isPlain_setAll empty fun setting inside =>
      plain _ (.inl (.inl (.inr (List.mem_map_of_mem inside))))
  · rw [action, action_properties]
    exact Json.isPlain_setAll empty fun setting inside =>
      plain _ (.inl (.inr (List.mem_map_of_mem inside)))
  · rw [query_context]
    refine Json.isPlain_setAll empty fun setting inside => ?_
    obtain ⟨call, called, set⟩ := List.mem_filterMap.mp inside
    refine plain _ (.inr (List.mem_flatMap.mpr ⟨call, called, ?_⟩))
    cases call with
    | context key value =>
      obtain rfl := Option.some.inj set
      exact List.mem_singleton_self value
    | entities given => cases set
  · exact fun item inside => plain item (.inr (mem_values_of_mem_items inside))

/-- A request that is built from plain values is read back from its text if the text is not too
deep, and otherwise not at all. Its properties and its context have the keys in the order in which
they were first set, each with the value that was set last, and its entities are the last given. -/
theorem roundTrip (build : RequestBuild) (plain : ∀ value ∈ build.values, value.IsPlain)
    (indented : Bool) :
    (Json.parse? (build.request.encodeText indented)).bind AuthorizationRequest.ofJson? =
        (if build.request.toJson.depth ≤ Json.Reader.maxDepth then some build.request else none) ∧
      Json.SetBy build.subjectProperties build.request.query.subject.properties ∧
      Json.SetBy build.resourceProperties build.request.query.resource.properties ∧
      Json.SetBy build.actionProperties build.request.query.action.properties ∧
      Json.SetBy (build.calls.filterMap AccessQuery.Call.setting?) build.request.query.context ∧
      build.request.query.entities =
        (build.calls.filterMap AccessQuery.Call.given?).getLast? := by
  obtain ⟨subject, resource, action⟩ := build.query_parts
  refine ⟨AuthorizationRequest.parse?_bind_ofJson? (isPlain_query plain) indented, ?_, ?_, ?_, ?_,
    build.query_entities⟩
  · rw [request, subject, subject_properties]
    exact Json.setBy_setAll _
  · rw [request, resource, resource_properties]
    exact Json.setBy_setAll _
  · rw [request, action, action_properties]
    exact Json.setBy_setAll _
  · rw [request, query_context]
    exact Json.setBy_setAll _

/-- A request whose subject gets a team, a site and another team, and whose query is given entities
twice and gets an address again after that. -/
def moved : RequestBuild where
  requestId := "req-1"
  policyStore := ⟨7, "ledger", "commit"⟩
  subjectKind := Subject.userKind
  subjectId := "alice"
  subjectSource := ""
  subjectProperties := [("team", .text "sales"),
    ("site", .object [("zone", .null), ("area", .list [.bool true])]), ("team", .text "legal")]
  resourceKind := "Document"
  resourceId := "42"
  resourceProperties := []
  actionName := "Document::Read"
  actionProperties := []
  calls := [.context "ip" (.text "10.0.0.1"), .entities ⟨"", [.object [("uid", .text "bob")]]⟩,
    .context "mfa" (.bool true), .entities ⟨"", [.object [("uid", .text "alice")]]⟩,
    .context "ip" (.text "10.0.0.2")]

/-- The request is read back with the last team and the last address in the first places, and with
the last entities only. -/
theorem roundTrip_moved :
    (Json.parse? (moved.request.encodeText false)).bind AuthorizationRequest.ofJson? =
        some moved.request ∧
      moved.request.query.subject.properties.map Prod.fst = ["team", "site"] ∧
      moved.request.query.subject.properties.lookup "team" = some (.text "legal") ∧
      moved.request.query.context.map Prod.fst = ["ip", "mfa"] ∧
      moved.request.query.context.lookup "ip" = some (.text "10.0.0.2") ∧
      moved.request.query.items = [.object [("uid", .text "alice")]] := by
  have plain : ∀ value ∈ moved.values, value.IsPlain := fun value inside =>
    ⟨Json.itemsAreWhole_iff.mp (by decide) value inside,
      Json.itemsHaveDistinctKeys_iff.mp (by decide) value inside⟩
  obtain ⟨read, subject, _, _, context, entities⟩ := roundTrip moved plain false
  have items : moved.request.query.items = [.object [("uid", .text "alice")]] := by
    rw [AccessQuery.items, entities]
    rfl
  exact ⟨read.trans (if_pos (by decide)), subject.keys, subject.lookup "team", context.keys,
    context.lookup "ip", items⟩

end RequestBuild

end PolicyLedger
