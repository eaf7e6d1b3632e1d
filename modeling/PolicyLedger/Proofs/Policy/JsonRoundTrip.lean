/-
**Policies in their JSON form.**

The members of a proper policy, with rows for its annotations in any order, are read back as the
policy with these annotations (`ofJson?_annotated`). They make a plain value (`isPlain_annotated`),
whose depth is bounded by the limit of the reader just if no condition is too deep
(`depth_annotated_le_iff`): the rest of a policy takes four levels at most.
-/

import PolicyLedger.Proofs.Policy.ExprRoundTrip

namespace PolicyLedger

namespace Policy

open Json (Record)

/-! ### Words -/

theorem Effect.ofWord?_word (effect : Effect) : Effect.ofWord? effect.word = some effect := by
  cases effect <;> decide

theorem ConditionKind.ofWord?_word (kind : ConditionKind) :
    ConditionKind.ofWord? kind.word = some kind := by
  cases kind <;> decide

/-! ### Scopes -/

theorem onlyEntity?_toJson {uid : EntityUid} (proper : uid.IsProper) :
    onlyEntity? (.object [("entity", uid.toJson)]) = some uid := EntityUid.ofJson?_toJson proper

theorem EntityScope.ofJson?_toJson {scope : EntityScope} (proper : scope.IsProper) :
    ofJson? scope.toJson = some scope := by
  cases scope with
  | all => simp [ofJson?, toJson, Json.member?, Json.members, Json.asChoice?]
  | equal uid =>
    simp [ofJson?, toJson, Json.member?, Json.members, Json.asChoice?, scopeMembers,
      onlyEntity?_toJson proper]
  | isIn uid =>
    simp [ofJson?, toJson, Json.member?, Json.members, Json.asChoice?, scopeMembers,
      onlyEntity?_toJson proper]
  | is type =>
    simp [ofJson?, toJson, Json.member?, Json.members, Json.asChoice?, scopeMembers,
      List.lookup_cons, structure?_object, Record.required, Record.optional, nameOf?_text proper]
  | isWithin type uid =>
    simp [ofJson?, toJson, Json.member?, Json.members, Json.asChoice?, scopeMembers,
      List.lookup_cons, structure?_object, Record.required, Record.optional, nameOf?_text proper.1,
      onlyEntity?_toJson proper.2]

theorem asListOf?_uids {uids : List EntityUid} (proper : ∀ uid ∈ uids, uid.IsProper) :
    Json.asListOf? EntityUid.ofJson? (.list (uids.map EntityUid.toJson)) = some uids := by
  refine Steps.mapM_eq_some_iff.mpr ?_
  rw [List.forall₂_map_left_iff]
  exact List.forall₂_same.mpr fun uid inside => EntityUid.ofJson?_toJson (proper uid inside)

theorem ActionScope.ofJson?_toJson {scope : ActionScope} (proper : scope.IsProper) :
    ofJson? scope.toJson = some scope := by
  cases scope with
  | all => simp [ofJson?, toJson, Json.member?, Json.members, Json.asChoice?]
  | equal uid =>
    simp [ofJson?, toJson, Json.member?, Json.members, Json.asChoice?, scopeMembers,
      onlyEntity?_toJson proper]
  | isIn uid =>
    simp [ofJson?, toJson, Json.member?, Json.members, Json.asChoice?, scopeMembers,
      onlyEntity?_toJson proper]
  | isInAny uids =>
    simp [ofJson?, toJson, Json.member?, Json.members, Json.asChoice?, scopeMembers,
      asListOf?_uids proper]

/-! ### Conditions -/

theorem Condition.ofJson?_toJson {condition : Condition} (proper : condition.body.IsProper) :
    ofJson? condition.toJson = some condition := by
  have body : Expr.ofJson? condition.body.toJson = some condition.body :=
    Expr.read?_toJson condition.body proper (Nat.lt_succ_self _)
  simp [ofJson?, toJson, structure?_object, Record.required, List.lookup_cons, Json.asChoice?,
    ConditionKind.ofWord?_word, body]

theorem asListOf?_conditions {conditions : List Condition}
    (proper : ∀ condition ∈ conditions, condition.body.IsProper) :
    Json.asListOf? Condition.ofJson? (.list (conditions.map Condition.toJson)) =
      some conditions := by
  refine Steps.mapM_eq_some_iff.mpr ?_
  rw [List.forall₂_map_left_iff]
  exact List.forall₂_same.mpr fun condition inside =>
    Condition.ofJson?_toJson (proper condition inside)

/-! ### Annotations -/

/-- The members for some annotations. -/
def annotationMembers (rows : List (String × Option String)) : List (String × Json) :=
  rows.map fun row => (row.1, annotationJson row.2)

theorem annotationsOf?_object {rows : List (String × Option String)}
    (identifiers : ∀ row ∈ rows, isIdentifier row.1.toList = true) :
    annotationsOf? (.object (annotationMembers rows)) = some (.ofRows rows) := by
  have read : (annotationMembers rows).mapM (fun member =>
      if isIdentifier member.1.toList then
        (annotationOf? member.2).map fun text => (member.1, text)
      else none) = some rows := by
    refine Steps.mapM_eq_some_iff.mpr ?_
    rw [annotationMembers, List.forall₂_map_left_iff]
    refine List.forall₂_same.mpr fun row inside => ?_
    rw [if_pos (identifiers row inside)]
    obtain ⟨key, text⟩ := row
    cases text <;> rfl
  rw [annotationsOf?, read]
  rfl

/-! ### Policies -/

/-- The members of a policy's object before its annotations. -/
def ruleMembers (policy : Policy) : List (String × Json) :=
  [("effect", .text policy.effect.word), ("principal", policy.principal.toJson),
    ("action", policy.action.toJson), ("resource", policy.resource.toJson),
    ("conditions", .list (policy.conditions.map Condition.toJson))]

/-- The object of a policy with some annotations. -/
def annotated (policy : Policy) (rows : List (String × Option String)) : Json :=
  .object (policy.ruleMembers ++ [("annotations", .object (annotationMembers rows))])

/-- The object of a proper policy is read back as the policy with the annotations in it. -/
theorem ofJson?_annotated {policy : Policy} (proper : policy.IsProper)
    {rows : List (String × Option String)}
    (identifiers : ∀ row ∈ rows, isIdentifier row.1.toList = true) :
    ofJson? (policy.annotated rows) = some { policy with annotations := .ofRows rows } := by
  simp [ofJson?, annotated, ruleMembers, structure?_object, Record.required, Record.defaulted,
    List.lookup_cons, Json.asChoice?, Effect.ofWord?_word,
    EntityScope.ofJson?_toJson proper.principal, ActionScope.ofJson?_toJson proper.action,
    EntityScope.ofJson?_toJson proper.resource, asListOf?_conditions proper.conditions,
    annotationsOf?_object identifiers, proper.actionType]

/-! ### Plain values -/

theorem EntityUid.isPlain_toJson (uid : EntityUid) : uid.toJson.IsPlain := ⟨rfl, rfl⟩

theorem EntityScope.isPlain_toJson (scope : EntityScope) : scope.toJson.IsPlain := by
  cases scope <;> exact ⟨rfl, rfl⟩

theorem ActionScope.isPlain_toJson (scope : ActionScope) : scope.toJson.IsPlain := by
  cases scope with
  | isInAny uids =>
    have plain : (Json.list (uids.map EntityUid.toJson)).IsPlain := Json.isPlain_list (by
      simp [EntityUid.isPlain_toJson])
    exact Json.isPlain_object (by simp) (by simp [plain])
  | _ => exact ⟨rfl, rfl⟩

theorem Condition.isPlain_toJson {condition : Condition} (proper : condition.body.IsProper) :
    condition.toJson.IsPlain := by
  have body := Expr.isPlain_toJson condition.body proper
  exact Json.isPlain_object (by simp) (by simp [body])

theorem isPlain_annotationJson (text : Option String) : (annotationJson text).IsPlain := by
  cases text <;> exact ⟨rfl, rfl⟩

/-- The object of a proper policy with annotations under distinct keys is plain. -/
theorem isPlain_annotated {policy : Policy} (proper : policy.IsProper)
    {rows : List (String × Option String)} (distinct : (rows.map Prod.fst).Nodup) :
    (policy.annotated rows).IsPlain := by
  have conditions : (Json.list (policy.conditions.map Condition.toJson)).IsPlain := by
    refine Json.isPlain_list fun item inside => ?_
    obtain ⟨condition, there, rfl⟩ := List.mem_map.mp inside
    exact Condition.isPlain_toJson (proper.conditions condition there)
  have annotations : (Json.object (annotationMembers rows)).IsPlain := by
    refine Json.isPlain_object ?_ fun member inside => ?_
    · rw [annotationMembers, List.map_map]
      exact distinct
    · obtain ⟨row, -, rfl⟩ := List.mem_map.mp inside
      exact isPlain_annotationJson row.2
  refine Json.isPlain_object (by simp [ruleMembers]) ?_
  simp [ruleMembers, EntityScope.isPlain_toJson, ActionScope.isPlain_toJson, conditions,
    annotations]

/-! ### Depth -/

theorem EntityScope.depth_toJson_le (scope : EntityScope) : scope.toJson.depth ≤ 3 := by
  cases scope <;>
    simp [toJson, EntityUid.toJson, Json.depth, Json.depthMembers]

theorem ActionScope.depth_toJson_le (scope : ActionScope) : scope.toJson.depth ≤ 3 := by
  cases scope with
  | isInAny uids =>
    have items : Json.depthItems (uids.map EntityUid.toJson) ≤ 1 :=
      Json.depthItems_le_iff.mpr fun item inside => by
        obtain ⟨uid, -, rfl⟩ := List.mem_map.mp inside
        exact Nat.le_refl _
    simp only [toJson, Json.depth, Json.depthMembers]
    omega
  | _ => simp [toJson, EntityUid.toJson, Json.depth, Json.depthMembers]

/-- The conditions of a policy are not too deep for a stored policy to be read. -/
def IsShallow (policy : Policy) : Prop :=
  ∀ condition ∈ policy.conditions, condition.body.toJson.depth + 3 ≤ Json.Reader.maxDepth

instance (policy : Policy) : Decidable policy.IsShallow :=
  inferInstanceAs (Decidable (∀ condition ∈ policy.conditions, _))

/-- The object of a policy is within the depth that is read just if its conditions are. -/
theorem depth_annotated_le_iff {policy : Policy} {rows : List (String × Option String)} :
    (policy.annotated rows).depth ≤ Json.Reader.maxDepth ↔ policy.IsShallow := by
  have annotations : Json.depthMembers (annotationMembers rows) ≤ 0 :=
    Json.depthMembers_le_iff.mpr fun member inside => by
      obtain ⟨row, -, rfl⟩ := List.mem_map.mp inside
      obtain ⟨key, text⟩ := row
      cases text <;> exact Nat.le_refl _
  have principal := policy.principal.depth_toJson_le
  have action := policy.action.depth_toJson_le
  have resource := policy.resource.depth_toJson_le
  have conditions : Json.depthItems (policy.conditions.map Condition.toJson) + 2 ≤
      Json.Reader.maxDepth ↔ policy.IsShallow := by
    rw [show Json.Reader.maxDepth = 125 + 2 from rfl, Nat.add_le_add_iff_right,
      Json.depthItems_le_iff, List.forall_mem_map]
    refine forall₂_congr fun condition _ => ?_
    simp only [Condition.toJson, Json.depth, Json.depthMembers, Json.Reader.maxDepth]
    omega
  rw [← conditions, Json.Reader.maxDepth]
  simp only [annotated, ruleMembers, List.cons_append, List.nil_append, Json.depth,
    Json.depthMembers]
  omega

end Policy

end PolicyLedger
