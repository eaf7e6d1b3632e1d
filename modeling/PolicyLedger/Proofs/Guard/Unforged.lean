/-
**Forged names.**

No request may name an entity of the reserved namespace but the principal, which belongs to nothing
that the caller says (`Environment.Unforged`). The guard keeps this exactly as far as it sees the
names (`Guard.unforged_iff_seesAll`): a request that passes it is free of forged names if and only
if the reserved names that it overlooks are names of the principal and the caller's descriptions of
the principal list no parents (`Guard.SeesAll`).

* `exists_missed_of_spelled`: a reserved name that is spelled is the principal or overlooked;
* `named_of_spelled`: what is spelled, overlooked or not, is in the environment;
* `forged_of_role`: a list of a type and an id is overlooked, so a membership can be forged.
-/

import PolicyLedger.Proofs.Guard.Missed
import PolicyLedger.Proofs.Name.Reserved

namespace PolicyLedger

open Policy (Entity EntityUid Environment Spells)

namespace Json

/-- The texts of the name of the entity that is described. -/
def describedTexts? (item : Json) : Option (String × String) :=
  (Record.of? entityFields item).bind fun record =>
    (record.fields.lookup "uid").bind entityTexts?

/-- The parents that are listed in a description. -/
def describedParents (item : Json) : List Json :=
  (((Record.of? entityFields item).bind fun record => record.fields.lookup "parents").bind
    asList?).getD []

end Json

namespace Guard

/-- The guard overlooks only names of the principal, and no parents of it. -/
structure SeesAll (query : AccessQuery) (principal : EntityUid) : Prop where
  names : ∀ texts ∈ missed query, isReserved texts.1 = true → texts = principal.texts
  parents : ∀ item ∈ query.items, item.describedTexts? = some principal.texts →
    item.describedParents = []

/-! ### The resolution of a query -/

/-- The parts of an environment come from the parts of the query. -/
theorem environment_eq_ok {query : AccessQuery} {env : Environment}
    (resolved : Resolution.environment query = .ok env) :
    ∃ found rows, Resolution.parties query = .ok found ∧
      (Resolution.items query found).mapM Entity.ofJson? = some rows ∧
      Policy.Entities.ofRows? rows = some env.entities ∧
      Policy.contextOf? query.context = some env.context ∧
      EntityUid.ofTexts? found.principal = some env.principal ∧
      EntityUid.ofTexts? found.action = some env.action ∧
      EntityUid.ofTexts? found.resource = some env.resource := by
  obtain ⟨found, parties, resolved⟩ := Steps.bind_eq_ok.mp resolved
  cases read : Policy.Entities.ofJson? (Resolution.items query found) with
  | none =>
    rw [read] at resolved
    cases resolved
  | some entities =>
    cases given : Policy.contextOf? query.context with
    | none =>
      rw [read, given] at resolved
      cases resolved
    | some context =>
      simp only [read, given] at resolved
      obtain ⟨principal, first, resolved⟩ := Steps.bind_eq_ok.mp resolved
      obtain ⟨action, second, resolved⟩ := Steps.bind_eq_ok.mp resolved
      obtain ⟨resource, third, resolved⟩ := Steps.bind_eq_ok.mp resolved
      obtain rfl := Except.ok.inj resolved
      obtain ⟨rows, readRows, collected⟩ := Option.bind_eq_some_iff.mp read
      have named : ∀ {texts uid}, Resolution.partyUid texts = .ok uid →
          EntityUid.ofTexts? texts = some uid := by
        intro texts uid party
        rw [Resolution.partyUid] at party
        split at party
        next other found => rw [found, Except.ok.inj party]
        · cases party
      exact ⟨found, rows, parties, readRows, collected, rfl, named first, named second,
        named third⟩

/-- The parties of a query have the texts of its parts. -/
theorem parties_eq_ok {query : AccessQuery} {found : Resolution.Parties}
    (parties : Resolution.parties query = .ok found) :
    Resolution.subjectType query.subject.kind = .ok found.principal.1 ∧
      found.principal.2 = query.subject.id ∧
      Resolution.splitAction query.action.name = .ok found.action ∧
      found.resource.1 = Text.trimmed query.resource.kind := by
  obtain ⟨_, _, parties⟩ := Steps.bind_eq_ok.mp parties
  obtain ⟨type, subject, parties⟩ := Steps.bind_eq_ok.mp parties
  obtain ⟨action, split, parties⟩ := Steps.bind_eq_ok.mp parties
  obtain rfl := Except.ok.inj parties
  exact ⟨subject, rfl, split, rfl⟩

/-- Descriptions with one of a party are the descriptions and perhaps one more. -/
theorem mem_pushEntity {items : List Json} {type id : String} {attributes : Properties}
    {item : Json} (inside : item ∈ Resolution.pushEntity items type id attributes) :
    item ∈ items ∨ item = Resolution.entityJson type id attributes := by
  rw [Resolution.pushEntity] at inside
  split at inside
  · exact .inl inside
  · exact (List.mem_append.mp inside).imp_right List.mem_singleton.mp

theorem subset_pushEntity (items : List Json) (type id : String) (attributes : Properties) :
    items ⊆ Resolution.pushEntity items type id attributes := by
  rw [Resolution.pushEntity]
  split
  · exact fun _ inside => inside
  · exact List.subset_append_left _ _

/-- A description is the caller's, or it is made for a party. -/
theorem mem_items {query : AccessQuery} {found : Resolution.Parties} {item : Json}
    (inside : item ∈ Resolution.items query found) :
    item ∈ query.items ∨
      item = Resolution.entityJson found.principal.1 found.principal.2 query.subject.properties ∨
      item = Resolution.entityJson found.action.1 found.action.2 query.action.properties ∨
      item = Resolution.entityJson found.resource.1 found.resource.2 query.resource.properties := by
  obtain inside | last := mem_pushEntity inside
  · obtain inside | last := mem_pushEntity inside
    · obtain inside | last := mem_pushEntity inside
      · exact .inl inside
      · exact .inr (.inl last)
    · exact .inr (.inr (.inl last))
  · exact .inr (.inr (.inr last))

theorem subset_items (query : AccessQuery) (found : Resolution.Parties) :
    query.items ⊆ Resolution.items query found := fun _ inside =>
  subset_pushEntity _ _ _ _ (subset_pushEntity _ _ _ _ (subset_pushEntity _ _ _ _ inside))

/-- A description of a party repeats no key if its properties do not. -/
theorem hasDistinctKeys_entityJson {type id : String} {attributes : Properties}
    (distinct : Json.AreDistinct attributes) :
    (Resolution.entityJson type id attributes).hasDistinctKeys = true := by
  have proper := Json.hasDistinctKeys_object.mpr distinct
  simp [Resolution.entityJson, Json.hasDistinctKeys, Json.membersHaveDistinctKeys,
    Json.itemsHaveDistinctKeys, Json.Record.distinctKeys] at proper ⊢
  exact proper

/-- No description repeats a key. -/
theorem hasDistinctKeys_items {query : AccessQuery} {found : Resolution.Parties}
    (distinct : query.HasDistinctKeys) :
    ∀ item ∈ Resolution.items query found, item.hasDistinctKeys = true := by
  intro item inside
  obtain inside | rfl | rfl | rfl := mem_items inside
  · exact distinct.items item inside
  · exact hasDistinctKeys_entityJson distinct.subject
  · exact hasDistinctKeys_entityJson distinct.action
  · exact hasDistinctKeys_entityJson distinct.resource

/-! ### What the guard lets pass -/

/-- Every identifier of a query that passes is not reserved. -/
theorem isReserved_of_verify {query : AccessQuery} (guarded : verify query = .ok ()) :
    ∀ claim ∈ claims query, isReserved claim.identifier = false := fun claim inside =>
  refuseReserved_eq_ok.mp (Steps.forM_eq_ok.mp guarded claim inside)

theorem mem_claims_of_item {query : AccessQuery} {item : Json} {claim : Claim}
    (inside : item ∈ query.items) (claimed : claim ∈ entityClaims item) :
    claim ∈ claims query := by
  simp only [claims, List.mem_append, List.mem_flatMap]
  exact .inr ⟨item, inside, claimed⟩

/-- The guard looks at the types of the references in all properties and in the context. -/
theorem mem_claims_of_reference {query : AccessQuery} {members : Properties} {type : String}
    (known : members = query.subject.properties ∨ members = query.action.properties ∨
      members = query.resource.properties ∨ members = query.context)
    (looked : type ∈ Json.referenceTypesOfMembers members) :
    ∃ claim ∈ claims query, claim.identifier = type := by
  obtain rfl | rfl | rfl | rfl := known
  · refine ⟨⟨"subject property", type⟩, ?_, rfl⟩
    simp [claims, propertyClaims, referenceClaims, looked]
  · refine ⟨⟨"action property", type⟩, ?_, rfl⟩
    simp [claims, propertyClaims, referenceClaims, looked]
  · refine ⟨⟨"resource property", type⟩, ?_, rfl⟩
    simp [claims, propertyClaims, referenceClaims, looked]
  · refine ⟨⟨"context value", type⟩, ?_, rfl⟩
    simp [claims, propertyClaims, referenceClaims, looked]

/-- What is found in the description of a party is found in its name and in its properties. -/
theorem findInEntity_entityJson {α : Type} (inName : Json → List α)
    (inMembers : List (String × Json) → List α) (type id : String) (attributes : Properties) :
    (Resolution.entityJson type id attributes).findInEntity inName inMembers =
      inName (.object [("type", .text type), ("id", .text id)]) ++ [] ++ inMembers attributes ++
        inMembers [] := rfl

/-- The names in the description of a party are its own and those in its properties. -/
theorem mem_entityNameTexts_entityJson {type id : String} {attributes : Properties}
    {texts : String × String}
    (found : texts ∈ (Resolution.entityJson type id attributes).entityNameTexts) :
    texts = (type, id) ∨ texts ∈ Json.nameTextsOfMembers attributes := by
  rw [Json.entityNameTexts, findInEntity_entityJson] at found
  obtain (own | inside) | impossible := (List.mem_append.mp found).imp_left List.mem_append.mp
  · exact .inl (List.mem_singleton.mp own)
  · exact .inr inside
  · cases impossible

/-- What is overlooked in the properties of a party is overlooked in its description. -/
theorem mem_missedInEntity_entityJson {type id : String} {attributes : Properties}
    {texts : String × String} (found : texts ∈ Json.missedTextsOfMembers attributes) :
    texts ∈ (Resolution.entityJson type id attributes).missedInEntity := by
  show texts ∈ (Resolution.entityJson type id attributes).findInEntity _ _
  rw [findInEntity_entityJson]
  exact List.mem_append_left _ (List.mem_append_right _ found)

variable {query : AccessQuery} {found : Resolution.Parties}

/-- A reserved name that is spelled in a description of a party is the party or overlooked. -/
theorem mem_missed_of_party {type id : String} {attributes : Properties} {texts : String × String}
    (guarded : verify query = .ok ())
    (known : attributes = query.subject.properties ∨ attributes = query.action.properties ∨
      attributes = query.resource.properties ∨ attributes = query.context)
    (spelled : texts ∈ (Resolution.entityJson type id attributes).entityNameTexts)
    (reserved : isReserved texts.1 = true) :
    texts = (type, id) ∨ texts ∈ (Resolution.entityJson type id attributes).missedInEntity := by
  refine (mem_entityNameTexts_entityJson spelled).imp_right fun inside => ?_
  obtain overlooked | looked := Json.mem_missedTextsOfMembers_or attributes inside
  · exact mem_missedInEntity_entityJson overlooked
  · obtain ⟨claim, claimed, same⟩ := mem_claims_of_reference known looked
    have free := isReserved_of_verify guarded claim claimed
    rw [same, reserved] at free
    cases free

/-- The action and the resource of a query that passes are not reserved. -/
theorem isReserved_parties (guarded : verify query = .ok ())
    (parties : Resolution.parties query = .ok found) :
    isReserved found.action.1 = false ∧ isReserved found.resource.1 = false := by
  obtain ⟨_, _, split, resource⟩ := parties_eq_ok parties
  have free := isReserved_of_verify guarded
  constructor
  · rw [Bool.eq_false_iff]
    intro reserved
    have whole := Resolution.isReserved_of_splitAction split reserved
    have passed := free ⟨"action", query.action.name⟩ (by simp [claims])
    exact absurd (whole.symm.trans passed) (by decide)
  · rw [resource, isReserved_trimmed]
    exact free ⟨"resource type", query.resource.kind⟩ (by simp [claims])

/-- A reserved name that is spelled in a query that passes is the principal or overlooked. -/
theorem exists_missed_of_spelled {texts : String × String} (guarded : verify query = .ok ())
    (parties : Resolution.parties query = .ok found)
    (spelled : texts ∈ (Resolution.items query found).flatMap Json.entityNameTexts ++
      Json.nameTextsOfMembers query.context)
    (reserved : isReserved texts.1 = true) : texts = found.principal ∨ texts ∈ missed query := by
  have free := isReserved_of_verify guarded
  obtain ⟨action, resource⟩ := isReserved_parties guarded parties
  rw [missed, parties]
  simp only [List.mem_append, List.mem_flatMap] at spelled ⊢
  obtain ⟨item, inside, spelled⟩ | spelled := spelled
  · obtain called | rfl | rfl | rfl := mem_items inside
    · obtain overlooked | ⟨claim, claimed, same⟩ := mem_missedInEntity_or spelled
      · exact .inr (.inl ⟨item, inside, overlooked⟩)
      · have passed := free claim (mem_claims_of_item called claimed)
        rw [same, reserved] at passed
        cases passed
    · exact (mem_missed_of_party guarded (.inl rfl) spelled reserved).imp_right
        fun overlooked => .inl ⟨_, inside, overlooked⟩
    · obtain rfl | overlooked :=
        mem_missed_of_party guarded (.inr (.inl rfl)) spelled reserved
      · exact absurd (reserved.symm.trans action) (by decide)
      · exact .inr (.inl ⟨_, inside, overlooked⟩)
    · obtain rfl | overlooked :=
        mem_missed_of_party guarded (.inr (.inr (.inl rfl))) spelled reserved
      · exact absurd (reserved.symm.trans resource) (by decide)
      · exact .inr (.inl ⟨_, inside, overlooked⟩)
  · obtain overlooked | looked := Json.mem_missedTextsOfMembers_or _ spelled
    · exact .inr (.inr overlooked)
    · obtain ⟨claim, claimed, same⟩ :=
        @mem_claims_of_reference query _ _ (.inr (.inr (.inr rfl))) looked
      have passed := free claim claimed
      rw [same, reserved] at passed
      cases passed

/-! ### Names in the environment -/

/-- A description that is read has the name and the parents that are written in it. -/
theorem described_of_ofJson? {item : Json} {entity : Entity}
    (read : Entity.ofJson? item = some entity) :
    item.describedTexts? = some entity.uid.texts ∧
      EntityUid.ofTexts? entity.uid.texts = some entity.uid ∧
        item.describedParents.mapM EntityUid.ofJson? = some entity.parents := by
  obtain ⟨record, given, uid, _, parents, _⟩ := Entity.ofJson?_eq_some read
  obtain ⟨uidValue, uidGiven, uid⟩ := Option.bind_eq_some_iff.mp uid
  obtain ⟨parentsValue, parentsGiven, parents⟩ := Option.bind_eq_some_iff.mp parents
  rw [EntityUid.ofJson?_eq] at uid
  obtain ⟨texts, found, named⟩ := Option.bind_eq_some_iff.mp uid
  refine ⟨?_, EntityUid.ofTexts?_inj named, ?_⟩
  · simp only [Json.describedTexts?, given, uidGiven, Option.bind_some, found]
    rw [EntityUid.texts_of_ofTexts? named]
  · cases parentsValue with
    | list items =>
      simp only [Json.describedParents, given, parentsGiven, Option.bind_some]
      exact parents
    | _ => cases parents

/-- The texts of all names that are spelled in a query. -/
def spelled (query : AccessQuery) (found : Resolution.Parties) : List (String × String) :=
  (Resolution.items query found).flatMap Json.entityNameTexts ++
    Json.nameTextsOfMembers query.context

variable {env : Environment} {rows : List Entity}

/-- A name in a description or in the context is spelled in the query. -/
theorem spelled_of_mem (distinct : query.HasDistinctKeys)
    (readRows : (Resolution.items query found).mapM Entity.ofJson? = some rows)
    (collected : Policy.Entities.ofRows? rows = some env.entities)
    (context : Policy.contextOf? query.context = some env.context) {uid : EntityUid}
    (inside : (∃ row ∈ env.entities.rows, uid ∈ row.names) ∨
      uid ∈ Policy.Value.namesOfFields env.context) :
    uid.texts ∈ spelled query found ∧ EntityUid.ofTexts? uid.texts = some uid := by
  obtain ⟨row, described, inside⟩ | inside := inside
  · obtain ⟨item, source, read⟩ := Steps.exists_of_mem_right (Steps.mapM_eq_some_iff.mp readRows)
      (Policy.Entities.mem_of_mem_rows collected described)
    have spells := Entity.spells_ofJson? (hasDistinctKeys_items distinct item source) read
    obtain ⟨written, named⟩ := spells.mem_iff.mp inside
    exact ⟨List.mem_append_left _ (List.mem_flatMap.mpr ⟨item, source, written⟩), named⟩
  · obtain ⟨written, named⟩ :=
      (Policy.spells_contextOf? distinct.context context).mem_iff.mp inside
    exact ⟨List.mem_append_right _ written, named⟩

/-- What is spelled in the query is a name in the environment. -/
theorem named_of_spelled (distinct : query.HasDistinctKeys)
    (readRows : (Resolution.items query found).mapM Entity.ofJson? = some rows)
    (collected : Policy.Entities.ofRows? rows = some env.entities)
    (context : Policy.contextOf? query.context = some env.context) {texts : String × String}
    (written : texts ∈ spelled query found) :
    ∃ uid, EntityUid.ofTexts? texts = some uid ∧ env.Names uid := by
  obtain written | written := List.mem_append.mp written
  · obtain ⟨item, source, written⟩ := List.mem_flatMap.mp written
    obtain ⟨entity, inside, read⟩ :=
      Steps.exists_of_mem_left (Steps.mapM_eq_some_iff.mp readRows) source
    have spells := Entity.spells_ofJson? (hasDistinctKeys_items distinct item source) read
    obtain ⟨uid, holding, named⟩ := spells.named texts written
    refine ⟨uid, named, Environment.names_iff.mpr (.inr (.inr (.inl ?_)))⟩
    obtain ⟨row, described, rfl | agree⟩ := Policy.Entities.exists_row_of_mem collected inside
    · exact ⟨row, described, holding⟩
    · exact ⟨row, described, Entity.names_subset_of_agrees agree holding⟩
  · have spells := Policy.spells_contextOf? distinct.context context
    obtain ⟨uid, holding, named⟩ := spells.named texts written
    exact ⟨uid, named, Environment.names_iff.mpr (.inr (.inr (.inr holding)))⟩

/-- What is overlooked is spelled. -/
theorem spelled_of_missed (parties : Resolution.parties query = .ok found)
    {texts : String × String} (overlooked : texts ∈ missed query) :
    texts ∈ spelled query found := by
  rw [missed, parties] at overlooked
  obtain overlooked | overlooked := List.mem_append.mp overlooked
  · obtain ⟨item, inside, overlooked⟩ := List.mem_flatMap.mp overlooked
    exact List.mem_append_left _
      (List.mem_flatMap.mpr ⟨item, inside, Json.missedInEntity_subset item overlooked⟩)
  · exact List.mem_append_right _ (Json.missedTextsOfMembers_subset _ overlooked)

/-- The descriptions of the principal list no parents if the caller's do not, and the other way
round. -/
theorem noParents_iff
    (readRows : (Resolution.items query found).mapM Entity.ofJson? = some rows)
    (collected : Policy.Entities.ofRows? rows = some env.entities)
    (principal : EntityUid.ofTexts? found.principal = some env.principal) :
    (∀ row ∈ env.entities.rows, row.uid = env.principal → row.parents = []) ↔
      ∀ item ∈ query.items, item.describedTexts? = some env.principal.texts →
        item.describedParents = [] := by
  have readEach := Steps.mapM_eq_some_iff.mp readRows
  constructor
  · intro noParents item called same
    obtain ⟨entity, inside, read⟩ :=
      Steps.exists_of_mem_left readEach (subset_items query found called)
    obtain ⟨texts, named, parents⟩ := described_of_ofJson? read
    have equal : entity.uid = env.principal := by
      rw [Option.some.inj (texts.symm.trans same), EntityUid.ofTexts?_inj principal] at named
      exact (Option.some.inj named).symm
    obtain ⟨row, described, agree⟩ := Policy.Entities.exists_row_of_mem collected inside
    have orphan : entity.parents = [] := by
      obtain rfl | agree := agree
      · exact noParents row described equal
      · obtain ⟨uid, _, _, _, parents⟩ := Entity.agrees_iff.mp agree
        rw [noParents row described (uid.trans equal)] at parents
        exact List.subset_nil.mp parents
    rw [orphan] at parents
    exact List.forall₂_nil_right_iff.mp (Steps.mapM_eq_some_iff.mp parents)
  · intro unlisted row described same
    obtain ⟨item, source, read⟩ :=
      Steps.exists_of_mem_right readEach (Policy.Entities.mem_of_mem_rows collected described)
    obtain ⟨texts, _, parents⟩ := described_of_ofJson? read
    have orphan : item.describedParents = [] := by
      obtain called | rfl | rfl | rfl := mem_items source
      · exact unlisted item called (same ▸ texts)
      · rfl
      · rfl
      · rfl
    rw [orphan] at parents
    exact (Option.some.inj parents).symm

/-! ### The guard and the readers -/

/-- A query that passes the guard and is resolved has the principal that its kind of subject stands
for, and no name in it is forged exactly if the guard sees all that matters. -/
theorem unforged_iff_seesAll {query : AccessQuery} {env : Environment}
    (distinct : query.HasDistinctKeys) (guarded : verify query = .ok ())
    (resolved : Resolution.environment query = .ok env) :
    Resolution.subjectType query.subject.kind = .ok env.principal.type.text ∧
      env.principal.id = query.subject.id ∧
      (env.Unforged ↔ SeesAll query env.principal) := by
  obtain ⟨found, rows, parties, readRows, collected, context, principal, action, resource⟩ :=
    environment_eq_ok resolved
  obtain ⟨subject, id, _, _⟩ := parties_eq_ok parties
  obtain ⟨freeAction, freeResource⟩ := isReserved_parties guarded parties
  have texts := EntityUid.texts_of_ofTexts? principal
  have parents := noParents_iff readRows collected principal
  refine ⟨?_, ?_, fun unforged => ⟨fun other overlooked reserved => ?_, ?_⟩,
    fun seesAll => ⟨fun uid named reserved => ?_, ?_⟩⟩
  · rw [subject, ← texts]
    rfl
  · rw [← id, ← texts]
    rfl
  · obtain ⟨uid, named, occurs⟩ := named_of_spelled distinct readRows collected context
      (spelled_of_missed parties overlooked)
    have same := EntityUid.texts_of_ofTexts? named
    have reserved : isReserved uid.type.text = true := by
      rw [← reserved, ← same]
      rfl
    rw [← same, unforged.onlyPrincipal uid occurs reserved]
  · exact parents.mp unforged.noParents
  · obtain rfl | rfl | inside := Environment.names_iff.mp named
    · rw [← EntityUid.texts_of_ofTexts? action] at freeAction
      exact absurd (reserved.symm.trans freeAction) (by decide)
    · rw [← EntityUid.texts_of_ofTexts? resource] at freeResource
      exact absurd (reserved.symm.trans freeResource) (by decide)
    · obtain ⟨written, spelling⟩ := spelled_of_mem distinct readRows collected context inside
      have same : uid.texts = env.principal.texts := by
        obtain same | overlooked := exists_missed_of_spelled guarded parties written reserved
        · exact same.trans texts.symm
        · exact seesAll.names uid.texts overlooked reserved
      rw [same, EntityUid.ofTexts?_inj principal] at spelling
      exact (Option.some.inj spelling).symm
  · exact parents.mpr seesAll.parents

/-- A query of a user about a document, with a description of the document whose parent is the
given value. -/
def documentQuery (parent : Json) : AccessQuery where
  subject := { kind := "USER", id := "mallory" }
  resource := { kind := "Document", id := "42" }
  action := { name := "Document::Read" }
  entities := some { items := [.object [
    ("uid", .object [("type", .text "Document"), ("id", .text "42")]),
    ("attrs", .object []), ("parents", .list [parent])]] }

/-- The name of a folder. -/
def folder : Json := .object [("type", .text "Folder"), ("id", .text "f")]

/-- A parent that the guard sees leaves the query free of forged names. -/
theorem unforged_of_folder :
    ∃ env, Resolution.environment (documentQuery folder) = .ok env ∧ env.Unforged := by
  refine ⟨_, rfl, (@unforged_iff_seesAll (documentQuery folder) _ ?_ rfl rfl).2.2.mpr ⟨?_, ?_⟩⟩
  · exact ⟨.nil, .nil, .nil, .nil, by decide⟩
  · exact fun _ overlooked => absurd overlooked List.not_mem_nil
  · intro item called same
    obtain rfl := List.mem_singleton.mp called
    exact absurd same (by decide)

/-- A role of the platform that is written as a list of type and id passes as a parent. -/
theorem forged_of_role : ∃ query env, query.HasDistinctKeys ∧ verify query = .ok () ∧
    Resolution.environment query = .ok env ∧ ¬ env.Unforged := by
  refine ⟨documentQuery (.list [.text "ZTAuth::IAM::Role", .text "admin"]), _, ?_, rfl, rfl, ?_⟩
  · exact ⟨.nil, .nil, .nil, .nil, by decide⟩
  · intro unforged
    let role : EntityUid := ⟨⟨["ZTAuth", "IAM"], "Role"⟩, "admin"⟩
    let document : Entity := ⟨⟨⟨[], "Document"⟩, "42"⟩, [], [role], []⟩
    have occurs := unforged.onlyPrincipal role
      (@Environment.Names.parent _ document role List.mem_cons_self List.mem_cons_self) (by decide)
    exact absurd occurs (by decide)

end Guard

end PolicyLedger
