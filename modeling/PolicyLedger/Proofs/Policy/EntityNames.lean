/-
**The names of entities in an environment.**

The description of an entity holds its own name, the names of its parents and the names in its
attributes and tags (`Entity.names`); the JSON it is read from spells the same names
(`Entity.spells_ofJson?`). Descriptions are collected without losing a name: one that is left out
agrees with one that is kept (`exists_row_of_mem`).

* `Environment.Names`: a name occurs in an environment, the principal's own place apart;
* `names_iff`: the places where a name can occur, ancestors being parents of something.
-/

import PolicyLedger.Name
import PolicyLedger.Proofs.Policy.ValueNames

namespace PolicyLedger

namespace Json

/-- The type and the id in the name of an entity, with or without its escape. -/
def entityTexts? (value : Json) : Option (String × String) :=
  match value.member? "__expr" with
  | some (.text _) => none
  | _ =>
    match (value.member? "__entity").bind Policy.typeAndId? with
    | some texts => some texts
    | none => Policy.typeAndId? value

/-- The fields of the description of an entity. -/
def entityFields : List String := ["uid", "attrs", "parents", "tags"]

/-- What is found in the description of an entity: in its name, in the names of its parents and in
the members that are its attributes and tags. -/
def findInEntity {α : Type} (inName : Json → List α) (inMembers : List (String × Json) → List α)
    (item : Json) : List α :=
  match Record.of? entityFields item with
  | none => []
  | some record =>
    let membersOf (key : String) := ((record.fields.lookup key).map members).getD []
    ((record.fields.lookup "uid").map inName).getD [] ++
      (((record.fields.lookup "parents").bind asList?).getD []).flatMap inName ++
      inMembers (membersOf "attrs") ++ inMembers (membersOf "tags")

/-- The texts of the names that the reader of entities finds in a description. -/
def entityNameTexts : Json → List (String × String) :=
  findInEntity (fun value => value.entityTexts?.toList) nameTextsOfMembers

namespace Record

/-- The fields that are given are values of the structure. -/
theorem hasDistinctKeys_of_lookup {names : List String} {value field : Json} {record : Record}
    {key : String} (read : of? names value = some record) (distinct : value.hasDistinctKeys = true)
    (given : record.fields.lookup key = some field) : field.hasDistinctKeys = true := by
  have inside : (key, field) ∈ record.fields := Steps.mem_of_lookup given
  cases value with
  | object members =>
    simp only [of?] at read
    split at read
    · obtain rfl := Option.some.inj read
      exact (hasDistinctKeys_object.mp distinct).2 _ (List.mem_of_mem_filter inside)
    · cases read
  | list items =>
    simp only [of?] at read
    split at read
    · obtain rfl := Option.some.inj read
      exact hasDistinctKeys_list.mp distinct _ (List.of_mem_zip inside).2
    · cases read
  | _ => cases read

end Record

end Json

open Json (Record)

namespace Policy

theorem EntityUid.ofJson?_eq (value : Json) :
    EntityUid.ofJson? value = value.entityTexts?.bind EntityUid.ofTexts? := by
  unfold EntityUid.ofJson? Json.entityTexts?
  generalize value.member? "__expr" = refusal
  generalize (value.member? "__entity").bind typeAndId? = escaped
  cases refusal with
  | none => cases escaped <;> rfl
  | some word => cases word <;> cases escaped <;> rfl

/-- A name that is read is spelled. -/
theorem spells_uid {value : Json} {uid : EntityUid} (read : EntityUid.ofJson? value = some uid) :
    Spells value.entityTexts?.toList [uid] := by
  rw [EntityUid.ofJson?_eq] at read
  obtain ⟨texts, found, named⟩ := Option.bind_eq_some_iff.mp read
  rw [found]
  exact .singleton named

/-- Names that are read one by one are spelled. -/
theorem spells_parents {value : Json} {parents : List EntityUid}
    (read : value.asListOf? EntityUid.ofJson? = some parents) :
    Spells ((value.asList?.getD []).flatMap fun item => item.entityTexts?.toList) parents := by
  cases value with
  | list items =>
    have each := Steps.mapM_eq_some_iff.mp read
    have spells := Spells.of_forall₂ (f := fun item : Json => item.entityTexts?.toList)
      (g := fun uid => [uid]) (each.imp fun _ _ found => spells_uid found)
    rw [List.flatMap_singleton'] at spells
    exact spells
  | _ => cases read

namespace Entity

/-- The names in the description of an entity. -/
def names (entity : Entity) : List EntityUid :=
  [entity.uid] ++ entity.parents ++ Value.namesOfFields entity.attributes ++
    Value.namesOfFields entity.tags

/-- A description that is read comes from a structure with its fields. -/
theorem ofJson?_eq_some {item : Json} {entity : Entity} (read : ofJson? item = some entity) :
    ∃ record, Record.of? Json.entityFields item = some record ∧
      record.required "uid" EntityUid.ofJson? = some entity.uid ∧
      record.required "attrs" fieldsOf? = some entity.attributes ∧
      record.required "parents" (Json.asListOf? EntityUid.ofJson?) = some entity.parents ∧
      record.defaulted "tags" [] fieldsOf? = some entity.tags := by
  simp only [ofJson?, bind, Option.bind_eq_some_iff] at read
  obtain ⟨record, given, uid, readUid, attributes, readAttributes, parents, readParents, tags,
    readTags, result⟩ := read
  split at result
  · cases result
  · obtain rfl := Option.some.inj result
    exact ⟨record, given, readUid, readAttributes, readParents, readTags⟩

/-- The description of an entity holds the names that are spelled. -/
theorem spells_ofJson? {item : Json} {entity : Entity} (distinct : item.hasDistinctKeys = true)
    (read : ofJson? item = some entity) : Spells item.entityNameTexts entity.names := by
  obtain ⟨record, given, uid, attributes, parents, tags⟩ := ofJson?_eq_some read
  obtain ⟨uidValue, uidGiven, uid⟩ := Option.bind_eq_some_iff.mp uid
  obtain ⟨attributesValue, attributesGiven, attributes⟩ := Option.bind_eq_some_iff.mp attributes
  obtain ⟨parentsValue, parentsGiven, parents⟩ := Option.bind_eq_some_iff.mp parents
  rw [Json.entityNameTexts, Json.findInEntity, given]
  simp only [uidGiven, attributesGiven, parentsGiven, Option.map_some, Option.getD_some,
    Option.bind_some]
  refine .append (.append (.append (spells_uid uid) (spells_parents parents)) ?_) ?_
  · have distinctAttributes := Record.hasDistinctKeys_of_lookup given distinct attributesGiven
    exact spells_fieldsOf? distinctAttributes attributes
  · rw [Record.defaulted] at tags
    split at tags
    next missing =>
      have untagged := Option.some.inj tags
      simp only [missing, Option.map_none, Option.getD_none, ← untagged]
      exact .nil
    next value tagsGiven =>
      simp only [tagsGiven, Option.map_some, Option.getD_some]
      exact spells_fieldsOf? (Record.hasDistinctKeys_of_lookup given distinct tagsGiven) tags

theorem agrees_iff {a b : Entity} :
    a.agrees b = true ↔ a.uid = b.uid ∧ Value.sameFields a.attributes b.attributes = true ∧
      Value.sameFields a.tags b.tags = true ∧ a.parents ⊆ b.parents ∧ b.parents ⊆ a.parents := by
  simp only [agrees, Bool.and_eq_true, decide_eq_true_eq, List.all_eq_true,
    List.contains_iff_mem, and_assoc]
  exact Iff.rfl

/-- A description has the names of those it agrees with. -/
theorem names_subset_of_agrees {a b : Entity} (agree : a.agrees b = true) : b.names ⊆ a.names := by
  obtain ⟨uid, attributes, tags, _, parents⟩ := agrees_iff.mp agree
  have attributes := Value.names_subset_of_sameFields _ _ attributes
  have tags := Value.names_subset_of_sameFields _ _ tags
  intro name inside
  simp only [names, List.mem_append, List.mem_singleton] at inside ⊢
  obtain ((inside | inside) | inside) | inside := inside
  · exact .inl (.inl (.inl (inside.trans uid.symm)))
  · exact .inl (.inl (.inr (parents inside)))
  · exact .inl (.inr (attributes inside))
  · exact .inr (tags inside)

end Entity

/-! ### Collections -/

namespace Entities

/-- One more description is kept, or it agrees with one that is there. -/
theorem add?_eq_some {entities result : Entities} {entity : Entity}
    (added : entities.add? entity = some result) :
    result.rows = entities.rows ++ [entity] ∨
      result.rows = entities.rows ∧ ∃ row ∈ entities.rows, row.agrees entity = true := by
  rw [add?] at added
  split at added
  · exact .inl (by rw [← Option.some.inj added])
  next row found =>
    split at added
    next agree =>
      exact .inr ⟨by rw [← Option.some.inj added], row, List.mem_of_find?_eq_some found, agree⟩
    · cases added

/-- What is collected was there or is one of the descriptions, and every description is kept or
agrees with one that is. -/
theorem foldlM_add? {described : List Entity} {entities result : Entities}
    (collected : described.foldlM add? entities = some result) :
    entities.rows ⊆ result.rows ∧
      (∀ row ∈ result.rows, row ∈ entities.rows ∨ row ∈ described) ∧
      ∀ entity ∈ described, ∃ row ∈ result.rows, row = entity ∨ row.agrees entity = true := by
  induction described generalizing entities with
  | nil =>
    obtain rfl := Option.some.inj collected
    exact ⟨fun _ inside => inside, fun _ inside => .inl inside, by simp⟩
  | cons entity rest ih =>
    rw [List.foldlM_cons] at collected
    obtain ⟨middle, added, collected⟩ := Option.bind_eq_some_iff.mp collected
    obtain ⟨kept, origin, covered⟩ := ih collected
    rw [List.forall_mem_cons]
    obtain new | ⟨same, row, there, agree⟩ := add?_eq_some added
    · rw [new] at kept origin
      refine ⟨fun _ inside => kept (List.mem_append_left _ inside), fun row inside => ?_,
        ⟨entity, kept (List.mem_append_right _ List.mem_cons_self), .inl rfl⟩, covered⟩
      obtain before | later := origin row inside
      · obtain before | here := List.mem_append.mp before
        · exact .inl before
        · exact .inr (List.mem_singleton.mp here ▸ List.mem_cons_self)
      · exact .inr (List.mem_cons_of_mem _ later)
    · rw [same] at kept origin
      exact ⟨kept, fun row inside => (origin row inside).imp id (List.mem_cons_of_mem _),
        ⟨row, kept there, .inr agree⟩, covered⟩

/-- A collection is collected from its descriptions. -/
theorem foldlM_of_ofRows? {rows : List Entity} {entities : Entities}
    (collected : ofRows? rows = some entities) : rows.foldlM add? ⟨[]⟩ = some entities :=
  (Option.filter_eq_some_iff.mp collected).1

theorem mem_of_mem_rows {rows : List Entity} {entities : Entities} {row : Entity}
    (collected : ofRows? rows = some entities) (inside : row ∈ entities.rows) : row ∈ rows := by
  obtain impossible | inside := (foldlM_add? (foldlM_of_ofRows? collected)).2.1 row inside
  · cases impossible
  · exact inside

/-- Every description is kept or agrees with one that is. -/
theorem exists_row_of_mem {rows : List Entity} {entities : Entities} {entity : Entity}
    (collected : ofRows? rows = some entities) (inside : entity ∈ rows) :
    ∃ row ∈ entities.rows, row = entity ∨ row.agrees entity = true :=
  (foldlM_add? (foldlM_of_ofRows? collected)).2.2 entity inside

/-- A name is met on the way upward only as a parent. -/
theorem climb_of_closed {entities : Entities} {Met : EntityUid → Prop}
    (closed : ∀ uid, ∀ parent ∈ entities.parents uid, Met parent) (room : Nat)
    {level met : List EntityUid} (fromLevel : ∀ uid ∈ level, Met uid)
    (fromMet : ∀ uid ∈ met, Met uid) : ∀ uid ∈ entities.climb room level met, Met uid := by
  induction room generalizing level met with
  | zero => exact fromMet
  | succ room ih =>
    rw [climb]
    split
    · exact fromMet
    next first rest fresh =>
      have fromFresh : ∀ uid ∈ first :: rest, Met uid := fun uid inside =>
        fromLevel uid (List.mem_of_mem_filter (fresh ▸ inside))
      refine ih (fun uid inside => ?_) (fun uid inside => ?_)
      · obtain ⟨child, _, inside⟩ := List.mem_flatMap.mp inside
        exact closed child uid inside
      · obtain inside | inside := List.mem_append.mp inside
        · exact fromMet uid inside
        · exact fromFresh uid inside

/-- The parents of an entity stand in its description. -/
theorem exists_row_of_parent {entities : Entities} {uid parent : EntityUid}
    (inside : parent ∈ entities.parents uid) : ∃ row ∈ entities.rows, parent ∈ row.parents := by
  rw [parents] at inside
  cases found : entities.find? uid with
  | none => simp [found] at inside
  | some row =>
    rw [found] at inside
    exact ⟨row, List.mem_of_find?_eq_some found, inside⟩

/-- Ancestors are parents of something. -/
theorem exists_row_of_ancestor {entities : Entities} {uid group : EntityUid}
    (inside : group ∈ entities.ancestors uid) : ∃ row ∈ entities.rows, group ∈ row.parents :=
  climb_of_closed (fun _ _ => exists_row_of_parent) _ (fun _ => exists_row_of_parent) (by simp)
    group inside

end Entities

/-! ### Environments -/

namespace Environment

/-- A name occurs in an environment: as the action or the resource, as the name, a parent or an
ancestor of an entity that is described, or in an attribute, a tag or the context. -/
inductive Names (env : Environment) : EntityUid → Prop
  | action : Names env env.action
  | resource : Names env env.resource
  | entity {row : Entity} (described : row ∈ env.entities.rows) : Names env row.uid
  | parent {row : Entity} {uid : EntityUid} (described : row ∈ env.entities.rows)
    (inside : uid ∈ row.parents) : Names env uid
  | ancestor {row : Entity} {uid : EntityUid} (described : row ∈ env.entities.rows)
    (inside : uid ∈ env.entities.ancestors row.uid) : Names env uid
  | inAttribute {row : Entity} {uid : EntityUid} (described : row ∈ env.entities.rows)
    (inside : uid ∈ Value.namesOfFields row.attributes) : Names env uid
  | inTag {row : Entity} {uid : EntityUid} (described : row ∈ env.entities.rows)
    (inside : uid ∈ Value.namesOfFields row.tags) : Names env uid
  | inContext {uid : EntityUid} (inside : uid ∈ Value.namesOfFields env.context) : Names env uid

/-- The places where a name can occur. -/
theorem names_iff {env : Environment} {uid : EntityUid} :
    env.Names uid ↔ uid = env.action ∨ uid = env.resource ∨
      (∃ row ∈ env.entities.rows, uid ∈ row.names) ∨ uid ∈ Value.namesOfFields env.context := by
  simp only [Entity.names, List.mem_append, List.mem_singleton]
  constructor
  · intro named
    cases named with
    | action => exact .inl rfl
    | resource => exact .inr (.inl rfl)
    | entity described => exact .inr (.inr (.inl ⟨_, described, .inl (.inl (.inl rfl))⟩))
    | parent described inside =>
      exact .inr (.inr (.inl ⟨_, described, .inl (.inl (.inr inside))⟩))
    | ancestor described inside =>
      obtain ⟨row, described, inside⟩ := Entities.exists_row_of_ancestor inside
      exact .inr (.inr (.inl ⟨row, described, .inl (.inl (.inr inside))⟩))
    | inAttribute described inside => exact .inr (.inr (.inl ⟨_, described, .inl (.inr inside)⟩))
    | inTag described inside => exact .inr (.inr (.inl ⟨_, described, .inr inside⟩))
    | inContext inside => exact .inr (.inr (.inr inside))
  · rintro (rfl | rfl | ⟨row, described, ((rfl | inside) | inside) | inside⟩ | inside)
    · exact .action
    · exact .resource
    · exact .entity described
    · exact .parent described inside
    · exact .inAttribute described inside
    · exact .inTag described inside
    · exact .inContext inside

/-- The principal is the only entity of the reserved namespace that occurs, and it belongs to
nothing. -/
structure Unforged (env : Environment) : Prop where
  onlyPrincipal : ∀ uid, env.Names uid → isReserved uid.type.text = true → uid = env.principal
  noParents : ∀ row ∈ env.entities.rows, row.uid = env.principal → row.parents = []

end Environment

end Policy

end PolicyLedger
