/-
**One description for each party.**

The caller's descriptions of entities are followed by one of each party that has none. Whether there
is one is decided by the texts `type` and `id` of its name (`Resolution.describes`), but the guard
and the reader of entities also know a name in an `__entity` member. So each party has exactly one
description if and only if the caller's description is found where there is one, and nowhere else
(`Resolution.Finds`).

* `count_describedUids_pushAll` — how many descriptions each entity has;
* `entitiesOfJson?_of_nodup` — descriptions of different entities do not contradict each other;
* `describedOnce_iff_finds` — when each party has one description, and what follows from it;
* `finds_of_plain` — plain names are found;
* `describedTwice_of_escapedName` — an escaped name is not found, and the request fails.
-/

import PolicyLedger.Proofs.Guard.Unforged

namespace PolicyLedger

open Policy (Entity EntityUid Entities)

namespace Json

/-- The type and the id in the name of the entity that is described, as the guard sees them. -/
def uidTexts? (item : Json) : Option (String × String) :=
  (item.member? "uid").bind referenceTexts?

/-- The entities that are described, once for each description. -/
def describedUids (items : List Json) : List (String × String) := items.filterMap uidTexts?

theorem bind_asText?_eq_some {member : Option Json} {text : String} :
    member.bind asText? = some text ↔ member = some (.text text) := by
  rcases member with _ | value
  · simp
  · cases value <;> simp [asText?]

end Json

namespace Resolution

open Json (describedUids)

/-- The caller's description of an entity is found if there is one, and no other is. -/
def Finds (items : List Json) (texts : String × String) : Prop :=
  texts ∈ describedUids items ↔ items.any (describes texts.1 texts.2) = true

/-- The texts of the parties. -/
def Parties.texts (found : Parties) : List (String × String) :=
  [found.principal, found.action, found.resource]

/-- Descriptions with one of each of some entities, unless there is one. -/
def pushAll (items : List Json) (parties : List ((String × String) × Properties)) : List Json :=
  parties.foldl (fun items party => pushEntity items party.1.1 party.1.2 party.2) items

/-- The parties of a query with their properties. -/
def Parties.attributed (found : Parties) (query : AccessQuery) :
    List ((String × String) × Properties) :=
  [(found.principal, query.subject.properties), (found.action, query.action.properties),
    (found.resource, query.resource.properties)]

/-! ### Descriptions that are made -/

theorem describes_entityJson {type id : String} {attributes : Properties}
    {texts : String × String} :
    describes texts.1 texts.2 (entityJson type id attributes) = true ↔ texts = (type, id) := by
  have parts : describes texts.1 texts.2 (entityJson type id attributes) =
      (decide (some type = some texts.1) && decide (some id = some texts.2)) := rfl
  rw [parts, Bool.and_eq_true, decide_eq_true_iff, decide_eq_true_iff, Option.some.injEq,
    Option.some.injEq, Prod.ext_iff, eq_comm, @eq_comm _ id]

/-- An entity is found after one was pushed if it was found before or is the one. -/
theorem any_describes_pushEntity {items : List Json} {party texts : String × String}
    {attributes : Properties} :
    (pushEntity items party.1 party.2 attributes).any (describes texts.1 texts.2) = true ↔
      items.any (describes texts.1 texts.2) = true ∨ texts = party := by
  rw [pushEntity]
  split
  next there =>
    refine (or_iff_left_of_imp ?_).symm
    rintro rfl
    exact there
  next =>
    rw [List.any_append, Bool.or_eq_true, List.any_cons, List.any_nil, Bool.or_false,
      describes_entityJson]

/-- The entity that is pushed has one description more if it was not found. -/
theorem count_describedUids_pushEntity {items : List Json} {party texts : String × String}
    {attributes : Properties} :
    (describedUids (pushEntity items party.1 party.2 attributes)).count texts =
      (describedUids items).count texts +
        if texts = party ∧ ¬ items.any (describes texts.1 texts.2) = true then 1 else 0 := by
  rw [pushEntity]
  split
  next there =>
    rw [if_neg, Nat.add_zero]
    rintro ⟨rfl, missing⟩
    exact missing there
  next missing =>
    have more : describedUids (items ++ [entityJson party.1 party.2 attributes]) =
        describedUids items ++ [party] := List.filterMap_append
    rw [more, List.count_append, List.count_singleton]
    congr 1
    by_cases same : texts = party
    · subst same
      rw [if_pos (beq_self_eq_true _), if_pos ⟨rfl, missing⟩]
    · rw [if_neg fun equal => same (eq_of_beq equal).symm, if_neg fun both => same both.1]

/-- How many descriptions an entity has in the end. -/
theorem count_describedUids_pushAll (items : List Json)
    (parties : List ((String × String) × Properties)) (texts : String × String) :
    (describedUids (pushAll items parties)).count texts =
      (describedUids items).count texts +
        if texts ∈ parties.map Prod.fst ∧ ¬ items.any (describes texts.1 texts.2) = true
          then 1 else 0 := by
  induction parties generalizing items with
  | nil => simp [pushAll]
  | cons party parties ih =>
    show (describedUids (pushAll (pushEntity items _ _ _) parties)).count texts = _
    simp only [ih, count_describedUids_pushEntity, any_describes_pushEntity, Nat.add_assoc,
      List.map_cons, List.mem_cons]
    congr 1
    by_cases there : items.any (describes texts.1 texts.2) = true
    · simp only [there, not_true_eq_false, and_false, true_or, if_false, Nat.add_zero]
    · by_cases same : texts = party.1
      · simp only [same, or_true, not_true_eq_false, and_false, true_or, if_false, Nat.add_zero]
      · simp only [there, same, or_false, false_and, false_or, if_false, Nat.zero_add]

/-- What is pushed follows the items, each entity at most once and in its order. -/
theorem exists_pushAll (items : List Json) (parties : List ((String × String) × Properties)) :
    ∃ added, pushAll items parties = items ++ added ∧
      added.Sublist (parties.map fun party => entityJson party.1.1 party.1.2 party.2) := by
  induction parties generalizing items with
  | nil => exact ⟨[], (List.append_nil _).symm, .slnil⟩
  | cons party parties ih =>
    obtain ⟨added, whole, made⟩ := ih (pushEntity items party.1.1 party.1.2 party.2)
    have unfolded : pushAll items (party :: parties) =
        pushEntity items party.1.1 party.1.2 party.2 ++ added := whole
    rw [unfolded, pushEntity]
    split
    · exact ⟨added, rfl, made.cons _⟩
    · exact ⟨_ :: added, by rw [List.append_assoc]; rfl, made.cons_cons _⟩

end Resolution

/-! ### Descriptions that are read -/

namespace Policy.Entities

/-- Descriptions of different entities are all kept. -/
theorem foldlM_add?_of_nodup {rows : List Entity} {entities : Entities}
    (distinct : ((entities.rows ++ rows).map (·.uid)).Nodup) :
    rows.foldlM add? entities = some ⟨entities.rows ++ rows⟩ := by
  induction rows generalizing entities with
  | nil => rw [List.append_nil]; rfl
  | cons row rows ih =>
    have fresh : entities.find? row.uid = none := by
      rw [find?, List.find?_eq_none]
      intro other there same
      rw [List.map_append, List.nodup_append] at distinct
      exact distinct.2.2 _ (List.mem_map_of_mem there) _ (List.mem_map_of_mem List.mem_cons_self)
        (of_decide_eq_true same)
    have added : entities.add? row = some ⟨entities.rows ++ [row]⟩ := by rw [add?, fresh]
    rw [List.append_cons] at distinct ⊢
    rw [List.foldlM_cons, added]
    exact ih distinct

end Policy.Entities

namespace Json

/-- Where the guard sees the name of a described entity, the reader takes the same one. -/
theorem eq_of_uidTexts? {item : Json} {entity : Entity} {seen : String × String}
    (looked : item.uidTexts? = some seen) (read : Entity.ofJson? item = some entity) :
    entity.uid.texts = seen := by
  obtain ⟨uid, given, reference⟩ := Option.bind_eq_some_iff.mp looked
  obtain ⟨described, -, -⟩ := Guard.described_of_ofJson? read
  obtain ⟨record, fields, texts⟩ := Option.bind_eq_some_iff.mp described
  cases item with
  | object members =>
    have field : "uid" ∈ entityFields := List.mem_cons_self
    rw [Record.lookup_of_object fields field, given, Option.bind_some] at texts
    exact eq_of_referenceTexts? reference texts
  | _ => cases given

/-- The entities that are described have the names that the guard sees. -/
theorem describedUids_eq_map {items : List Json} {rows : List Entity}
    (named : ∀ item ∈ items, item.uidTexts?.isSome = true)
    (read : List.Forall₂ (fun item row => Entity.ofJson? item = some row) items rows) :
    describedUids items = rows.map (·.uid.texts) := by
  induction read with
  | nil => rfl
  | cons first _ ih =>
    rw [List.forall_mem_cons] at named
    obtain ⟨seen, looked⟩ := Option.isSome_iff_exists.mp named.1
    rw [describedUids, List.filterMap_cons_some looked, List.map_cons, eq_of_uidTexts? looked first,
      ← ih named.2, describedUids]

/-- Descriptions of different entities are refused if one of them is malformed or an entity belongs
to itself, and for no other reason. -/
theorem entitiesOfJson?_of_nodup {items : List Json}
    (named : ∀ item ∈ items, item.uidTexts?.isSome = true)
    (distinct : (describedUids items).Nodup) :
    Entities.ofJson? items =
      (items.mapM Entity.ofJson?).bind fun rows => (some ⟨rows⟩).filter Entities.isAcyclic := by
  rw [Entities.ofJson?]
  cases read : items.mapM Entity.ofJson? with
  | none => rfl
  | some rows =>
    rw [describedUids_eq_map named (Steps.mapM_eq_some_iff.mp read)] at distinct
    have apart : (rows.map (·.uid)).Nodup := .of_map EntityUid.texts (by rwa [List.map_map])
    have collected := @Entities.foldlM_add?_of_nodup rows ⟨[]⟩ apart
    rw [Option.bind_some, Option.bind_some, Entities.ofRows?, collected, List.nil_append]

end Json

namespace Resolution

open Json (describedUids)

/-! ### Parties -/

/-- An entity is found in descriptions with no escaped names exactly if it is described. -/
theorem finds_of_plain {items : List Json}
    (plain : ∀ item ∈ items, ((item.member? "uid").bind (·.member? "__entity")) = none)
    (texts : String × String) : Finds items texts := by
  rw [Finds, describedUids, List.mem_filterMap, List.any_eq_true]
  refine exists_congr fun item => and_congr_right fun inside => ?_
  have unescaped := plain item inside
  cases given : item.member? "uid" with
  | none => simp [Json.uidTexts?, describes, given]
  | some uid =>
    rw [given, Option.bind_some] at unescaped
    rw [Json.uidTexts?, given, Option.bind_some, Json.referenceTexts?_eq_some, unescaped]
    simp only [Option.getD_none, describes, given, Option.bind_some, Bool.and_eq_true,
      decide_eq_true_iff, Json.bind_asText?_eq_some]

/-- How many descriptions an entity has in a query. -/
theorem count_describedUids_items (query : AccessQuery) (found : Parties)
    (texts : String × String) :
    (describedUids (items query found)).count texts = (describedUids query.items).count texts +
      if texts ∈ found.texts ∧ ¬ query.items.any (describes texts.1 texts.2) = true
        then 1 else 0 :=
  count_describedUids_pushAll query.items (found.attributed query) texts

/-- A party has one description in a query exactly if the caller's is found. -/
theorem count_describedUids_items_eq_one {query : AccessQuery} {found : Parties}
    {texts : String × String} (distinct : (describedUids query.items).Nodup)
    (party : texts ∈ found.texts) :
    (describedUids (items query found)).count texts = 1 ↔ Finds query.items texts := by
  rw [count_describedUids_items, distinct.count, Finds]
  by_cases described : texts ∈ describedUids query.items <;>
    by_cases there : query.items.any (describes texts.1 texts.2) = true <;>
      simp only [described, there, party, true_and, not_true_eq_false, if_true, if_false,
        iff_true, iff_false] <;> decide

/-- The descriptions of a query are the caller's, followed by what is made for parties. Each party
has exactly one description if and only if the caller's descriptions of parties are found, and then
no request fails because an entity is described twice. -/
theorem describedOnce_iff_finds {query : AccessQuery} {found : Parties}
    (distinct : (describedUids query.items).Nodup) :
    (∃ added, items query found = query.items ++ added ∧
      added.Sublist [entityJson found.principal.1 found.principal.2 query.subject.properties,
        entityJson found.action.1 found.action.2 query.action.properties,
        entityJson found.resource.1 found.resource.2 query.resource.properties]) ∧
    ((∀ texts ∈ found.texts, (describedUids (items query found)).count texts = 1) ↔
      ∀ texts ∈ found.texts, Finds query.items texts) ∧
    ((∀ texts ∈ found.texts, Finds query.items texts) →
      (∀ item ∈ query.items, item.uidTexts?.isSome = true) →
      Entities.ofJson? (items query found) =
        ((items query found).mapM Entity.ofJson?).bind fun rows =>
          (some ⟨rows⟩).filter Entities.isAcyclic) := by
  have once : (∀ texts ∈ found.texts, (describedUids (items query found)).count texts = 1) ↔
      ∀ texts ∈ found.texts, Finds query.items texts :=
    forall₂_congr fun texts party => count_describedUids_items_eq_one distinct party
  refine ⟨exists_pushAll query.items (found.attributed query), once, fun finds named => ?_⟩
  refine Json.entitiesOfJson?_of_nodup ?_ ?_
  · intro item inside
    obtain called | rfl | rfl | rfl := Guard.mem_items inside
    · exact named item called
    · rfl
    · rfl
    · rfl
  · rw [List.nodup_iff_count_le_one]
    intro texts
    by_cases party : texts ∈ found.texts
    · exact Nat.le_of_eq (once.mpr finds texts party)
    · rw [count_describedUids_items, if_neg fun both => party both.1, Nat.add_zero]
      exact List.nodup_iff_count_le_one.mp distinct texts

/-- A query about a document, with a description whose name is the given value. -/
def ownedQuery (uid : Json) : AccessQuery where
  subject := { kind := "USER", id := "alice" }
  resource := { kind := "Document", id := "42" }
  action := { name := "Document::Read" }
  entities := some { items := [.object [("uid", uid),
    ("attrs", .object [("owner", .text "alice")]), ("parents", .list [])]] }

/-- The parties of the query, whatever is described. -/
def ownedParties : Parties :=
  ⟨("ZTAuth::IAM::User", "alice"), ("Document::Action", "Read"), ("Document", "42")⟩

/-- The name of the document. -/
def documentName : Json := .object [("type", .text "Document"), ("id", .text "42")]

/-- A description of the document with its plain name is the only one. -/
theorem describedOnce_of_documentName :
    Resolution.parties (ownedQuery documentName) = .ok ownedParties ∧
      (∀ texts ∈ ownedParties.texts,
        (describedUids (items (ownedQuery documentName) ownedParties)).count texts = 1) := by
  have distinct : (describedUids (ownedQuery documentName).items).Nodup := by decide
  have plain : ∀ item ∈ (ownedQuery documentName).items,
      ((item.member? "uid").bind (·.member? "__entity")) = none := by
    intro item inside
    obtain rfl := List.mem_singleton.mp inside
    rfl
  exact ⟨rfl, (@describedOnce_iff_finds _ ownedParties distinct).2.1.mpr fun texts _ =>
    finds_of_plain plain texts⟩

/-- The name of the document, escaped. -/
def escapedName : Json := .object [("__entity", documentName)]

/-- What is made for the document contradicts the caller's description of it. -/
theorem entitiesOfJson?_escapedName :
    Entities.ofJson? (items (ownedQuery escapedName) ownedParties) = none := by
  let document : EntityUid := ⟨⟨[], "Document"⟩, "42"⟩
  let rows : List Entity := [⟨document, [("owner", .text "alice")], [], []⟩,
    ⟨⟨⟨["ZTAuth", "IAM"], "User"⟩, "alice"⟩, [], [], []⟩,
    ⟨⟨⟨["Document"], "Action"⟩, "Read"⟩, [], [], []⟩]
  let made : Entity := ⟨document, [], [], []⟩
  have read : (items (ownedQuery escapedName) ownedParties).mapM Entity.ofJson? =
      some (rows ++ [made]) := rfl
  have kept : rows.foldlM Entities.add? ⟨[]⟩ = some ⟨rows⟩ :=
    @Entities.foldlM_add?_of_nodup rows ⟨[]⟩ (by decide)
  have refused : Entities.add? ⟨rows⟩ made = none := by
    simp [Entities.add?, rows, made, Entities.find?, Entity.agrees, Policy.Value.sameFields]
  have collected : (rows ++ [made]).foldlM Entities.add? ⟨[]⟩ = none := by
    simp only [List.foldlM_append, kept, bind, Option.bind_some, List.foldlM_cons, refused,
      Option.bind_none]
  rw [Entities.ofJson?, read, Option.bind_some, Entities.ofRows?, collected, Option.filter_none]

/-- A description of the document with its escaped name passes the guard but is not found: there is
a second one, and the query is refused. -/
theorem describedTwice_of_escapedName : ∃ query, Guard.verify query = .ok () ∧
    Resolution.parties query = .ok ownedParties ∧ (describedUids query.items).Nodup ∧
    (describedUids (items query ownedParties)).count ownedParties.resource = 2 ∧
    Resolution.environment query = .error (.request .entities) := by
  have resolved : Resolution.parties (ownedQuery escapedName) = .ok ownedParties := rfl
  refine ⟨ownedQuery escapedName, rfl, resolved, by decide, by decide, ?_⟩
  simp only [environment, resolved, bind, Except.bind, entitiesOfJson?_escapedName]
  rfl

end Resolution

end PolicyLedger
