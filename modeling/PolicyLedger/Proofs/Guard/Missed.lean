/-
**What the guard overlooks.**

The guard looks for names of entities in objects with texts `type` and `id`, escaped or not. The
readers of values and entities find names in more shapes: a list of type and id, an object beside
an `__entity` member that is no name, and every part of an entity that is described by a list of
its fields. `missedTexts`, `missedEntityTexts` and `missedInEntity` collect these names.

* `mem_missedTexts_or`, `mem_missedInEntity_or`: every name that a reader finds is among them, or
  the guard looks at its type;
* `Guard.missed`: the names in a query that are overlooked.
-/

import PolicyLedger.Proofs.Policy.EntityNames
import PolicyLedger.Request.Guard
import PolicyLedger.Request.Resolution

namespace PolicyLedger

namespace Json

open Policy (typeAndId?)
open Policy.Expr (escapeOf)

/-! ### References -/

theorem typeAndId?_of_members {reference : Json} {type id : String}
    (idText : reference.member? "id" = some (.text id))
    (typeText : reference.member? "type" = some (.text type)) :
    typeAndId? reference = some (type, id) := by
  cases reference with
  | object members =>
    rw [member?, Json.members] at idText typeText
    simp [typeAndId?, idText, typeText]
  | _ => simp [member?, Json.members] at idText

/-- The type and the id in a reference that the guard sees. -/
def referenceTexts? (value : Json) : Option (String × String) :=
  let reference := (value.member? "__entity").getD value
  match reference.member? "type", reference.member? "id" with
  | some (.text type), some (.text id) => some (type, id)
  | _, _ => none

theorem referenceTexts?_eq_some {value : Json} {type id : String} :
    value.referenceTexts? = some (type, id) ↔
      ((value.member? "__entity").getD value).member? "type" = some (.text type) ∧
        ((value.member? "__entity").getD value).member? "id" = some (.text id) := by
  rw [referenceTexts?]
  constructor
  · intro seen
    split at seen
    next typeText idText =>
      obtain ⟨rfl, rfl⟩ := Prod.mk.inj (Option.some.inj seen)
      exact ⟨typeText, idText⟩
    · cases seen
  · rintro ⟨typeText, idText⟩
    rw [typeText, idText]

/-- The guard looks at the types of the references that it sees. -/
theorem referenceType?_eq (value : Json) :
    value.referenceType? = value.referenceTexts?.map Prod.fst := by
  rw [referenceType?, referenceTexts?]
  generalize ((value.member? "__entity").getD value).member? "id" = id
  generalize ((value.member? "__entity").getD value).member? "type" = type
  rcases id with _ | id <;> rcases type with _ | type
  · rfl
  · cases type <;> rfl
  · cases id <;> rfl
  · cases id <;> cases type <;> rfl

/-- Where the guard sees a reference, the reader takes the same one. -/
theorem eq_of_referenceTexts? {value : Json} {seen texts : String × String}
    (looked : value.referenceTexts? = some seen) (read : value.entityTexts? = some texts) :
    texts = seen := by
  obtain ⟨typeText, idText⟩ := referenceTexts?_eq_some.mp looked
  have reference := typeAndId?_of_members idText typeText
  rw [entityTexts?] at read
  split at read
  · cases read
  · cases member : value.member? "__entity" with
    | none =>
      simp only [member, Option.bind_none] at read
      rw [member, Option.getD_none, read] at reference
      exact Option.some.inj reference
    | some escaped =>
      rw [member, Option.getD_some] at reference
      simp only [member, Option.bind_some, reference] at read
      exact (Option.some.inj read).symm

/-- Where the guard sees a reference, it sees the type that the reader takes. -/
theorem fst_of_referenceType? {value : Json} {type : String} {texts : String × String}
    (looked : value.referenceType? = some type) (read : value.entityTexts? = some texts) :
    texts.1 = type := by
  rw [referenceType?_eq] at looked
  obtain ⟨seen, found, rfl⟩ := Option.map_eq_some_iff.mp looked
  rw [eq_of_referenceTexts? found read]

/-- An escaped name is a name. -/
theorem entityTexts?_of_escapeOf {value : Json} {texts : String × String}
    (escaped : escapeOf value = .entity texts) : value.entityTexts? = some texts := by
  rw [escapeOf] at escaped
  rw [entityTexts?]
  generalize value.member? "__expr" = refusal at escaped ⊢
  generalize (value.member? "__entity").bind typeAndId? = name at escaped ⊢
  have found : name = some texts := by
    cases name with
    | some found =>
      have same : Policy.Expr.Escape.entity found = .entity texts := by
        cases refusal with
        | none => exact escaped
        | some word => cases word <;> first | exact escaped | cases escaped
      exact congrArg some (Policy.Expr.Escape.entity.inj same)
    | none =>
      generalize (value.member? "__extn").bind Policy.functionCall? = call at escaped
      cases refusal with
      | none => cases call <;> cases escaped
      | some word => cases word <;> cases call <;> cases escaped
  subst found
  cases refusal with
  | none => rfl
  | some word => cases word <;> first | rfl | cases escaped

/-! ### Values -/

mutual

/-- The texts of the names in a value that the reader finds and the guard overlooks. -/
def missedTexts : Json → List (String × String)
  | list items => missedTextsOfItems items
  | object members =>
    match escapeOf (object members) with
    | .entity texts => if (object members).referenceType?.isSome then [] else [texts]
    | .plain => missedTextsOfMembers members
    | _ => []
  | _ => []

/-- The texts of the names in some values that are overlooked. -/
def missedTextsOfItems : List Json → List (String × String)
  | [] => []
  | item :: rest => missedTexts item ++ missedTextsOfItems rest

/-- The texts of the names in the values of some members that are overlooked. -/
def missedTextsOfMembers : List (String × Json) → List (String × String)
  | [] => []
  | (_, value) :: rest => missedTexts value ++ missedTextsOfMembers rest

end

mutual

/-- What is overlooked is read. -/
theorem missedTexts_subset : (value : Json) → value.missedTexts ⊆ value.nameTexts
  | null => by simp [missedTexts]
  | bool _ => by simp [missedTexts]
  | number _ => by simp [missedTexts]
  | text _ => by simp [missedTexts]
  | list items => by
    rw [missedTexts, nameTexts]
    exact missedTextsOfItems_subset items
  | object members => by
    rw [missedTexts, nameTexts]
    cases escapeOf (object members) with
    | entity texts =>
      show (if _ then [] else [texts]) ⊆ [texts]
      split <;> simp
    | plain => exact missedTextsOfMembers_subset members
    | refused => simp
    | call => simp

theorem missedTextsOfItems_subset :
    (items : List Json) → missedTextsOfItems items ⊆ nameTextsOfItems items
  | [] => fun _ inside => inside
  | item :: rest => by
    rw [missedTextsOfItems, nameTextsOfItems]
    exact List.append_subset.mpr
      ⟨List.subset_append_of_subset_left _ (missedTexts_subset item),
        List.subset_append_of_subset_right _ (missedTextsOfItems_subset rest)⟩

theorem missedTextsOfMembers_subset :
    (members : List (String × Json)) → missedTextsOfMembers members ⊆ nameTextsOfMembers members
  | [] => fun _ inside => inside
  | (_, value) :: rest => by
    rw [missedTextsOfMembers, nameTextsOfMembers]
    exact List.append_subset.mpr
      ⟨List.subset_append_of_subset_left _ (missedTexts_subset value),
        List.subset_append_of_subset_right _ (missedTextsOfMembers_subset rest)⟩

end

mutual

/-- A name that is read is overlooked, or the guard looks at its type. -/
theorem mem_missedTexts_or {texts : String × String} : (value : Json) →
    texts ∈ value.nameTexts → texts ∈ value.missedTexts ∨ texts.1 ∈ value.referenceTypes
  | null, found => by simp [nameTexts] at found
  | bool _, found => by simp [nameTexts] at found
  | number _, found => by simp [nameTexts] at found
  | text _, found => by simp [nameTexts] at found
  | list items, found => by
    rw [nameTexts] at found
    rw [missedTexts, referenceTypes]
    exact mem_missedTextsOfItems_or items found
  | object members, found => by
    rw [nameTexts] at found
    rw [missedTexts, referenceTypes]
    cases escape : escapeOf (object members) with
    | entity read =>
      simp only [escape] at found ⊢
      cases looked : (object members).referenceType? with
      | none => exact .inl found
      | some type =>
        obtain rfl := List.mem_singleton.mp found
        have same := fst_of_referenceType? looked (entityTexts?_of_escapeOf escape)
        exact .inr (List.mem_append_left _ (same ▸ List.mem_cons_self))
    | plain =>
      simp only [escape] at found ⊢
      exact (mem_missedTextsOfMembers_or members found).imp id (List.mem_append_right _)
    | refused => simp [escape] at found
    | call => simp [escape] at found

theorem mem_missedTextsOfItems_or {texts : String × String} : (items : List Json) →
    texts ∈ nameTextsOfItems items →
      texts ∈ missedTextsOfItems items ∨ texts.1 ∈ referenceTypesOfItems items
  | [], found => by cases found
  | item :: rest, found => by
    rw [missedTextsOfItems, referenceTypesOfItems]
    obtain here | later := List.mem_append.mp found
    · exact (mem_missedTexts_or item here).imp (List.mem_append_left _) (List.mem_append_left _)
    · exact (mem_missedTextsOfItems_or rest later).imp
        (List.mem_append_right _) (List.mem_append_right _)

theorem mem_missedTextsOfMembers_or {texts : String × String} : (members : List (String × Json)) →
    texts ∈ nameTextsOfMembers members →
      texts ∈ missedTextsOfMembers members ∨ texts.1 ∈ referenceTypesOfMembers members
  | [], found => by cases found
  | (_, value) :: rest, found => by
    rw [missedTextsOfMembers, referenceTypesOfMembers]
    obtain here | later := List.mem_append.mp found
    · exact (mem_missedTexts_or value here).imp (List.mem_append_left _) (List.mem_append_left _)
    · exact (mem_missedTextsOfMembers_or rest later).imp
        (List.mem_append_right _) (List.mem_append_right _)

end

/-! ### Descriptions of entities -/

/-- The texts of a name of an entity, unless the guard sees the name. -/
def missedEntityTexts (value : Json) : List (String × String) :=
  if value.referenceType?.isSome then [] else value.entityTexts?.toList

/-- The texts of the names in a description that the reader finds and the guard overlooks; it looks
at nothing in a list of fields. -/
def missedInEntity : Json → List (String × String)
  | list fields => (list fields).entityNameTexts
  | item => item.findInEntity missedEntityTexts missedTextsOfMembers

theorem missedEntityTexts_subset (value : Json) :
    value.missedEntityTexts ⊆ value.entityTexts?.toList := by
  rw [missedEntityTexts]
  split
  · exact List.nil_subset _
  · exact fun _ inside => inside

theorem mem_missedEntityTexts_or {value : Json} {texts : String × String}
    (found : texts ∈ value.entityTexts?.toList) :
    texts ∈ value.missedEntityTexts ∨ value.referenceType? = some texts.1 := by
  rw [missedEntityTexts]
  cases looked : value.referenceType? with
  | none => exact .inl found
  | some type =>
    rw [fst_of_referenceType? looked (Option.mem_toList.mp found)]
    exact .inr rfl

/-- Finding less in names and members is finding less in descriptions. -/
theorem findInEntity_subset {α : Type} {inName inOtherName : Json → List α}
    {inMembers inOtherMembers : List (String × Json) → List α}
    (names : ∀ value, inName value ⊆ inOtherName value)
    (members : ∀ given, inMembers given ⊆ inOtherMembers given) (item : Json) :
    item.findInEntity inName inMembers ⊆ item.findInEntity inOtherName inOtherMembers := by
  rw [findInEntity, findInEntity]
  cases Record.of? entityFields item with
  | none => exact fun _ inside => inside
  | some record =>
    intro texts inside
    simp only [List.mem_append, List.mem_flatMap] at inside ⊢
    refine inside.imp (Or.imp (Or.imp ?_ ?_) (members _ ·)) (members _ ·)
    · cases record.fields.lookup "uid" with
      | none => exact id
      | some uid => exact (names uid ·)
    · rintro ⟨parent, there, found⟩
      exact ⟨parent, there, names parent found⟩

theorem missedInEntity_subset (item : Json) : item.missedInEntity ⊆ item.entityNameTexts := by
  unfold missedInEntity
  split
  · exact fun _ inside => inside
  · exact findInEntity_subset missedEntityTexts_subset missedTextsOfMembers_subset item

theorem lookup_filter {names : List String} {key : String} (known : key ∈ names)
    (members : List (String × Json)) :
    (members.filter fun member => names.contains member.1).lookup key = members.lookup key := by
  induction members with
  | nil => rfl
  | cons member rest ih =>
    obtain ⟨name, value⟩ := member
    rw [List.filter_cons, List.lookup_cons]
    by_cases same : key = name
    · subst same
      simp [known]
    · have other : (key == name) = false := beq_eq_false_iff_ne.mpr same
      rw [other, ← ih]
      split
      · rw [List.lookup_cons, other]
      · rfl

/-- The fields of a description that is an object are its members. -/
theorem Record.lookup_of_object {names : List String} {members : List (String × Json)}
    {record : Record} (read : of? names (object members) = some record) {key : String}
    (known : key ∈ names) : record.fields.lookup key = (object members).member? key := by
  simp only [of?] at read
  split at read
  · obtain rfl := Option.some.inj read
    exact lookup_filter known members
  · cases read

end Json

namespace Guard

open Json (Record)

theorem mem_entityClaims_of_type {item value : Json} {type : String}
    (given : item.member? "uid" = some value) (looked : value.referenceType? = some type) :
    ∃ claim ∈ entityClaims item, claim.identifier = type := by
  refine ⟨⟨"entity type", type⟩, ?_, rfl⟩
  simp [entityClaims, given, looked]

theorem mem_entityClaims_of_parent {item parent : Json} {type : String}
    (given : parent ∈ ((item.member? "parents").bind Json.asList?).getD [])
    (looked : parent.referenceType? = some type) :
    ∃ claim ∈ entityClaims item, claim.identifier = type := by
  refine ⟨⟨"entity parent type", type⟩, ?_, rfl⟩
  have inside := List.mem_filterMap.mpr ⟨parent, given, looked⟩
  simp only [entityClaims, List.mem_append]
  exact .inl (.inl (.inr (List.mem_map.mpr ⟨type, inside, rfl⟩)))

theorem mem_entityClaims_of_reference {item : Json} {part type : String}
    (known : part = "attrs" ∨ part = "tags")
    (looked : type ∈ Json.referenceTypesOfMembers
      (((item.member? part).map Json.members).getD [])) :
    ∃ claim ∈ entityClaims item, claim.identifier = type := by
  refine ⟨⟨"entity reference", type⟩, ?_, rfl⟩
  have inside := List.mem_map_of_mem (f := Claim.mk "entity reference") looked
  simp only [entityClaims, List.mem_append, referenceClaims]
  obtain rfl | rfl := known
  · exact .inl (.inr (.inr inside))
  · exact .inr (.inr inside)

/-- A name that is read in a description is overlooked, or the guard looks at its type. -/
theorem mem_missedInEntity_or {item : Json} {texts : String × String}
    (found : texts ∈ item.entityNameTexts) :
    texts ∈ item.missedInEntity ∨ ∃ claim ∈ entityClaims item, claim.identifier = texts.1 := by
  cases item with
  | list fields => exact .inl found
  | object members =>
    rw [Json.entityNameTexts, Json.findInEntity] at found
    rw [Json.missedInEntity, Json.findInEntity]
    · cases read : Record.of? Json.entityFields (.object members) with
      | none => simp [read] at found
      | some record =>
        have member := @Json.Record.lookup_of_object _ _ _ read
        simp only [read, List.mem_append, List.mem_flatMap, @member "uid" (by decide),
          @member "parents" (by decide), @member "attrs" (by decide), @member "tags" (by decide)]
          at found ⊢
        obtain ((found | ⟨parent, given, found⟩) | found) | found := found
        · cases given : (Json.object members).member? "uid" with
          | none => simp [given] at found
          | some value =>
            simp only [given, Option.map_some, Option.getD_some] at found ⊢
            exact (Json.mem_missedEntityTexts_or found).imp
              (fun missed => .inl (.inl (.inl missed))) (mem_entityClaims_of_type given)
        · exact (Json.mem_missedEntityTexts_or found).imp
            (fun missed => .inl (.inl (.inr ⟨parent, given, missed⟩)))
            (mem_entityClaims_of_parent given)
        · exact (Json.mem_missedTextsOfMembers_or _ found).imp (fun missed => .inl (.inr missed))
            (mem_entityClaims_of_reference (.inl rfl))
        · exact (Json.mem_missedTextsOfMembers_or _ found).imp (fun missed => .inr missed)
            (mem_entityClaims_of_reference (.inr rfl))
    · intro fields impossible
      cases impossible
  | _ => simp [Json.entityNameTexts, Json.findInEntity, Record.of?] at found

/-- The texts of the names in a query that the readers find and the guard overlooks. -/
def missed (query : AccessQuery) : List (String × String) :=
  match Resolution.parties query with
  | .error _ => []
  | .ok found =>
    (Resolution.items query found).flatMap Json.missedInEntity ++
      Json.missedTextsOfMembers query.context

end Guard

end PolicyLedger
