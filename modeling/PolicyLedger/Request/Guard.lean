/-
**The guard of the reserved namespace.**

Before a request is evaluated, every identifier a caller could use to pose as something of the
platform is looked at: types of subject, resource, action and entities, keys of properties, context
and attributes, and the types of all entity references inside values.

* `claims` lists these identifiers in the order in which they are looked at, each with what it is;
* `verify` refuses the first one that is reserved.
-/

import PolicyLedger.Name
import PolicyLedger.Request.Model

namespace PolicyLedger

namespace Json

/-- The type of an entity reference: an object with texts `type` and `id`, or an object with such an
object as its member `__entity`. -/
def referenceType? (value : Json) : Option String :=
  let reference := (value.member? "__entity").getD value
  match reference.member? "id", reference.member? "type" with
  | some (.text _), some (.text type) => some type
  | _, _ => none

mutual

/-- The types of the entity references in a value, at any depth. -/
def referenceTypes : Json → List String
  | list items => referenceTypesOfItems items
  | object members => (referenceType? (object members)).toList ++ referenceTypesOfMembers members
  | _ => []

/-- The types of the entity references in some values. -/
def referenceTypesOfItems : List Json → List String
  | [] => []
  | item :: rest => referenceTypes item ++ referenceTypesOfItems rest

/-- The types of the entity references in the values of some members. -/
def referenceTypesOfMembers : List (String × Json) → List String
  | [] => []
  | (_, value) :: rest => referenceTypes value ++ referenceTypesOfMembers rest

end

end Json

namespace Guard

/-- An identifier that a caller uses, with what it is used for. -/
structure Claim where
  what : String
  identifier : String
  deriving DecidableEq, Repr

/-- The keys of some members, used for one thing. -/
def keyClaims (what : String) (members : Properties) : List Claim :=
  members.map fun member => ⟨what, member.1⟩

/-- The types of the entity references in some members, used for one thing. -/
def referenceClaims (what : String) (members : Properties) : List Claim :=
  (Json.referenceTypesOfMembers members).map fun type => ⟨what, type⟩

/-- The keys of properties, then the references in them. -/
def propertyClaims (what : String) (properties : Properties) : List Claim :=
  keyClaims what properties ++ referenceClaims what properties

/-- The identifiers in an entity that the caller describes: its type, the types of its parents, its
attributes and its tags. -/
def entityClaims (item : Json) : List Claim :=
  let type := ((item.member? "uid").bind Json.referenceType?).toList
  let parents := ((item.member? "parents").bind Json.asList?).getD []
  let attributes (part : String) : List Claim :=
    let members := ((item.member? part).map Json.members).getD []
    keyClaims "entity attribute" members ++ referenceClaims "entity reference" members
  type.map (Claim.mk "entity type") ++
    (parents.filterMap Json.referenceType?).map (Claim.mk "entity parent type") ++
    attributes "attrs" ++ attributes "tags"

/-- All identifiers in a query, in the order in which they are looked at. -/
def claims (query : AccessQuery) : List Claim :=
  ⟨"subject type", query.subject.kind⟩ ::
    propertyClaims "subject property" query.subject.properties ++
  ⟨"resource type", query.resource.kind⟩ ::
    propertyClaims "resource property" query.resource.properties ++
  ⟨"action", query.action.name⟩ ::
    propertyClaims "action property" query.action.properties ++
  keyClaims "context key" query.context ++ referenceClaims "context value" query.context ++
  query.items.flatMap entityClaims

/-- Refuses a reserved identifier. -/
def Claim.check (claim : Claim) : Except Error Unit := refuseReserved claim.what claim.identifier

/-- Refuses a query with a reserved identifier; the first one is reported. -/
def verify (query : AccessQuery) : Except Error Unit := (claims query).forM Claim.check

end Guard

end PolicyLedger
