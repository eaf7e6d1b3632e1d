/-
**Entities.**

Policies look up attributes, tags and memberships of entities. An entity belongs to its parents and
to whatever these belong to; entities that are not described belong to nothing and have no
attributes.

* `Entities.isIn`: an entity belongs to itself and to its ancestors;
* `Entities.ofRows?` collects descriptions, of which two of one entity must agree and none may lead
  back to its own entity.
-/

import PolicyLedger.Policy.Value

namespace PolicyLedger.Policy

/-- The description of an entity. -/
structure Entity where
  uid : EntityUid
  attributes : List (String × Value)
  parents : List EntityUid
  tags : List (String × Value)

namespace Entity

/-- Holds if two descriptions say the same, the order of parents apart. -/
def agrees (a b : Entity) : Bool :=
  a.uid = b.uid && Value.sameFields a.attributes b.attributes &&
    Value.sameFields a.tags b.tags && a.parents.all (b.parents.contains ·) &&
    b.parents.all (a.parents.contains ·)

end Entity

/-- Descriptions of entities. -/
structure Entities where
  rows : List Entity

namespace Entities

/-- The description of an entity. -/
def find? (entities : Entities) (uid : EntityUid) : Option Entity :=
  entities.rows.find? fun entity => entity.uid = uid

/-- The parents of an entity, none if it is not described. -/
def parents (entities : Entities) (uid : EntityUid) : List EntityUid :=
  ((entities.find? uid).map (·.parents)).getD []

/-- The names not met so far among some names and what they belong to, in addition to those met;
`room` bounds the number of steps upward. -/
def climb (entities : Entities) : Nat → List EntityUid → List EntityUid → List EntityUid
  | 0, _, met => met
  | room + 1, level, met =>
    let fresh := level.filter fun uid => !met.contains uid
    match fresh with
    | [] => met
    | uid :: rest =>
      climb entities room ((uid :: rest).flatMap entities.parents) (met ++ uid :: rest)

/-- The entities that an entity belongs to, itself apart unless it belongs to one of them. -/
def ancestors (entities : Entities) (uid : EntityUid) : List EntityUid :=
  entities.climb (entities.rows.length + 2) (entities.parents uid) []

/-- Holds if an entity is, or belongs to, another one. -/
def isIn (entities : Entities) (uid group : EntityUid) : Bool :=
  uid = group || (entities.ancestors uid).contains group

/-- Holds if no entity belongs to itself. -/
def isAcyclic (entities : Entities) : Bool :=
  entities.rows.all fun entity => !(entities.ancestors entity.uid).contains entity.uid

/-- Descriptions with one more, unless it contradicts one of them. -/
def add? (entities : Entities) (entity : Entity) : Option Entities :=
  match entities.find? entity.uid with
  | none => some ⟨entities.rows ++ [entity]⟩
  | some present => if present.agrees entity then some entities else none

/-- The collection of some descriptions. -/
def ofRows? (rows : List Entity) : Option Entities :=
  (rows.foldlM add? ⟨[]⟩).filter isAcyclic

end Entities

end PolicyLedger.Policy
