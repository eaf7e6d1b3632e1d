/-
**Proper policies.**

A policy that is read is proper: names are made of parts of names, so are the attributes of a path on
the right of `has`, the fields of records are sorted by key, methods have a receiver, the actions of
its scope have an action type, and its annotations are named by identifiers. The type of policies
promises none of this but the order of annotations, and a policy can be read back from its JSON form
or its source only if it holds.
-/

import PolicyLedger.Policy.Basic
import PolicyLedger.Proofs.Policy.WrittenNames

namespace PolicyLedger.Policy

/-- The type of an entity is a proper name. -/
def EntityUid.IsProper (uid : EntityUid) : Prop := uid.type.IsProper

/-- A literal names no entity or a proper one. -/
def Literal.IsProper : Literal → Prop
  | entity uid => uid.IsProper
  | _ => True

mutual

/-- All names and paths in an expression are proper, all records sorted, and all methods have a
receiver. -/
def Expr.IsProper : Expr → Prop
  | .literal value => value.IsProper
  | .var _ => True
  | .not arg | .negate arg | .isEmpty arg => arg.IsProper
  | .attr left _ | .like left _ => left.IsProper
  | .has left first others =>
    left.IsProper ∧ (others ≠ [] → ∀ name ∈ first :: others, isNamePart name = true)
  | .binary _ left right => left.IsProper ∧ right.IsProper
  | .is left type => left.IsProper ∧ type.IsProper
  | .isWithin left type group => left.IsProper ∧ type.IsProper ∧ group.IsProper
  | .ite condition yes no => condition.IsProper ∧ yes.IsProper ∧ no.IsProper
  | .set items => Expr.ItemsAreProper items
  | .record fields => (fields.Pairwise fun a b => a.1 < b.1) ∧ Expr.FieldsAreProper fields
  | .call function args =>
    Expr.ItemsAreProper args ∧ (function.isMethod = true → args ≠ [])

/-- Some expressions are proper. -/
def Expr.ItemsAreProper : List Expr → Prop
  | [] => True
  | item :: rest => item.IsProper ∧ Expr.ItemsAreProper rest

/-- The values of some fields are proper. -/
def Expr.FieldsAreProper : List (String × Expr) → Prop
  | [] => True
  | (_, value) :: rest => value.IsProper ∧ Expr.FieldsAreProper rest

end

theorem Expr.fieldsAreProper_iff {fields : List (String × Expr)} :
    FieldsAreProper fields ↔ ∀ field ∈ fields, field.2.IsProper := by
  induction fields with
  | nil => simp [FieldsAreProper]
  | cons field rest ih => rw [FieldsAreProper, ih, List.forall_mem_cons]

/-- The entities of a scope are proper. -/
def EntityScope.IsProper : EntityScope → Prop
  | all => True
  | equal uid | isIn uid => uid.IsProper
  | is type => type.IsProper
  | isWithin type uid => type.IsProper ∧ uid.IsProper

/-- The entities of a scope are proper. -/
def ActionScope.IsProper : ActionScope → Prop
  | all => True
  | equal uid | isIn uid => uid.IsProper
  | isInAny uids => ∀ uid ∈ uids, uid.IsProper

/-- What holds of a policy that is read. -/
structure IsProper (policy : Policy) : Prop where
  principal : policy.principal.IsProper
  action : policy.action.IsProper
  actionType : policy.action.isWellTyped = true
  resource : policy.resource.IsProper
  conditions : ∀ condition ∈ policy.conditions, condition.body.IsProper
  annotations : ∀ key ∈ policy.annotations.keys, isIdentifier key.toList = true

end PolicyLedger.Policy
