/-
**Policies.**

A policy permits or forbids requests. Its scope limits principal, action and resource by what they
are or where they belong; its conditions limit the requests further. Annotations have no effect on
decisions, but the one called `id` names the policy.
-/

import PolicyLedger.KeyMap
import PolicyLedger.Policy.Expr

namespace PolicyLedger

namespace Policy

/-- What a policy does with the requests it applies to. -/
inductive Effect
  | permit
  | forbid
  deriving DecidableEq, Repr

/-- Which principals or resources a policy applies to. -/
inductive EntityScope
  | all
  | equal (uid : EntityUid)
  | isIn (uid : EntityUid)
  | is (type : Name)
  | isWithin (type : Name) (uid : EntityUid)
  deriving DecidableEq, Repr

/-- Which actions a policy applies to. -/
inductive ActionScope
  | all
  | equal (uid : EntityUid)
  | isIn (uid : EntityUid)
  | isInAny (uids : List EntityUid)
  deriving DecidableEq, Repr

/-- Whether a condition must hold or must not hold. -/
inductive ConditionKind
  | onlyWhen
  | exceptWhen
  deriving DecidableEq, Repr

/-- A condition. -/
structure Condition where
  kind : ConditionKind
  body : Expr

/-- The word for an effect. -/
def Effect.word : Effect → String
  | permit => "permit"
  | forbid => "forbid"

/-- The effect with a word. -/
def Effect.ofWord? (word : String) : Option Effect :=
  if word = "permit" then some permit else if word = "forbid" then some forbid else none

/-- The word for a kind of condition. -/
def ConditionKind.word : ConditionKind → String
  | onlyWhen => "when"
  | exceptWhen => "unless"

/-- The kind of condition with a word. -/
def ConditionKind.ofWord? (word : String) : Option ConditionKind :=
  if word = "when" then some onlyWhen else if word = "unless" then some exceptWhen else none

/-- The actions in a scope all have an action type. -/
def ActionScope.isWellTyped : ActionScope → Bool
  | all => true
  | equal uid | isIn uid => uid.type.isAction
  | isInAny uids => uids.all fun uid => uid.type.isAction

end Policy

/-- A policy without an id of its own. -/
structure Policy where
  effect : Policy.Effect
  principal : Policy.EntityScope
  action : Policy.ActionScope
  resource : Policy.EntityScope
  conditions : List Policy.Condition
  annotations : KeyMap (Option String)

namespace Policy

/-- The text of an annotation, empty if the annotation has none. -/
def annotation? (policy : Policy) (key : String) : Option String :=
  (policy.annotations.get? key).map fun text => text.getD ""

end Policy

end PolicyLedger
