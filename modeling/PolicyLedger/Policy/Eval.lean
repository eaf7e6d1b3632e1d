/-
**Evaluation.**

An expression is evaluated for one request with its entities. It has a value or it fails: on
operands of the wrong kind, on an attribute or a tag that is not there, on a number that does not
fit, on a failing call. A conjunction and a disjunction look at their second operand only if the
first one does not decide.

* `Policy.applies?` evaluates scope and conditions of a policy.
-/

import PolicyLedger.Policy.Basic
import PolicyLedger.Policy.Call
import PolicyLedger.Policy.Entities

namespace PolicyLedger.Policy

/-- What an expression is evaluated for. -/
structure Environment where
  principal : EntityUid
  action : EntityUid
  resource : EntityUid
  context : List (String × Value)
  entities : Entities

namespace Environment

/-- The value of a part of the request. -/
def lookup (env : Environment) : Variable → Value
  | .principal => .entity env.principal
  | .action => .entity env.action
  | .resource => .entity env.resource
  | .context => .record env.context

end Environment

/-- The value of a literal. -/
def Literal.value : Literal → Value
  | bool value => .bool value
  | int value => .int value
  | text value => .text value
  | entity uid => .entity uid

/-- The texts that a pattern stands for: a wildcard for any row of characters. -/
def matchesPattern : List PatternElement → List Char → Bool
  | [], [] => true
  | [], _ :: _ => false
  | .char c :: pattern, d :: cs => c = d && matchesPattern pattern cs
  | .char _ :: _, [] => false
  | .wildcard :: pattern, [] => matchesPattern pattern []
  | .wildcard :: pattern, c :: cs =>
    matchesPattern pattern (c :: cs) || matchesPattern (.wildcard :: pattern) cs

namespace Eval

/-- An attribute of a record or of an entity that is described. -/
def attribute? (entities : Entities) (value : Value) (name : String) : Option Value :=
  match value with
  | .record fields => fields.lookup name
  | .entity uid => (entities.find? uid).bind fun entity => entity.attributes.lookup name
  | _ => none

/-- Whether a record or an entity has an attribute; an entity that is not described has none. -/
def hasAttribute? (entities : Entities) (value : Value) (name : String) : Option Bool :=
  match value with
  | .record fields => some (fields.lookup name).isSome
  | .entity uid =>
    some ((entities.find? uid).any fun entity => (entity.attributes.lookup name).isSome)
  | _ => none

/-- Whether a value has an attribute that has an attribute, and so on. -/
def hasPath? (entities : Entities) (value : Value) (first : String) : List String → Option Bool
  | [] => hasAttribute? entities value first
  | second :: others =>
    match hasAttribute? entities value first with
    | none => none
    | some false => some false
    | some true =>
      (attribute? entities value first).bind fun inner => hasPath? entities inner second others

/-- Whether an entity is, or belongs to, an entity or one of a set of entities. -/
def isIn? (entities : Entities) (left right : Value) : Option Bool := do
  let uid ← left.asEntity?
  match right with
  | .entity group => some (entities.isIn uid group)
  | .set items =>
    let groups ← items.mapM Value.asEntity?
    some (groups.any fun group => entities.isIn uid group)
  | _ => none

/-- A comparison of two whole numbers, two moments or two durations. -/
def compare? (decide : Int64 → Int64 → Bool) : Value → Value → Option Value
  | .int a, .int b => some (.bool (decide a b))
  | .ext (.moment a), .ext (.moment b) => some (.bool (decide a.milliseconds b.milliseconds))
  | .ext (.duration a), .ext (.duration b) => some (.bool (decide a.milliseconds b.milliseconds))
  | _, _ => none

/-- The result of arithmetic on two whole numbers. -/
def arithmetic? (compute? : Int64 → Int64 → Option Int64) : Value → Value → Option Value
  | .int a, .int b => (compute? a b).map .int
  | _, _ => none

/-- The answer to a question about two sets. -/
def compareSets? (answer : List Value → List Value → Bool) : Value → Value → Option Value
  | .set a, .set b => some (.bool (answer a b))
  | _, _ => none

/-- A tag of an entity that is described. -/
def tag? (entities : Entities) : Value → Value → Option Value
  | .entity uid, .text name =>
    (entities.find? uid).bind fun entity => entity.tags.lookup name
  | _, _ => none

/-- Whether an entity has a tag; an entity that is not described has none. -/
def hasTag? (entities : Entities) : Value → Value → Option Value
  | .entity uid, .text name =>
    some (.bool ((entities.find? uid).any fun entity => (entity.tags.lookup name).isSome))
  | _, _ => none

/-- The result of an operator that looks at both operands. -/
def binary? (entities : Entities) (op : BinaryOp) (left right : Value) : Option Value :=
  match op with
  | .equal => some (.bool (left.same right))
  | .notEqual => some (.bool (!left.same right))
  | .less => compare? (fun a b => a < b) left right
  | .lessEqual => compare? (fun a b => a ≤ b) left right
  | .greater => compare? (fun a b => b < a) left right
  | .greaterEqual => compare? (fun a b => b ≤ a) left right
  | .isIn => (isIn? entities left right).map .bool
  | .and => do
    let a ← left.asBool?
    let b ← right.asBool?
    return .bool (a && b)
  | .or => do
    let a ← left.asBool?
    let b ← right.asBool?
    return .bool (a || b)
  | .plus => arithmetic? Bounded.add? left right
  | .minus => arithmetic? Bounded.sub? left right
  | .times => arithmetic? Bounded.mul? left right
  | .contains => left.asSet?.map fun items => .bool (Value.holds items right)
  | .containsAll => compareSets? (fun a b => b.all fun item => Value.holds a item) left right
  | .containsAny => compareSets? (fun a b => b.any fun item => Value.holds a item) left right
  | .getTag => tag? entities left right
  | .hasTag => hasTag? entities left right

/-- Whether a value is an entity of a type. -/
def isOfType? (type : Name) (value : Value) : Option Bool :=
  value.asEntity?.map fun uid => uid.type = type

end Eval

namespace Expr

mutual

/-- The value of an expression. -/
def eval (env : Environment) : Expr → Option Value
  | literal value => some value.value
  | var part => some (env.lookup part)
  | not arg => ((eval env arg).bind Value.asBool?).map fun value => .bool !value
  | negate arg =>
    (((eval env arg).bind Value.asInt?).bind Bounded.neg?).map .int
  | isEmpty arg => ((eval env arg).bind Value.asSet?).map fun items => .bool items.isEmpty
  | binary op left right =>
    match eval env left with
    | none => none
    | some value =>
      if op = .and ∧ value.asBool? = some false then some (.bool false)
      else if op = .or ∧ value.asBool? = some true then some (.bool true)
      else (eval env right).bind (Eval.binary? env.entities op value)
  | attr left name => (eval env left).bind fun value => Eval.attribute? env.entities value name
  | has left first others =>
    (eval env left).bind fun value => (Eval.hasPath? env.entities value first others).map .bool
  | like left pattern =>
    ((eval env left).bind Value.asText?).map fun text =>
      .bool (matchesPattern pattern text.toList)
  | is left type => ((eval env left).bind (Eval.isOfType? type)).map .bool
  | isWithin left type group =>
    match eval env left with
    | none => none
    | some value =>
      match Eval.isOfType? type value with
      | none => none
      | some false => some (.bool false)
      | some true =>
        ((eval env group).bind (Eval.isIn? env.entities value)).map .bool
  | ite condition yes no =>
    match (eval env condition).bind Value.asBool? with
    | none => none
    | some true => eval env yes
    | some false => eval env no
  | set items => (evalItems env items).map .set
  | record fields => (evalFields env fields).map .record
  | call function args => (evalItems env args).bind function.call?

/-- The values of some expressions. -/
def evalItems (env : Environment) : List Expr → Option (List Value)
  | [] => some []
  | item :: rest =>
    match eval env item with
    | none => none
    | some value => (evalItems env rest).map fun values => value :: values

/-- The values of the fields of a record. -/
def evalFields (env : Environment) : List (String × Expr) → Option (List (String × Value))
  | [] => some []
  | (key, expr) :: rest =>
    match eval env expr with
    | none => none
    | some value => (evalFields env rest).map fun fields => (key, value) :: fields

end

end Expr

/-- Holds of the principals or resources in a scope. -/
def EntityScope.covers (entities : Entities) (uid : EntityUid) : EntityScope → Bool
  | all => true
  | equal other => uid = other
  | isIn group => entities.isIn uid group
  | is type => uid.type = type
  | isWithin type group => uid.type = type && entities.isIn uid group

/-- Holds of the actions in a scope. -/
def ActionScope.covers (entities : Entities) (uid : EntityUid) : ActionScope → Bool
  | all => true
  | equal other => uid = other
  | isIn group => entities.isIn uid group
  | isInAny groups => groups.any fun group => entities.isIn uid group

/-- Whether a condition is met. -/
def Condition.met? (env : Environment) (condition : Condition) : Option Bool :=
  ((condition.body.eval env).bind Value.asBool?).map fun value =>
    match condition.kind with
    | .onlyWhen => value
    | .exceptWhen => !value

/-- Whether all conditions are met; those after one that is not met are not looked at. -/
def allMet? (env : Environment) : List Condition → Option Bool
  | [] => some true
  | condition :: rest =>
    match condition.met? env with
    | none => none
    | some false => some false
    | some true => allMet? env rest

/-- Holds of the requests in the scope of a policy. -/
def covers (policy : Policy) (env : Environment) : Bool :=
  policy.principal.covers env.entities env.principal &&
    policy.action.covers env.entities env.action &&
    policy.resource.covers env.entities env.resource

/-- Whether a policy applies to a request, unless its conditions fail. -/
def applies? (policy : Policy) (env : Environment) : Option Bool :=
  if policy.covers env then allMet? env policy.conditions else some false

end PolicyLedger.Policy
