/-
**Values.**

Expressions have values: truth values, whole numbers, texts, names of entities, sets, records and
the values of the extensions. Records have their keys in order. A set is a list of its members, so
two lists are one set if each member of one is in the other.

* `Value.same` is equality of values.
-/

import PolicyLedger.Policy.Expr
import PolicyLedger.Policy.Extension.Address
import PolicyLedger.Policy.Extension.Moment

namespace PolicyLedger.Policy

/-- A value of an extension. -/
inductive ExtensionValue
  | address (value : Address)
  | decimal (value : Decimal)
  | moment (value : Moment)
  | duration (value : Duration)
  deriving DecidableEq

/-- A value. -/
inductive Value
  | bool (value : Bool)
  | int (value : Int64)
  | text (value : String)
  | entity (uid : EntityUid)
  | set (items : List Value)
  | record (fields : List (String × Value))
  | ext (value : ExtensionValue)

namespace Value

mutual

/-- Equality of values. -/
def same : Value → Value → Bool
  | bool a, bool b => a = b
  | int a, int b => a = b
  | text a, text b => a = b
  | entity a, entity b => a = b
  | set a, set b => allIn a b && b.all fun item => holds a item
  | record a, record b => sameFields a b
  | ext a, ext b => a = b
  | _, _ => false

/-- Holds if every value of a list is in another list. -/
def allIn : List Value → List Value → Bool
  | [], _ => true
  | item :: rest, others => (others.any fun other => same item other) && allIn rest others

/-- Holds if a value is in a list. -/
def holds : List Value → Value → Bool
  | [], _ => false
  | item :: rest, value => same item value || holds rest value

/-- Equality of fields, key by key. -/
def sameFields : List (String × Value) → List (String × Value) → Bool
  | [], [] => true
  | (k, v) :: a, (l, w) :: b => k = l && same v w && sameFields a b
  | _, _ => false

end

/-- A truth value. -/
def asBool? : Value → Option Bool
  | bool value => some value
  | _ => none

/-- A whole number. -/
def asInt? : Value → Option Int64
  | int value => some value
  | _ => none

/-- A text. -/
def asText? : Value → Option String
  | text value => some value
  | _ => none

/-- The name of an entity. -/
def asEntity? : Value → Option EntityUid
  | entity uid => some uid
  | _ => none

/-- The members of a set. -/
def asSet? : Value → Option (List Value)
  | set items => some items
  | _ => none

end Value

end PolicyLedger.Policy
