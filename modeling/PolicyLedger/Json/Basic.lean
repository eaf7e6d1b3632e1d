/-
**JSON values.**

A value keeps the members of its objects in the order they were written, because the order of a
request's members decides which violation is reported first. A reader keeps repeated members as
well; `canonical` leaves one of each key, in the place of the first and with the value of the last.

Whole numbers are those that fit 64 bits, signed or not; all other numbers are doubles.
-/

import PolicyLedger.Json.Double

namespace PolicyLedger

namespace Json

/-- The bounds of whole numbers. -/
def FitsWhole (value : Int) : Prop :=
  -9223372036854775808 ≤ value ∧ value < 18446744073709551616

instance (value : Int) : Decidable (FitsWhole value) := inferInstanceAs (Decidable (_ ∧ _))

/-- A number, whole or not. -/
inductive Number
  | whole (value : Int) (fits : FitsWhole value)
  | double (value : Double)
  deriving DecidableEq

end Json

/-- A JSON value. -/
inductive Json
  | null
  | bool (value : Bool)
  | number (value : Json.Number)
  | text (value : String)
  | list (items : List Json)
  | object (members : List (String × Json))

namespace Json

/-- The members of an object; other values have none. -/
def members : Json → List (String × Json)
  | object members => members
  | _ => []

/-- The member of an object with a key. -/
def member? (value : Json) (key : String) : Option Json := value.members.lookup key

/-- The text of a text value. -/
def asText? : Json → Option String
  | text value => some value
  | _ => none

/-- The items of a list value. -/
def asList? : Json → Option (List Json)
  | list items => some items
  | _ => none

/-- A natural number of at most 64 bits as a value. -/
def ofUInt64 (value : UInt64) : Json :=
  number (.whole value.toNat (by
    have bound := value.toNat_lt
    constructor <;> omega))

/-- A signed number of 64 bits as a value. -/
def ofInt64 (value : Int64) : Json :=
  number (.whole value.toInt (by
    have low := value.le_toInt
    have high := value.toInt_lt
    constructor <;> omega))

/-- A natural number as a value, null if it does not fit 64 bits. -/
def ofNat (value : Nat) : Json :=
  if fits : FitsWhole value then number (.whole value fits) else null

/-! ### Members -/

/-- Members with a value under a key: in the place of the key, or at the end. -/
def setMember (key : String) (value : Json) : List (String × Json) → List (String × Json)
  | [] => [(key, value)]
  | (k, v) :: rest => if k = key then (k, value) :: rest else (k, v) :: setMember key value rest

/-- The first member with a key, which `setMember` put there, has the value. -/
theorem lookup_setMember (key : String) (value : Json) (members : List (String × Json)) :
    (setMember key value members).lookup key = some value := by
  induction members with
  | nil => simp [setMember]
  | cons head rest ih =>
    obtain ⟨k, v⟩ := head
    unfold setMember
    split
    next same => simp [same]
    next other => simp [List.lookup_cons, beq_eq_false_iff_ne.2 (Ne.symm other), ih]

mutual

/-- A value without repeated keys. -/
def canonical : Json → Json
  | null => null
  | bool value => bool value
  | number value => number value
  | text value => text value
  | list items => list (canonicalItems items)
  | object members => object (canonicalMembers [] members)

/-- Values without repeated keys. -/
def canonicalItems : List Json → List Json
  | [] => []
  | item :: rest => canonical item :: canonicalItems rest

/-- Members added one after the other to those at hand. -/
def canonicalMembers (done : List (String × Json)) : List (String × Json) → List (String × Json)
  | [] => done
  | (key, value) :: rest => canonicalMembers (setMember key (canonical value) done) rest

end

mutual

/-- The number of objects and lists around the innermost value. -/
def depth : Json → Nat
  | list items => depthItems items + 1
  | object members => depthMembers members + 1
  | _ => 0

/-- The greatest depth of some values. -/
def depthItems : List Json → Nat
  | [] => 0
  | item :: rest => max (depth item) (depthItems rest)

/-- The greatest depth of some members. -/
def depthMembers : List (String × Json) → Nat
  | [] => 0
  | (_, value) :: rest => max (depth value) (depthMembers rest)

end

end Json

end PolicyLedger
