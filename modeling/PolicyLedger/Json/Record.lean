/-
**Structures in JSON.**

A structure is read from an object with a member for each field, or from a list with the fields in
their order. Members that are no fields are ignored; a field given twice is refused. What happens
to a missing field depends on the field:

* `required` refuses the structure;
* `defaulted` takes a default;
* `optional` gives nothing, and so does a null; in a list the field must be there.
-/

import PolicyLedger.Json.Basic

namespace PolicyLedger.Json

/-- The fields of a structure that were given. -/
structure Record where
  fields : List (String × Json)
  isList : Bool

namespace Record

/-- Holds if no key is repeated. -/
def distinctKeys : List (String × Json) → Bool
  | [] => true
  | (key, _) :: rest => rest.all (fun member => member.1 ≠ key) && distinctKeys rest

/-- The structure with the named fields. -/
def of? (names : List String) : Json → Option Record
  | object members =>
    let known := members.filter fun member => names.contains member.1
    if distinctKeys known then some ⟨known, false⟩ else none
  | list items => if items.length ≤ names.length then some ⟨names.zip items, true⟩ else none
  | _ => none

/-- The structure with the named fields, which is read from objects only. -/
def ofObject? (names : List String) : Json → Option Record
  | object members => of? names (object members)
  | _ => none

/-- A field that must be given. -/
def required {α : Type} (record : Record) (name : String) (read? : Json → Option α) : Option α :=
  (record.fields.lookup name).bind read?

/-- A field that has a default. -/
def defaulted {α : Type} (record : Record) (name : String) (default : α)
    (read? : Json → Option α) : Option α :=
  match record.fields.lookup name with
  | none => some default
  | some value => read? value

/-- A field that may be missing or null. -/
def optional {α : Type} (record : Record) (name : String) (read? : Json → Option α) :
    Option (Option α) :=
  match record.fields.lookup name with
  | none => if record.isList then none else some none
  | some null => some none
  | some value => (read? value).map some

end Record

/-! ### Simple fields -/

/-- A truth value. -/
def asBool? : Json → Option Bool
  | bool value => some value
  | _ => none

/-- The word of a choice without contents, which an object with a null may stand for. -/
def asChoice? : Json → Option String
  | text word => some word
  | object [(word, null)] => some word
  | _ => none

/-- A whole number below a bound. -/
def asBelow? (bound : Nat) : Json → Option Nat
  | number (.whole value _) => if 0 ≤ value ∧ value < bound then some value.toNat else none
  | _ => none

/-- A natural number of 32 bits. -/
def asUInt32? (value : Json) : Option UInt32 := (value.asBelow? 4294967296).map UInt32.ofNat

/-- A natural number of 64 bits. -/
def asUInt64? (value : Json) : Option UInt64 :=
  (value.asBelow? 18446744073709551616).map UInt64.ofNat

/-- A list whose items are all read. -/
def asListOf? {α : Type} (read? : Json → Option α) : Json → Option (List α)
  | list items => items.mapM read?
  | _ => none

/-- The members of an object, without repeated keys. -/
def asMembers? : Json → Option (List (String × Json))
  | object members => some (canonicalMembers [] members)
  | _ => none

end PolicyLedger.Json
