/-
**Object stores.**

A store keeps the bytes of objects under their ids. Storing an object again changes nothing; reading
checks the bytes again before they are used.
-/

import PolicyLedger.Object

namespace PolicyLedger

/-- Bytes under ids, in the order they were stored. -/
structure Store where
  rows : List (ObjectId × Bytes)
  deriving DecidableEq

namespace Store

/-- The store without objects. -/
def empty : Store := ⟨[]⟩

/-- The number of objects. -/
def size (store : Store) : Nat := store.rows.length

/-- The bytes under an id. -/
def bytes? (store : Store) (id : ObjectId) : Option Bytes := store.rows.lookup id

/-- Holds of the ids that objects are stored under. -/
def contains (store : Store) (id : ObjectId) : Bool := (store.bytes? id).isSome

/-- The object under an id, whose bytes are checked against it. -/
def get (store : Store) (id : ObjectId) : Except Error Object :=
  match store.bytes? id with
  | none => .error (.missingObject id.text)
  | some bytes => do
    let object ← Object.read bytes
    if object.oid = id then return object
    else throw (.object (.hashMismatch id.text))

/-- A store with an object, which must not displace one stored under the same id. -/
def put (store : Store) (object : Object) : Store :=
  if store.contains object.oid then store
  else ⟨store.rows ++ [(object.oid, object.content)]⟩

end Store

end PolicyLedger
