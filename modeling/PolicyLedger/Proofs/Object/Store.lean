/-
**Objects that were put into a store.**

A store keeps the first object put under each id (`bytes?_ofObjects`). So an object is found again if
no other object that was put there has its id (`get_of_mem`), whatever the order and whatever else
the store holds.
-/

import Mathlib.Data.List.Nodup
import PolicyLedger.Store
import PolicyLedger.Proofs.Steps

namespace PolicyLedger

namespace Object

/-- A frame is made of a payload that fits it. -/
theorem frame_eq_ok_iff {kind : ObjectKind} {payload : Bytes} {object : Object} :
    frame kind payload = .ok object ↔ object.kind = kind ∧ object.payload = payload := by
  rw [frame]
  constructor
  · intro framed
    split at framed
    · obtain rfl := Except.ok.inj framed
      exact ⟨rfl, rfl⟩
    · cases framed
  · rintro ⟨rfl, rfl⟩
    rw [dif_pos object.fits]

theorem exists_frame (kind : ObjectKind) {payload : Bytes} (fits : payload.length < 4294967296) :
    ∃ object, frame kind payload = .ok object :=
  ⟨⟨kind, payload, fits⟩, dif_pos fits⟩

/-- Every object has an id of its own, and none has the id that stands for no object. -/
structure HaveOwnIds (objects : List Object) : Prop where
  distinct : ∀ object ∈ objects, ∀ other ∈ objects, other.oid = object.oid → other = object
  nonzero : ∀ object ∈ objects, object.oid.isZero = false

theorem haveOwnIds_of_nodup {objects : List Object} (distinct : (objects.map oid).Nodup)
    (nonzero : ObjectId.zero ∉ objects.map oid) : HaveOwnIds objects where
  distinct _ inside _ other same := List.inj_on_of_nodup_map distinct other inside same
  nonzero _ inside := decide_eq_false fun same => nonzero (same ▸ List.mem_map_of_mem inside)

end Object

namespace Store

/-- The store that objects were put into, one after the other. -/
def ofObjects (objects : List Object) : Store := objects.foldl put empty

theorem lookup_append {β : Type} (rows : List (ObjectId × β)) (key id : ObjectId) (value : β) :
    (rows ++ [(key, value)]).lookup id =
      (rows.lookup id).or (if key = id then some value else none) := by
  induction rows with
  | nil =>
    by_cases same : key = id
    · simp [same]
    · simp [List.lookup_cons, same, beq_eq_false_iff_ne.mpr (Ne.symm same)]
  | cons row rows ih =>
    rw [List.cons_append, List.lookup_cons, List.lookup_cons]
    cases id == row.1 with
    | true => rfl
    | false => exact ih

/-- What was stored stays, and the new object is under its id if nothing was. -/
theorem bytes?_put (store : Store) (object : Object) (id : ObjectId) :
    (store.put object).bytes? id =
      (store.bytes? id).or (if object.oid = id then some object.content else none) := by
  rw [put]
  by_cases known : store.contains object.oid = true
  · rw [if_pos known]
    by_cases same : object.oid = id
    · rw [contains, same, Option.isSome_iff_exists] at known
      obtain ⟨bytes, there⟩ := known
      rw [there, Option.some_or]
    · rw [if_neg same, Option.or_none]
  · rw [if_neg known]
    exact lookup_append store.rows object.oid id object.content

theorem bytes?_foldl_put (objects : List Object) (store : Store) (id : ObjectId) :
    (objects.foldl put store).bytes? id = (store.bytes? id).or
      ((objects.find? fun object => object.oid = id).map Object.content) := by
  induction objects generalizing store with
  | nil => exact (Option.or_none).symm
  | cons object objects ih =>
    rw [List.foldl_cons, ih, bytes?_put, Option.or_assoc, List.find?_cons]
    by_cases same : object.oid = id
    · simp [same]
    · simp [same]

/-- Under an id are the bytes of the first object that has it. -/
theorem bytes?_ofObjects (objects : List Object) (id : ObjectId) :
    (ofObjects objects).bytes? id =
      (objects.find? fun object => object.oid = id).map Object.content :=
  bytes?_foldl_put objects empty id

/-- **An object that was put into a store is found** if no other one has its id. -/
theorem get_of_mem {objects : List Object} {object : Object} (stored : object ∈ objects)
    (distinct : ∀ other ∈ objects, other.oid = object.oid → other = object) :
    (ofObjects objects).get object.oid = .ok object := by
  have met : (objects.find? fun other => other.oid = object.oid).isSome = true :=
    List.find?_isSome.mpr ⟨object, stored, decide_eq_true rfl⟩
  obtain ⟨other, found⟩ := Option.isSome_iff_exists.mp met
  have named : decide (other.oid = object.oid) = true := by
    simpa using List.find?_some found
  have same : other = object :=
    distinct other (List.mem_of_find?_eq_some found) (of_decide_eq_true named)
  have bytes : (ofObjects objects).bytes? object.oid = some object.content := by
    rw [bytes?_ofObjects, found, same]
    rfl
  rw [get, bytes]
  refine Steps.bind_eq_ok.mpr ⟨object, object.read_content, ?_⟩
  rw [if_pos rfl]
  rfl

end Store

end PolicyLedger
