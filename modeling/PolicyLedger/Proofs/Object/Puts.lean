/-
**Stores after any puts.**

A store is sound if every id is the digest of the bytes under it, all ids are distinct, and all
bytes are frames (`Store.IsSound`). The empty store is sound, and a put keeps a store sound
(`Store.IsSound.put`), so every store is sound that objects were put into
(`Store.isSound_ofObjects`).

`Store.invariant_ofObjects` is the law of such a store: it gives the first object that was put under
an id, never an error but that there is none; it has as many rows as distinct ids were put; putting
an object again changes nothing; and unless two contents have the same digest, it matters which
objects were put, not in which order or how often.
-/

import Mathlib.Data.List.Dedup
import PolicyLedger.Proofs.Object.Store

namespace PolicyLedger

namespace Object

variable {objects : List Object} {id : ObjectId} {object : Object}

/-- An object is the first of some objects that has an id. -/
def IsFirst (objects : List Object) (id : ObjectId) (object : Object) : Prop :=
  ∃ before after, objects = before ++ object :: after ∧ object.oid = id ∧
    ∀ earlier ∈ before, earlier.oid ≠ id

theorem isFirst_iff_find? :
    IsFirst objects id object ↔ (objects.find? fun other => other.oid = id) = some object := by
  rw [List.find?_eq_some_iff_append]
  constructor
  · rintro ⟨before, after, same, named, others⟩
    exact ⟨decide_eq_true named, before, after, same, fun earlier inside => by
      simpa using others earlier inside⟩
  · rintro ⟨named, before, after, same, others⟩
    exact ⟨before, after, same, of_decide_eq_true named, fun earlier inside => by
      simpa using others earlier inside⟩

/-- Different contents have different digests. -/
def NoCollision (objects : List Object) : Prop :=
  ∀ object ∈ objects, ∀ other ∈ objects,
    Digest.Sha256.digest other.content = Digest.Sha256.digest object.content →
      other.content = object.content

theorem content_injective {other : Object} (same : other.content = object.content) :
    other = object := by
  have read := other.read_content
  rw [same, object.read_content] at read
  exact (Except.ok.inj read).symm

/-- Without collisions an object is determined by its id. -/
theorem NoCollision.eq_of_oid (free : NoCollision objects) (inside : object ∈ objects)
    {other : Object} (there : other ∈ objects) (same : other.oid = object.oid) :
    other = object := by
  have hex := congrArg (fun id => Bytes.ofHex? id.text) same
  simp only [oid, ObjectId.of, Bytes.ofHex?_hex, Option.some.injEq] at hex
  exact content_injective (free object inside other there hex)

end Object

namespace Store

variable {store : Store} {objects : List Object} {id : ObjectId} {bytes : Bytes} {object : Object}

/-! ### Sound stores -/

/-- Every id is the digest of the bytes under it, all ids are distinct, and all bytes are frames. -/
structure IsSound (store : Store) : Prop where
  distinct : (store.rows.map Prod.fst).Nodup
  named : ∀ row ∈ store.rows, row.1 = .of row.2
  framed : ∀ row ∈ store.rows, ∃ object, Object.read row.2 = .ok object

theorem isSound_empty : empty.IsSound := ⟨.nil, nofun, nofun⟩

/-- The ids of a store are those that it contains. -/
theorem mem_keys_iff : id ∈ store.rows.map Prod.fst ↔ store.contains id = true := by
  rw [contains, bytes?, List.lookup_isSome_iff, List.mem_map]
  exact exists_congr fun row => and_congr_right fun _ => by rw [beq_iff_eq, eq_comm]

/-- **A put keeps a store sound.** -/
theorem IsSound.put (sound : store.IsSound) (object : Object) : (store.put object).IsSound := by
  rw [Store.put]
  by_cases known : store.contains object.oid = true
  · rwa [if_pos known]
  · rw [if_neg known]
    refine ⟨?_, ?_, ?_⟩
    · rw [List.map_append, List.map_singleton]
      refine List.nodup_append.mpr ⟨sound.distinct, List.nodup_singleton _, ?_⟩
      rintro id inside _ one rfl
      obtain rfl := List.mem_singleton.mp one
      exact known (mem_keys_iff.mp inside)
    · rw [List.forall_mem_append, List.forall_mem_singleton]
      exact ⟨sound.named, rfl⟩
    · rw [List.forall_mem_append, List.forall_mem_singleton]
      exact ⟨sound.framed, object, object.read_content⟩

/-- **Every store that objects were put into is sound.** -/
theorem isSound_ofObjects (objects : List Object) : (ofObjects objects).IsSound := by
  have kept : ∀ store : Store, store.IsSound → (objects.foldl Store.put store).IsSound := by
    induction objects with
    | nil => exact fun _ sound => sound
    | cons object objects ih => exact fun store sound => ih _ (sound.put object)
  exact kept empty isSound_empty

/-- A row of a sound store is what is under its id. -/
theorem IsSound.mem_rows_iff (sound : store.IsSound) :
    (id, bytes) ∈ store.rows ↔ store.bytes? id = some bytes := by
  constructor
  · intro inside
    obtain ⟨before, after, rows⟩ := List.append_of_mem inside
    have distinct := sound.distinct
    rw [rows, List.map_append, List.map_cons] at distinct
    have fresh := List.nodup_middle.mp distinct
    rw [List.nodup_cons, List.mem_append] at fresh
    refine List.lookup_eq_some_iff.mpr ⟨before, after, rows, fun row earlier => ?_⟩
    exact bne_iff_ne.mpr fun same => fresh.1 (.inl (List.mem_map.mpr ⟨row, earlier, same.symm⟩))
  · intro there
    obtain ⟨before, after, rows, _⟩ := List.lookup_eq_some_iff.mp there
    rw [rows]
    exact List.mem_append_right _ List.mem_cons_self

/-! ### Runs of puts -/

/-- What a store gives under an id that objects were put under is the first of them. -/
theorem get_eq_ok_iff :
    (ofObjects objects).get id = .ok object ↔ Object.IsFirst objects id object := by
  rw [Object.isFirst_iff_find?, get, bytes?_ofObjects]
  cases found : objects.find? fun other => other.oid = id with
  | none => exact iff_of_false (by rintro ⟨⟩) (by rintro ⟨⟩)
  | some other =>
    have named : other.oid = id := by simpa using List.find?_some found
    have given : (do
        let read ← Object.read other.content
        if read.oid = id then return read
        else throw (.object (.hashMismatch id.text)) : Except Error Object) = .ok other := by
      rw [other.read_content]
      exact if_pos named
    simp only [Option.map_some]
    rw [given, Except.ok.injEq, Option.some.injEq]

theorem get_eq_error_iff {error : Error} :
    (ofObjects objects).get id = .error error ↔
      error = .missingObject id.text ∧ ∀ object ∈ objects, object.oid ≠ id := by
  cases found : objects.find? fun other => other.oid = id with
  | none =>
    have absent := List.find?_eq_none.mp found
    have given : (ofObjects objects).get id = .error (.missingObject id.text) := by
      rw [get, bytes?_ofObjects, found]
      rfl
    rw [given, Except.error.injEq, eq_comm]
    refine (and_iff_left fun object inside => ?_).symm
    simpa using absent object inside
  | some object =>
    have given := get_eq_ok_iff.mpr (Object.isFirst_iff_find?.mpr found)
    rw [given]
    refine iff_of_false (by rintro ⟨⟩) fun both => both.2 object (List.mem_of_find?_eq_some found) ?_
    simpa using List.find?_some found

theorem contains_iff :
    (ofObjects objects).contains id = true ↔ ∃ object ∈ objects, object.oid = id := by
  rw [contains, bytes?_ofObjects, Option.isSome_map, List.find?_isSome]
  simp

/-- A store has as many rows as distinct ids were put. -/
theorem size_ofObjects : (ofObjects objects).size = (objects.map Object.oid).dedup.length := by
  have sound := isSound_ofObjects objects
  have same : ((ofObjects objects).rows.map Prod.fst).Perm (objects.map Object.oid).dedup := by
    refine (List.perm_ext_iff_of_nodup sound.distinct (List.nodup_dedup _)).mpr fun id => ?_
    exact mem_keys_iff.trans (contains_iff.trans (List.mem_map.symm.trans List.mem_dedup.symm))
  rw [size, ← List.length_map Prod.fst]
  exact same.length_eq

theorem put_ofObjects (inside : object ∈ objects) :
    (ofObjects objects).put object = ofObjects objects :=
  if_pos (contains_iff.mpr ⟨object, inside, rfl⟩)

/-- Without collisions the bytes under an id are those of the object that has it. -/
theorem bytes?_eq_some_iff (free : Object.NoCollision objects) :
    (ofObjects objects).bytes? id = some bytes ↔
      ∃ object ∈ objects, object.oid = id ∧ object.content = bytes := by
  rw [bytes?_ofObjects, Option.map_eq_some_iff]
  constructor
  · rintro ⟨object, found, rfl⟩
    exact ⟨object, List.mem_of_find?_eq_some found, by simpa using List.find?_some found, rfl⟩
  · rintro ⟨object, inside, rfl, rfl⟩
    have met : (objects.find? fun other => other.oid = object.oid).isSome = true :=
      List.find?_isSome.mpr ⟨object, inside, decide_eq_true rfl⟩
    obtain ⟨other, found⟩ := Option.isSome_iff_exists.mp met
    have named : other.oid = object.oid := by simpa using List.find?_some found
    rw [free.eq_of_oid inside (List.mem_of_find?_eq_some found) named] at found
    exact ⟨object, found, rfl⟩

/-- **A store after any puts.** It is sound. Under an id is the first object that was put there, if
any was, and the only error is that none was; just the ids with an object are contained. There are
as many rows as distinct ids were put, and putting an object again changes nothing. If different
contents have different digests, the same objects make the same store, in whatever order and however
often they are put. -/
theorem invariant_ofObjects (objects : List Object) :
    (ofObjects objects).IsSound ∧
    (∀ id, (∃ object, (ofObjects objects).get id = .ok object) ↔
      ∃ object ∈ objects, object.oid = id) ∧
    (∀ id object, (ofObjects objects).get id = .ok object ↔ Object.IsFirst objects id object) ∧
    (∀ id error, (ofObjects objects).get id = .error error ↔
      error = .missingObject id.text ∧ ∀ object ∈ objects, object.oid ≠ id) ∧
    (∀ id, (ofObjects objects).contains id = true ↔
      ∃ object, (ofObjects objects).get id = .ok object) ∧
    (ofObjects objects).size = (objects.map Object.oid).dedup.length ∧
    (∀ object ∈ objects, (ofObjects objects).put object = ofObjects objects) ∧
    (Object.NoCollision objects → ∀ others : List Object,
      (∀ object, object ∈ others ↔ object ∈ objects) →
        (ofObjects others).rows.Perm (ofObjects objects).rows ∧
        ∀ id, (ofObjects others).bytes? id = (ofObjects objects).bytes? id) := by
  have sound := isSound_ofObjects objects
  have gives : ∀ id, (∃ object, (ofObjects objects).get id = .ok object) ↔
      ∃ object ∈ objects, object.oid = id := by
    intro id
    rw [← contains_iff, contains, bytes?_ofObjects, Option.isSome_map,
      Option.isSome_iff_exists]
    exact exists_congr fun object => get_eq_ok_iff.trans Object.isFirst_iff_find?
  refine ⟨sound, gives, fun _ _ => get_eq_ok_iff, fun _ _ => get_eq_error_iff,
    fun id => contains_iff.trans (gives id).symm, size_ofObjects,
    fun _ inside => put_ofObjects inside, fun free others same => ?_⟩
  have freeToo : Object.NoCollision others := fun object inside other there =>
    free object ((same object).mp inside) other ((same other).mp there)
  have bytes : ∀ id, (ofObjects others).bytes? id = (ofObjects objects).bytes? id := by
    intro id
    refine Option.ext fun bytes => ?_
    rw [bytes?_eq_some_iff free, bytes?_eq_some_iff freeToo]
    exact exists_congr fun object => and_congr_left fun _ => same object
  refine ⟨?_, bytes⟩
  have soundToo := isSound_ofObjects others
  refine (List.perm_ext_iff_of_nodup soundToo.distinct.of_map sound.distinct.of_map).mpr ?_
  rintro ⟨id, content⟩
  rw [soundToo.mem_rows_iff, sound.mem_rows_iff, bytes]

/-- An object without a payload. -/
def emptyObject : Object := ⟨.commit, [], by decide⟩

/-- An object with one byte. -/
def byteObject : Object := ⟨.blob, [1], by decide⟩

/-- Two objects, put the other way around and one of them twice. -/
theorem invariant_of_reordered : Object.NoCollision [emptyObject, byteObject] ∧
    (ofObjects [byteObject, emptyObject, byteObject]).rows.Perm
      (ofObjects [emptyObject, byteObject]).rows ∧
    (ofObjects [byteObject, emptyObject, byteObject]).get byteObject.oid = .ok byteObject := by
  have free : Object.NoCollision [emptyObject, byteObject] := by
    unfold Object.NoCollision
    decide +kernel
  obtain ⟨-, -, -, -, -, -, -, reordered⟩ := invariant_ofObjects [emptyObject, byteObject]
  obtain ⟨-, -, gives, -⟩ := invariant_ofObjects [byteObject, emptyObject, byteObject]
  refine ⟨free, (reordered free _ fun object => ?_).1, (gives _ _).mpr ?_⟩
  · simp only [List.mem_cons, List.not_mem_nil, or_false]
    tauto
  · exact ⟨[], _, rfl, rfl, nofun⟩

end Store

end PolicyLedger
