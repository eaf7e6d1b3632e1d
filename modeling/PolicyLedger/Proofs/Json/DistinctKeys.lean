/-
**Values without repeated keys.**

The objects that a program holds have every key once; only a text can repeat one. Canonical values
are of this kind (`hasDistinctKeys_canonical`), and they are the values that `canonical` leaves
alone (`canonical_eq_self`). The queries that are read from JSON hold such values only
(`AccessQuery.ofRecord?_hasDistinctKeys`).
-/

import PolicyLedger.Proofs.Steps
import PolicyLedger.Request.Format

namespace PolicyLedger

namespace Json

mutual

/-- Holds if no object in a value repeats a key. -/
def hasDistinctKeys : Json → Bool
  | list items => itemsHaveDistinctKeys items
  | object members => Record.distinctKeys members && membersHaveDistinctKeys members
  | _ => true

/-- Holds if no object in some values repeats a key. -/
def itemsHaveDistinctKeys : List Json → Bool
  | [] => true
  | item :: rest => hasDistinctKeys item && itemsHaveDistinctKeys rest

/-- Holds if no object in the values of some members repeats a key. -/
def membersHaveDistinctKeys : List (String × Json) → Bool
  | [] => true
  | (_, value) :: rest => hasDistinctKeys value && membersHaveDistinctKeys rest

end

/-- Members with distinct keys, and values that repeat none. -/
def AreDistinct (members : List (String × Json)) : Prop :=
  (members.map Prod.fst).Nodup ∧ ∀ member ∈ members, member.2.hasDistinctKeys = true

theorem distinctKeys_iff {members : List (String × Json)} :
    Record.distinctKeys members = true ↔ (members.map Prod.fst).Nodup := by
  induction members with
  | nil => simp [Record.distinctKeys]
  | cons member rest ih =>
    rw [Record.distinctKeys, Bool.and_eq_true, ih, List.map_cons, List.nodup_cons]
    refine and_congr ?_ Iff.rfl
    simp only [List.all_eq_true, decide_eq_true_eq, List.mem_map, not_exists, not_and]

/-- A structure with known members that are not repeated has just these. -/
theorem Record.of?_object {names : List String} {members : List (String × Json)}
    (known : ∀ member ∈ members, member.1 ∈ names) (distinct : (members.map Prod.fst).Nodup) :
    Record.of? names (object members) = some ⟨members, false⟩ := by
  have kept : members.filter (fun member => names.contains member.1) = members :=
    List.filter_eq_self.mpr fun member inside => by simpa using known member inside
  rw [Record.of?]
  simp only [kept, distinctKeys_iff.mpr distinct, if_true]

theorem itemsHaveDistinctKeys_iff {items : List Json} :
    itemsHaveDistinctKeys items = true ↔ ∀ item ∈ items, item.hasDistinctKeys = true := by
  induction items with
  | nil => simp [itemsHaveDistinctKeys]
  | cons item rest ih => rw [itemsHaveDistinctKeys, Bool.and_eq_true, ih, List.forall_mem_cons]

theorem membersHaveDistinctKeys_iff {members : List (String × Json)} :
    membersHaveDistinctKeys members = true ↔
      ∀ member ∈ members, member.2.hasDistinctKeys = true := by
  induction members with
  | nil => simp [membersHaveDistinctKeys]
  | cons member rest ih =>
    rw [membersHaveDistinctKeys, Bool.and_eq_true, ih, List.forall_mem_cons]

/-- A list repeats no key if its items do not. -/
theorem hasDistinctKeys_list {items : List Json} :
    (list items).hasDistinctKeys = true ↔ ∀ item ∈ items, item.hasDistinctKeys = true := by
  rw [hasDistinctKeys, itemsHaveDistinctKeys_iff]

/-- An object repeats no key if its members do not. -/
theorem hasDistinctKeys_object {members : List (String × Json)} :
    (object members).hasDistinctKeys = true ↔ AreDistinct members := by
  rw [hasDistinctKeys, Bool.and_eq_true, distinctKeys_iff, membersHaveDistinctKeys_iff, AreDistinct]

theorem AreDistinct.nil : AreDistinct [] := ⟨List.nodup_nil, by simp⟩

theorem areDistinct_cons {key : String} {value : Json} {rest : List (String × Json)} :
    AreDistinct ((key, value) :: rest) ↔
      (key ∉ rest.map Prod.fst ∧ value.hasDistinctKeys = true) ∧ AreDistinct rest := by
  simp only [AreDistinct, List.map_cons, List.nodup_cons, List.forall_mem_cons]
  tauto

/-! ### Setting members -/

/-- A set member has its key and value, or was there before. -/
theorem mem_setMember {key : String} {value : Json} {members : List (String × Json)}
    {member : String × Json} (set : member ∈ setMember key value members) :
    member = (key, value) ∨ member ∈ members := by
  induction members with
  | nil => exact .inl (List.mem_singleton.mp set)
  | cons head rest ih =>
    rw [setMember] at set
    split at set
    next same =>
      obtain rfl | set := List.mem_cons.mp set
      · exact .inl (by rw [same])
      · exact .inr (List.mem_cons_of_mem _ set)
    next other =>
      obtain rfl | set := List.mem_cons.mp set
      · exact .inr List.mem_cons_self
      · exact (ih set).imp id (List.mem_cons_of_mem _)

/-- Setting a member adds no other key. -/
theorem keys_setMember (key : String) (value : Json) (members : List (String × Json)) :
    (setMember key value members).map Prod.fst =
      if key ∈ members.map Prod.fst then members.map Prod.fst
      else members.map Prod.fst ++ [key] := by
  induction members with
  | nil => rfl
  | cons head rest ih =>
    obtain ⟨k, v⟩ := head
    rw [setMember]
    by_cases same : k = key
    · simp [same]
    · rw [if_neg same, List.map_cons, ih]
      by_cases inside : key ∈ rest.map Prod.fst
      · rw [if_pos inside, List.map_cons, if_pos (List.mem_cons_of_mem _ inside)]
      · rw [if_neg inside, List.map_cons, if_neg (by simpa [Ne.symm same] using inside)]
        rfl

theorem lookup_setMember_of_ne {key other : String} (apart : other ≠ key) (value : Json)
    (members : List (String × Json)) :
    (setMember key value members).lookup other = members.lookup other := by
  induction members with
  | nil => rw [setMember, List.lookup_cons, beq_eq_false_iff_ne.mpr apart]
  | cons head rest ih =>
    obtain ⟨k, v⟩ := head
    rw [setMember]
    split
    next same => simp only [List.lookup_cons, same, beq_eq_false_iff_ne.mpr apart]
    next => rw [List.lookup_cons, List.lookup_cons, ih]

/-- A member with a new key is set at the end. -/
theorem setMember_of_not_mem {key : String} {value : Json} {members : List (String × Json)}
    (fresh : key ∉ members.map Prod.fst) :
    setMember key value members = members ++ [(key, value)] := by
  induction members with
  | nil => rfl
  | cons head rest ih =>
    obtain ⟨k, v⟩ := head
    simp only [List.map_cons, List.mem_cons, not_or] at fresh
    rw [setMember, if_neg (Ne.symm fresh.1), ih fresh.2, List.cons_append]

/-- Setting a member with a value that repeats no key keeps keys distinct. -/
theorem AreDistinct.setMember {key : String} {value : Json} {members : List (String × Json)}
    (distinct : AreDistinct members) (proper : value.hasDistinctKeys = true) :
    AreDistinct (setMember key value members) := by
  refine ⟨?_, fun member set => ?_⟩
  · rw [keys_setMember]
    split
    · exact distinct.1
    next fresh =>
      refine List.nodup_append.mpr ⟨distinct.1, List.pairwise_singleton _ key, ?_⟩
      intro old inside new added equal
      exact fresh ((List.mem_singleton.mp added) ▸ equal ▸ inside)
  · obtain rfl | before := mem_setMember set
    · exact proper
    · exact distinct.2 member before

/-! ### Canonical values -/

mutual

/-- Canonical values repeat no key. -/
theorem hasDistinctKeys_canonical : (value : Json) → value.canonical.hasDistinctKeys = true
  | null => rfl
  | bool _ => rfl
  | number _ => rfl
  | text _ => rfl
  | list items => hasDistinctKeys_list.mpr (hasDistinctKeys_canonicalItems items)
  | object members =>
    hasDistinctKeys_object.mpr (areDistinct_canonicalMembers members .nil)

theorem hasDistinctKeys_canonicalItems :
    (items : List Json) → ∀ item ∈ canonicalItems items, item.hasDistinctKeys = true
  | [] => by simp [canonicalItems]
  | item :: rest => by
    rw [canonicalItems, List.forall_mem_cons]
    exact ⟨hasDistinctKeys_canonical item, hasDistinctKeys_canonicalItems rest⟩

theorem areDistinct_canonicalMembers :
    (members : List (String × Json)) → {done : List (String × Json)} → AreDistinct done →
      AreDistinct (canonicalMembers done members)
  | [], _, distinct => distinct
  | (_, value) :: rest, _, distinct => by
    rw [canonicalMembers]
    exact areDistinct_canonicalMembers rest
      (distinct.setMember (hasDistinctKeys_canonical value))

end

mutual

/-- A value that repeats no key is canonical. -/
theorem canonical_eq_self : (value : Json) → value.hasDistinctKeys = true → value.canonical = value
  | null, _ => rfl
  | bool _, _ => rfl
  | number _, _ => rfl
  | text _, _ => rfl
  | list items, distinct => by
    rw [canonical, canonicalItems_eq_self items (hasDistinctKeys_list.mp distinct)]
  | object members, distinct => by
    rw [canonical, canonicalMembers_eq_append members [] (hasDistinctKeys_object.mp distinct)
      (by simp), List.nil_append]

theorem canonicalItems_eq_self : (items : List Json) →
    (∀ item ∈ items, item.hasDistinctKeys = true) → canonicalItems items = items
  | [], _ => rfl
  | item :: rest, distinct => by
    rw [List.forall_mem_cons] at distinct
    rw [canonicalItems, canonical_eq_self item distinct.1, canonicalItems_eq_self rest distinct.2]

theorem canonicalMembers_eq_append : (members done : List (String × Json)) →
    AreDistinct members → (∀ member ∈ members, member.1 ∉ done.map Prod.fst) →
      canonicalMembers done members = done ++ members
  | [], done, _, _ => by rw [canonicalMembers, List.append_nil]
  | (key, value) :: rest, done, distinct, apart => by
    obtain ⟨⟨fresh, proper⟩, distinct⟩ := areDistinct_cons.mp distinct
    rw [List.forall_mem_cons] at apart
    rw [canonicalMembers, canonical_eq_self value proper, setMember_of_not_mem apart.1,
      canonicalMembers_eq_append rest _ distinct, List.append_assoc]
    · rfl
    · intro member inside
      rw [List.map_append, List.mem_append, not_or]
      refine ⟨apart.2 member inside, fun same => fresh ?_⟩
      have equal : member.1 = key := List.mem_singleton.mp same
      exact equal ▸ List.mem_map_of_mem inside

end

/-- The members of an object that repeats no key are all read, in their order. -/
theorem asMembers?_object {members : List (String × Json)} (distinct : AreDistinct members) :
    (object members).asMembers? = some members := by
  rw [asMembers?, canonicalMembers_eq_append members [] distinct nofun, List.nil_append]

/-- Items that repeat no key are all read as they are. -/
theorem asListOf?_canonical {items : List Json}
    (distinct : ∀ item ∈ items, item.hasDistinctKeys = true) :
    (list items).asListOf? (some ∘ canonical) = some items := by
  rw [asListOf?, Steps.mapM_eq_some_iff, List.forall₂_same]
  exact fun item inside => congrArg some (canonical_eq_self item (distinct item inside))

theorem areDistinct_asMembers? {value : Json} {members : List (String × Json)}
    (read : value.asMembers? = some members) : AreDistinct members := by
  cases value with
  | object given =>
    obtain rfl := Option.some.inj read
    exact areDistinct_canonicalMembers given .nil
  | _ => cases read

end Json

/-! ### Queries -/

open Json (AreDistinct Record)

/-- No JSON value of a query repeats a key. -/
structure AccessQuery.HasDistinctKeys (query : AccessQuery) : Prop where
  subject : AreDistinct query.subject.properties
  action : AreDistinct query.action.properties
  resource : AreDistinct query.resource.properties
  context : AreDistinct query.context
  items : ∀ item ∈ query.items, item.hasDistinctKeys = true

namespace Json.Record

theorem areDistinct_defaulted {record : Record} {name : String} {members : List (String × Json)}
    (read : record.defaulted name [] Json.asMembers? = some members) : AreDistinct members := by
  rw [defaulted] at read
  split at read
  · obtain rfl := Option.some.inj read
    exact .nil
  · exact areDistinct_asMembers? read

end Json.Record

theorem Subject.ofJson?_areDistinct {value : Json} {subject : Subject}
    (read : Subject.ofJson? value = some subject) : AreDistinct subject.properties := by
  simp only [ofJson?, bind, Option.bind_eq_some_iff, pure, Option.some.injEq] at read
  obtain ⟨_, _, _, _, _, _, _, _, _, properties, rfl⟩ := read
  exact Record.areDistinct_defaulted properties

theorem Resource.ofJson?_areDistinct {value : Json} {resource : Resource}
    (read : Resource.ofJson? value = some resource) : AreDistinct resource.properties := by
  simp only [ofJson?, bind, Option.bind_eq_some_iff, pure, Option.some.injEq] at read
  obtain ⟨_, _, _, _, _, _, _, properties, rfl⟩ := read
  exact Record.areDistinct_defaulted properties

theorem Action.ofJson?_areDistinct {value : Json} {action : Action}
    (read : Action.ofJson? value = some action) : AreDistinct action.properties := by
  simp only [ofJson?, bind, Option.bind_eq_some_iff, pure, Option.some.injEq] at read
  obtain ⟨_, _, _, _, _, properties, rfl⟩ := read
  exact Record.areDistinct_defaulted properties

theorem CallerEntities.ofJson?_hasDistinctKeys {value : Json} {entities : CallerEntities}
    (read : CallerEntities.ofJson? value = some entities) :
    ∀ item ∈ entities.items, item.hasDistinctKeys = true := by
  simp only [ofJson?, bind, Option.bind_eq_some_iff, pure, Option.some.injEq] at read
  obtain ⟨record, _, _, _, items, given, rfl⟩ := read
  rw [Record.defaulted] at given
  split at given
  · obtain rfl := Option.some.inj given
    simp
  next value _ =>
    cases value with
    | list values =>
      intro item inside
      obtain ⟨source, _, copied⟩ :=
        Steps.exists_of_mem_right (Steps.mapM_eq_some_iff.mp given) inside
      obtain rfl := Option.some.inj copied
      exact Json.hasDistinctKeys_canonical source
    | _ => cases given

/-- The queries that are read repeat no key. -/
theorem AccessQuery.ofRecord?_hasDistinctKeys {record : Record} {query : AccessQuery}
    (read : AccessQuery.ofRecord? record = some query) : query.HasDistinctKeys := by
  simp only [ofRecord?, bind, Option.bind_eq_some_iff, pure, Option.some.injEq] at read
  obtain ⟨subject, readSubject, resource, readResource, action, readAction, context, readContext,
    entities, readEntities, rfl⟩ := read
  simp only [Record.required, Option.bind_eq_some_iff] at readSubject readResource readAction
  obtain ⟨_, _, readSubject⟩ := readSubject
  obtain ⟨_, _, readResource⟩ := readResource
  obtain ⟨_, _, readAction⟩ := readAction
  refine ⟨Subject.ofJson?_areDistinct readSubject, Action.ofJson?_areDistinct readAction,
    Resource.ofJson?_areDistinct readResource, Record.areDistinct_defaulted readContext, ?_⟩
  rw [Record.defaulted] at readEntities
  split at readEntities
  · obtain rfl := Option.some.inj readEntities
    simp [AccessQuery.items]
  · split at readEntities
    · obtain rfl := Option.some.inj readEntities
      simp [AccessQuery.items]
    · obtain ⟨given, readGiven, rfl⟩ := Option.map_eq_some_iff.mp readEntities
      exact CallerEntities.ofJson?_hasDistinctKeys readGiven

end PolicyLedger
