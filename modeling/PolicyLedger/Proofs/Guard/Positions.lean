/-
**Where the guard looks.**

Every identifier of a query has an address, and the order of the addresses is the order in which the
guard looks: a subject, resource or action in front of its properties, keys in front of the
references in the values, and a reference in front of those inside it. The positions are described
without the guard's lists (`Guard.Stands`, `Json.RefersAt`), and the lists have what stands there, in
the order of the addresses (`Lists`).

* `Json.lists_referenceTypes` — references at any depth of a value;
* `Guard.lists_claims` — all identifiers of a query;
* `Guard.verify_refuses_first` — a query passes if none of them is reserved; the first one that is
  reserved is reported.
-/

import Mathlib.Data.List.Forall2
import PolicyLedger.Proofs.Name.Reserved
import PolicyLedger.Proofs.Steps
import PolicyLedger.Request.Guard

namespace PolicyLedger

/-! ### Items in the order of their addresses -/

/-- The items that stand at addresses, in the order of the addresses: what stands in front of others
comes first, and the first number that differs decides. -/
def Lists {α : Type} (stands : List Nat → α → Prop) (items : List α) : Prop :=
  ∃ rows : List (List Nat × α), rows.map Prod.snd = items ∧
    rows.Pairwise (fun row later => row.1 < later.1) ∧
    ∀ address item, (address, item) ∈ rows ↔ stands address item

namespace Lists

variable {α β : Type} {stands others : List Nat → α → Prop} {items more : List α}

theorem nothing (empty : ∀ address item, ¬ stands address item) : Lists stands [] :=
  ⟨[], rfl, .nil, fun address item => iff_of_false List.not_mem_nil (empty address item)⟩

theorem one (item : α) : Lists (fun address other => address = [] ∧ other = item) [item] :=
  ⟨[([], item)], rfl, List.pairwise_singleton _ _, by simp⟩

theorem congr (listed : Lists stands items)
    (same : ∀ address item, stands address item ↔ others address item) : Lists others items := by
  obtain ⟨rows, labels, sorted, rows_iff⟩ := listed
  exact ⟨rows, labels, sorted, fun address item => (rows_iff address item).trans (same address item)⟩

/-- Items whose addresses precede those of others are listed in front of them. -/
theorem append (first : Lists stands items) (second : Lists others more)
    (before : ∀ address item later other, stands address item → others later other →
      address < later) :
    Lists (fun address item => stands address item ∨ others address item) (items ++ more) := by
  obtain ⟨rows, rfl, sorted, iff⟩ := first
  obtain ⟨laterRows, rfl, laterSorted, laterIff⟩ := second
  refine ⟨rows ++ laterRows, List.map_append, ?_, fun address item => ?_⟩
  · refine List.pairwise_append.mpr ⟨sorted, laterSorted, fun row inside later there => ?_⟩
    exact before _ _ _ _ ((iff _ _).mp inside) ((laterIff _ _).mp there)
  · rw [List.mem_append, iff, laterIff]

/-- A number in front of all addresses does not change the order. -/
theorem under (listed : Lists stands items) (number : Nat) :
    Lists (fun address item => ∃ rest, address = number :: rest ∧ stands rest item) items := by
  obtain ⟨rows, rfl, sorted, iff⟩ := listed
  refine ⟨rows.map fun row => (number :: row.1, row.2), by simp, ?_, fun address item => ?_⟩
  · rw [List.pairwise_map]
    exact sorted.imp fun before => List.cons_lt_cons_iff.mpr (.inr ⟨rfl, before⟩)
  · simp only [List.mem_map, Prod.mk.injEq, Prod.exists]
    constructor
    · rintro ⟨rest, _, inside, rfl, rfl⟩
      exact ⟨rest, rfl, (iff rest _).mp inside⟩
    · rintro ⟨rest, rfl, there⟩
      exact ⟨rest, item, (iff rest item).mpr there, rfl, rfl⟩

theorem map (listed : Lists stands items) (convert : α → β) :
    Lists (fun address image => ∃ item, stands address item ∧ image = convert item)
      (items.map convert) := by
  obtain ⟨rows, rfl, sorted, iff⟩ := listed
  refine ⟨rows.map fun row => (row.1, convert row.2), by simp, ?_, fun address image => ?_⟩
  · rw [List.pairwise_map]
    exact sorted
  · simp only [List.mem_map, Prod.mk.injEq, Prod.exists]
    constructor
    · rintro ⟨_, item, inside, rfl, rfl⟩
      exact ⟨item, (iff _ item).mp inside, rfl⟩
    · rintro ⟨item, there, rfl⟩
      exact ⟨address, item, (iff address item).mpr there, rfl, rfl⟩

/-- Items stand under the numbers of the stages that they belong to. -/
def Staged (stages : List (List Nat → α → Prop)) (address : List Nat) (item : α) : Prop :=
  ∃ number stands rest, stages[number]? = some stands ∧ address = number :: rest ∧ stands rest item

/-- Items of one stage after the other are listed one stage after the other. -/
theorem flatten {stages : List (List Nat → α → Prop)} {parts : List (List α)}
    (each : List.Forall₂ Lists stages parts) : Lists (Staged stages) parts.flatten := by
  suffices from_ : ∀ start, Lists (fun address item => ∃ number stands rest,
      stages[number]? = some stands ∧ address = (start + number) :: rest ∧ stands rest item)
      parts.flatten by
    have listed := from_ 0
    simp only [Nat.zero_add] at listed
    exact listed
  induction each with
  | nil => exact fun _ => .nothing fun _ _ ⟨_, _, _, impossible, _⟩ => nomatch impossible
  | @cons stands part stages parts first _ ih =>
    intro start
    refine ((first.under start).append (ih (start + 1)) ?_).congr fun address item => ?_
    · rintro _ _ _ _ ⟨rest, rfl, _⟩ ⟨number, _, _, _, rfl, _⟩
      exact List.cons_lt_cons_iff.mpr (.inl (by omega))
    · constructor
      · rintro (⟨rest, rfl, there⟩ | ⟨number, other, rest, found, rfl, there⟩)
        · exact ⟨0, stands, rest, rfl, rfl, there⟩
        · exact ⟨number + 1, other, rest, found, by rw [Nat.add_right_comm, Nat.add_assoc], there⟩
      · rintro ⟨number, other, rest, found, rfl, there⟩
        cases number with
        | zero =>
          obtain rfl := Option.some.inj found
          exact .inl ⟨rest, rfl, there⟩
        | succ number =>
          exact .inr ⟨number, other, rest, found, by rw [Nat.add_right_comm, Nat.add_assoc], there⟩

/-- The items of some parts stand under the numbers of the parts. -/
theorem flatMap {stands : β → List Nat → α → Prop} {parts : List β} {list : β → List α}
    (each : ∀ part ∈ parts, Lists (stands part) (list part)) :
    Lists (fun address item => ∃ number part rest, parts[number]? = some part ∧
      address = number :: rest ∧ stands part rest item) (parts.flatMap list) := by
  have related : List.Forall₂ Lists (parts.map stands) (parts.map list) := by
    rw [List.forall₂_map_left_iff, List.forall₂_map_right_iff, List.forall₂_same]
    exact each
  refine (flatten related).congr fun address item => ?_
  constructor
  · rintro ⟨number, _, rest, found, rfl, there⟩
    rw [List.getElem?_map, Option.map_eq_some_iff] at found
    obtain ⟨part, found, rfl⟩ := found
    exact ⟨number, part, rest, found, rfl, there⟩
  · rintro ⟨number, part, rest, found, rfl, there⟩
    exact ⟨number, stands part, rest, by rw [List.getElem?_map, found]; rfl, rfl, there⟩

/-- What holds of all items holds of all that stand somewhere. -/
theorem forall_mem_iff (listed : Lists stands items) {P : α → Prop} :
    (∀ item ∈ items, P item) ↔ ∀ address item, stands address item → P item := by
  obtain ⟨rows, rfl, -, iff⟩ := listed
  constructor
  · exact fun all address item there =>
      all item (List.mem_map_of_mem (f := Prod.snd) ((iff address item).mpr there))
  · intro all item inside
    obtain ⟨⟨address, _⟩, there, rfl⟩ := List.mem_map.mp inside
    exact all address _ ((iff address _).mp there)

/-- The first item of a sort is the one that stands in front of all others of the sort. -/
theorem first_iff (listed : Lists stands items) {P Q : α → Prop} :
    (∃ before item after, items = before ++ item :: after ∧ (∀ earlier ∈ before, P earlier) ∧
      Q item) ↔
    ∃ address item, stands address item ∧ Q item ∧
      ∀ earlier other, earlier < address → stands earlier other → P other := by
  obtain ⟨rows, rfl, sorted, iff⟩ := listed
  constructor
  · rintro ⟨before, item, after, whole, passed, here⟩
    obtain ⟨first, rest, rfl, rfl, more⟩ := List.map_eq_append_iff.mp whole
    obtain ⟨⟨address, _⟩, last, rfl, rfl, rfl⟩ := List.map_eq_cons_iff.mp more
    refine ⟨address, _, (iff _ _).mp (by simp), here, fun earlier other smaller there => ?_⟩
    obtain ⟨-, others, -⟩ := List.pairwise_append.mp sorted
    have inside := (iff earlier other).mpr there
    obtain inside | same | later := (List.mem_append.mp inside).imp_right List.mem_cons.mp
    · exact passed _ (List.mem_map_of_mem (f := Prod.snd) inside)
    · obtain ⟨rfl, -⟩ := Prod.mk.inj same
      exact absurd smaller (List.lt_irrefl _)
    · exact absurd ((List.pairwise_cons.mp others).1 _ later) (List.lt_asymm smaller)
  · rintro ⟨address, item, there, here, passed⟩
    obtain ⟨first, last, rfl⟩ := List.append_of_mem ((iff address item).mpr there)
    refine ⟨first.map Prod.snd, item, last.map Prod.snd, by simp, fun earlier among => ?_, here⟩
    obtain ⟨⟨before, _⟩, inside, rfl⟩ := List.mem_map.mp among
    obtain ⟨-, -, smaller⟩ := List.pairwise_append.mp sorted
    exact passed before _ (smaller (before, _) inside _ List.mem_cons_self)
      ((iff _ _).mp (List.mem_append_left _ inside))

end Lists

/-! ### References in a value -/

namespace Json

/-- A value is a reference to an entity of a type. Both texts must be there; if there is a member
`__entity`, they are looked for in it and nowhere else. -/
inductive Refers : Json → String → Prop
  | bare {value : Json} {type id : String} (plain : value.member? "__entity" = none)
    (typeText : value.member? "type" = some (.text type))
    (idText : value.member? "id" = some (.text id)) : Refers value type
  | escaped {value inner : Json} {type id : String}
    (escape : value.member? "__entity" = some inner)
    (typeText : inner.member? "type" = some (.text type))
    (idText : inner.member? "id" = some (.text id)) : Refers value type

/-- The values that a value is made of, in their order. -/
def children : Json → List Json
  | list items => items
  | object members => members.map Prod.snd
  | _ => []

/-- The value at a place inside a value; each number says which of the children to go on with. -/
def at? (value : Json) : List Nat → Option Json
  | [] => some value
  | index :: path => (value.children[index]?).bind (at? · path)

/-- A type stands at a place if the value there refers to it. -/
def RefersAt (value : Json) (path : List Nat) (type : String) : Prop :=
  ∃ inner, value.at? path = some inner ∧ inner.Refers type

theorem referenceType?_eq_some_iff {value : Json} {type : String} :
    value.referenceType? = some type ↔ value.Refers type := by
  rw [referenceType?]
  constructor
  · intro looked
    split at looked
    next id type idText typeText =>
      obtain rfl := Option.some.inj looked
      cases escape : value.member? "__entity" with
      | none =>
        rw [escape] at idText typeText
        exact .bare escape typeText idText
      | some inner =>
        rw [escape] at idText typeText
        exact .escaped escape typeText idText
    · cases looked
  · rintro (⟨plain, typeText, idText⟩ | ⟨escape, typeText, idText⟩)
    · rw [plain, Option.getD_none, typeText, idText]
    · rw [escape, Option.getD_some, typeText, idText]

theorem sizeOf_of_mem_children {value child : Json} (inside : child ∈ value.children) :
    sizeOf child < sizeOf value := by
  cases value with
  | list items =>
    have smaller : sizeOf child < sizeOf items := List.sizeOf_lt_of_mem inside
    rw [list.sizeOf_spec]
    omega
  | object members =>
    obtain ⟨⟨key, value⟩, there, rfl⟩ := List.mem_map.mp inside
    have smaller := List.sizeOf_lt_of_mem there
    rw [Prod.mk.sizeOf_spec] at smaller
    show sizeOf value < _
    rw [object.sizeOf_spec]
    omega
  | _ => cases inside

theorem referenceTypesOfItems_eq (items : List Json) :
    referenceTypesOfItems items = items.flatMap referenceTypes := by
  induction items with
  | nil => rfl
  | cons item rest ih => rw [referenceTypesOfItems, ih, List.flatMap_cons]

theorem referenceTypesOfMembers_eq (members : List (String × Json)) :
    referenceTypesOfMembers members = (members.map Prod.snd).flatMap referenceTypes := by
  induction members with
  | nil => rfl
  | cons member rest ih => rw [referenceTypesOfMembers, ih, List.map_cons, List.flatMap_cons]

/-- The type of a reference stands in front of those inside it. -/
theorem referenceTypes_eq (value : Json) :
    value.referenceTypes = value.referenceType?.toList ++ value.children.flatMap referenceTypes := by
  cases value with
  | list items => exact referenceTypesOfItems_eq items
  | object members => exact congrArg _ (referenceTypesOfMembers_eq members)
  | _ => rfl

theorem lists_referenceType? (value : Json) :
    Lists (fun path type => path = [] ∧ value.Refers type) value.referenceType?.toList := by
  cases looked : value.referenceType? with
  | none =>
    refine .nothing fun _ type stands => ?_
    cases looked.symm.trans (referenceType?_eq_some_iff.mpr stands.2)
  | some type =>
    refine (Lists.one type).congr fun path other => and_congr_right fun _ => ?_
    rw [← referenceType?_eq_some_iff, looked, Option.some.injEq, eq_comm]

theorem refersAt_iff {value : Json} {path : List Nat} {type : String} :
    value.RefersAt path type ↔ path = [] ∧ value.Refers type ∨
      ∃ index child rest, value.children[index]? = some child ∧ path = index :: rest ∧
        child.RefersAt rest type := by
  cases path with
  | nil => simp [RefersAt, at?]
  | cons index path =>
    simp only [RefersAt, at?, Option.bind_eq_some_iff, List.cons.injEq, reduceCtorEq, false_and,
      false_or]
    constructor
    · rintro ⟨inner, ⟨child, there, found⟩, refers⟩
      exact ⟨index, child, path, there, ⟨rfl, rfl⟩, inner, found, refers⟩
    · rintro ⟨_, child, _, there, ⟨rfl, rfl⟩, inner, found, refers⟩
      exact ⟨inner, ⟨child, there, found⟩, refers⟩

/-- The types of the references in a value are listed as they stand in it. -/
theorem lists_referenceTypes (value : Json) : Lists value.RefersAt value.referenceTypes := by
  have each : ∀ child ∈ value.children, Lists child.RefersAt child.referenceTypes :=
    fun child inside =>
      have := sizeOf_of_mem_children inside
      lists_referenceTypes child
  rw [referenceTypes_eq]
  refine ((lists_referenceType? value).append (Lists.flatMap each) ?_).congr fun path type => ?_
  · rintro _ _ _ _ ⟨rfl, _⟩ ⟨_, _, _, _, rfl, _⟩
    exact List.nil_lt_cons _ _
  · rw [refersAt_iff]
termination_by sizeOf value

end Json

namespace Guard

open Json (Refers RefersAt)

/-! ### The order in which a query is looked at -/

/-- The members of a part of the description of an entity. -/
def partMembers (item : Json) (part : String) : Properties :=
  ((item.member? part).map Json.members).getD []

/-- A claim of its own. -/
def NameAt (own : Claim) (address : List Nat) (claim : Claim) : Prop := address = [] ∧ claim = own

/-- The keys of members, in the order of the members. -/
def KeysAt (what : String) (members : Properties) (address : List Nat) (claim : Claim) : Prop :=
  ∃ index member, members[index]? = some member ∧ address = [index] ∧ claim = ⟨what, member.1⟩

/-- The references in the values of members, in the order of the members and then of their places. -/
def ReferencesAt (what : String) (members : Properties) (address : List Nat) (claim : Claim) :
    Prop :=
  ∃ index member path type, members[index]? = some member ∧ address = index :: path ∧
    member.2.RefersAt path type ∧ claim = ⟨what, type⟩

/-- The type in the name of an entity. -/
def UidAt (item : Json) (address : List Nat) (claim : Claim) : Prop :=
  address = [] ∧ ∃ uid type, item.member? "uid" = some uid ∧ uid.Refers type ∧
    claim = ⟨"entity type", type⟩

/-- The types of the parents of an entity, in their order. -/
def ParentsAt (item : Json) (address : List Nat) (claim : Claim) : Prop :=
  ∃ parents index parent type, item.member? "parents" = some (.list parents) ∧
    parents[index]? = some parent ∧ address = [index] ∧ parent.Refers type ∧
      claim = ⟨"entity parent type", type⟩

/-- The description of an entity: its name, its parents, its attributes and its tags. -/
def EntityAt (item : Json) : List Nat → Claim → Prop :=
  Lists.Staged [
    UidAt item,
    ParentsAt item,
    KeysAt "entity attribute" (partMembers item "attrs"),
    ReferencesAt "entity reference" (partMembers item "attrs"),
    KeysAt "entity attribute" (partMembers item "tags"),
    ReferencesAt "entity reference" (partMembers item "tags")]

/-- The descriptions of entities, one after the other. -/
def ItemsAt (items : List Json) (address : List Nat) (claim : Claim) : Prop :=
  ∃ index item rest, items[index]? = some item ∧ address = index :: rest ∧ EntityAt item rest claim

/-- Where the identifiers of a query stand, in the order of the addresses: the subject, the resource
and the action, each with its properties, then the context and the entities. -/
def Stands (query : AccessQuery) : List Nat → Claim → Prop :=
  Lists.Staged [
    NameAt ⟨"subject type", query.subject.kind⟩,
    KeysAt "subject property" query.subject.properties,
    ReferencesAt "subject property" query.subject.properties,
    NameAt ⟨"resource type", query.resource.kind⟩,
    KeysAt "resource property" query.resource.properties,
    ReferencesAt "resource property" query.resource.properties,
    NameAt ⟨"action", query.action.name⟩,
    KeysAt "action property" query.action.properties,
    ReferencesAt "action property" query.action.properties,
    KeysAt "context key" query.context,
    ReferencesAt "context value" query.context,
    ItemsAt query.items]

theorem lists_name (own : Claim) : Lists (NameAt own) [own] := .one own

theorem lists_keyClaims (what : String) (members : Properties) :
    Lists (KeysAt what members) (keyClaims what members) := by
  have each : ∀ member ∈ members, Lists (NameAt ⟨what, member.1⟩) [⟨what, member.1⟩] :=
    fun member _ => lists_name _
  rw [keyClaims, List.map_eq_flatMap]
  refine (Lists.flatMap each).congr fun address claim => ?_
  constructor
  · rintro ⟨index, member, _, found, rfl, rfl, rfl⟩
    exact ⟨index, member, found, rfl, rfl⟩
  · rintro ⟨index, member, found, rfl, rfl⟩
    exact ⟨index, member, [], found, rfl, rfl, rfl⟩

theorem lists_referenceClaims (what : String) (members : Properties) :
    Lists (ReferencesAt what members) (referenceClaims what members) := by
  have each : ∀ member ∈ members, Lists member.2.RefersAt member.2.referenceTypes :=
    fun member _ => Json.lists_referenceTypes member.2
  rw [referenceClaims, Json.referenceTypesOfMembers_eq, List.flatMap_map]
  refine ((Lists.flatMap each).map (Claim.mk what)).congr fun address claim => ?_
  constructor
  · rintro ⟨type, ⟨index, member, path, found, rfl, refers⟩, rfl⟩
    exact ⟨index, member, path, type, found, rfl, refers, rfl⟩
  · rintro ⟨index, member, path, type, found, rfl, refers, rfl⟩
    exact ⟨type, ⟨index, member, path, found, rfl, refers⟩, rfl⟩

theorem lists_uid (item : Json) : Lists (UidAt item)
    ((((item.member? "uid").bind Json.referenceType?).toList).map (Claim.mk "entity type")) := by
  cases given : item.member? "uid" with
  | none => exact .nothing fun _ _ ⟨_, _, _, found, _⟩ => nomatch given.symm.trans found
  | some uid =>
    refine ((Json.lists_referenceType? uid).map _).congr fun address claim => ?_
    constructor
    · rintro ⟨type, ⟨rfl, refers⟩, rfl⟩
      exact ⟨rfl, uid, type, given, refers, rfl⟩
    · rintro ⟨rfl, _, type, found, refers, rfl⟩
      obtain rfl := Option.some.inj (given.symm.trans found)
      exact ⟨type, ⟨rfl, refers⟩, rfl⟩

theorem lists_parents (item : Json) : Lists (ParentsAt item)
    (((((item.member? "parents").bind Json.asList?).getD []).filterMap Json.referenceType?).map
      (Claim.mk "entity parent type")) := by
  cases given : item.member? "parents" with
  | none => exact .nothing fun _ _ ⟨_, _, _, _, found, _⟩ => nomatch given.symm.trans found
  | some value =>
    cases value with
    | list parents =>
      have each : ∀ parent ∈ parents, Lists (fun path type => path = [] ∧ parent.Refers type)
          parent.referenceType?.toList := fun parent _ => parent.lists_referenceType?
      have listed := (Lists.flatMap each).map (Claim.mk "entity parent type")
      rw [← List.filterMap_eq_flatMap_toList] at listed
      refine listed.congr fun address claim => ?_
      constructor
      · rintro ⟨type, ⟨index, parent, _, found, rfl, rfl, refers⟩, rfl⟩
        exact ⟨parents, index, parent, type, given, found, rfl, refers, rfl⟩
      · rintro ⟨_, index, parent, type, same, found, rfl, refers, rfl⟩
        obtain rfl := Json.list.inj (Option.some.inj (given.symm.trans same))
        exact ⟨type, ⟨index, parent, [], found, rfl, rfl, refers⟩, rfl⟩
    | _ => exact .nothing fun _ _ ⟨_, _, _, _, found, _⟩ => nomatch given.symm.trans found

theorem lists_entityClaims (item : Json) : Lists (EntityAt item) (entityClaims item) := by
  have whole : entityClaims item = List.flatten [
      (((item.member? "uid").bind Json.referenceType?).toList).map (Claim.mk "entity type"),
      ((((item.member? "parents").bind Json.asList?).getD []).filterMap Json.referenceType?).map
        (Claim.mk "entity parent type"),
      keyClaims "entity attribute" (partMembers item "attrs"),
      referenceClaims "entity reference" (partMembers item "attrs"),
      keyClaims "entity attribute" (partMembers item "tags"),
      referenceClaims "entity reference" (partMembers item "tags")] := by
    simp [entityClaims, partMembers]
  rw [whole]
  exact .flatten (.cons (lists_uid item) (.cons (lists_parents item)
    (.cons (lists_keyClaims _ _) (.cons (lists_referenceClaims _ _)
      (.cons (lists_keyClaims _ _) (.cons (lists_referenceClaims _ _) .nil))))))

/-- The identifiers of a query are listed as they stand in it. -/
theorem lists_claims (query : AccessQuery) : Lists (Stands query) (claims query) := by
  have properties : ∀ (own : Claim) (what : String) (members : Properties)
      {stages : List (List Nat → Claim → Prop)} {parts : List (List Claim)},
      List.Forall₂ Lists stages parts → List.Forall₂ Lists
        (NameAt own :: KeysAt what members :: ReferencesAt what members :: stages)
        ([own] :: keyClaims what members :: referenceClaims what members :: parts) :=
    fun own what members _ _ rest => .cons (lists_name own)
      (.cons (lists_keyClaims _ _) (.cons (lists_referenceClaims _ _) rest))
  have items : Lists (ItemsAt query.items) (query.items.flatMap entityClaims) :=
    .flatMap fun item _ => lists_entityClaims item
  have listed := Lists.flatten (properties ⟨"subject type", query.subject.kind⟩ "subject property"
    query.subject.properties (properties ⟨"resource type", query.resource.kind⟩ "resource property"
      query.resource.properties (properties ⟨"action", query.action.name⟩ "action property"
        query.action.properties (.cons (lists_keyClaims "context key" query.context)
          (.cons (lists_referenceClaims "context value" query.context) (.cons items .nil))))))
  refine (congrArg (Lists _) ?_).mp listed
  simp [claims, propertyClaims]

/-- **What the guard refuses.** A query passes if and only if no identifier at any of the positions
is reserved. Otherwise the reserved identifier that stands in front of all other reserved ones is
reported, with what it is used for. -/
theorem verify_refuses_first (query : AccessQuery) :
    (verify query = .ok () ↔
      ∀ address claim, Stands query address claim → isReserved claim.identifier = false) ∧
    ∀ error, verify query = .error error ↔ ∃ address claim, Stands query address claim ∧
      (isReserved claim.identifier = true ∧ error = .reserved claim.what claim.identifier) ∧
      ∀ earlier other, earlier < address → Stands query earlier other →
        isReserved other.identifier = false := by
  have listed := lists_claims query
  constructor
  · rw [verify, Steps.forM_eq_ok, ← listed.forall_mem_iff]
    exact forall₂_congr fun claim _ => refuseReserved_eq_ok
  · intro error
    have failed : ∀ claim : Claim, claim.check = .error error ↔
        isReserved claim.identifier = true ∧ error = .reserved claim.what claim.identifier := by
      intro claim
      rw [Claim.check, refuseReserved]
      split
      next reserved => simp [reserved, eq_comm]
      next free => simp [free]
    have passed : ∀ claim : Claim, claim.check = .ok () ↔ isReserved claim.identifier = false :=
      fun claim => refuseReserved_eq_ok
    rw [verify, Steps.forM_eq_error]
    simp only [failed, passed]
    exact listed.first_iff

end Guard

end PolicyLedger
