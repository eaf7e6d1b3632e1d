/-
**The names of entities in values.**

A JSON value spells names of entities where the reader of values takes an object for an escaped
name, and nowhere else (`Json.nameTexts`). The value that is read holds the names that are spelled
(`spells_ofJson?`): calls of functions give values without names, and equal values hold the same
names (`names_subset_of_same`).
-/

import PolicyLedger.Proofs.Json.DistinctKeys
import PolicyLedger.Proofs.KeyMap
import PolicyLedger.Policy.EntitiesJson
import PolicyLedger.Proofs.Policy.WrittenNames

namespace PolicyLedger

/-! ### Names as texts -/

namespace Policy

namespace EntityUid

/-- The type and the id of a name as texts. -/
def texts (uid : EntityUid) : String × String := (uid.type.text, uid.id)

theorem texts_of_ofTexts? {texts : String × String} {uid : EntityUid}
    (read : ofTexts? texts = some uid) : uid.texts = texts := by
  obtain ⟨type, named, rfl⟩ := Option.map_eq_some_iff.mp read
  rw [EntityUid.texts, Name.text_of_ofText? named]

/-- Names with the same texts are the same name. -/
theorem ofTexts?_inj {texts : String × String} {uid : EntityUid}
    (read : ofTexts? texts = some uid) :
    ofTexts? uid.texts = some uid := by
  rw [texts_of_ofTexts? read, read]

end EntityUid

/-- Names are those that some texts spell, each text spelling one of them. -/
structure Spells (texts : List (String × String)) (uids : List EntityUid) : Prop where
  named : ∀ text ∈ texts, ∃ uid ∈ uids, EntityUid.ofTexts? text = some uid
  spelled : ∀ uid ∈ uids, ∃ text ∈ texts, EntityUid.ofTexts? text = some uid

namespace Spells

variable {texts others : List (String × String)} {uids rest : List EntityUid}

theorem nil : Spells [] [] := ⟨by simp, by simp⟩

theorem singleton {text : String × String} {uid : EntityUid}
    (read : EntityUid.ofTexts? text = some uid) : Spells [text] [uid] := by
  refine ⟨fun _ inside => ?_, fun _ inside => ?_⟩
  · obtain rfl := List.mem_singleton.mp inside
    exact ⟨uid, List.mem_cons_self, read⟩
  · obtain rfl := List.mem_singleton.mp inside
    exact ⟨text, List.mem_cons_self, read⟩

theorem append (first : Spells texts uids) (second : Spells others rest) :
    Spells (texts ++ others) (uids ++ rest) := by
  constructor
  · intro text inside
    obtain inside | inside := List.mem_append.mp inside
    · obtain ⟨uid, there, read⟩ := first.named text inside
      exact ⟨uid, List.mem_append_left _ there, read⟩
    · obtain ⟨uid, there, read⟩ := second.named text inside
      exact ⟨uid, List.mem_append_right _ there, read⟩
  · intro uid inside
    obtain inside | inside := List.mem_append.mp inside
    · obtain ⟨text, there, read⟩ := first.spelled uid inside
      exact ⟨text, List.mem_append_left _ there, read⟩
    · obtain ⟨text, there, read⟩ := second.spelled uid inside
      exact ⟨text, List.mem_append_right _ there, read⟩

/-- Lists spell what their items spell, if every item has a partner in the other list. -/
theorem flatMap {α β : Type} {f : α → List (String × String)} {g : β → List EntityUid}
    {as : List α} {bs : List β} (left : ∀ a ∈ as, ∃ b ∈ bs, Spells (f a) (g b))
    (right : ∀ b ∈ bs, ∃ a ∈ as, Spells (f a) (g b)) : Spells (as.flatMap f) (bs.flatMap g) := by
  constructor
  · intro text inside
    obtain ⟨a, there, inside⟩ := List.mem_flatMap.mp inside
    obtain ⟨b, partner, spells⟩ := left a there
    obtain ⟨uid, holding, read⟩ := spells.named text inside
    exact ⟨uid, List.mem_flatMap.mpr ⟨b, partner, holding⟩, read⟩
  · intro uid inside
    obtain ⟨b, there, inside⟩ := List.mem_flatMap.mp inside
    obtain ⟨a, partner, spells⟩ := right b there
    obtain ⟨text, holding, read⟩ := spells.spelled uid inside
    exact ⟨text, List.mem_flatMap.mpr ⟨a, partner, holding⟩, read⟩

theorem of_forall₂ {α β : Type} {f : α → List (String × String)} {g : β → List EntityUid}
    {as : List α} {bs : List β} (related : List.Forall₂ (fun a b => Spells (f a) (g b)) as bs) :
    Spells (as.flatMap f) (bs.flatMap g) :=
  flatMap (fun _ inside => Steps.exists_of_mem_left related inside)
    (fun _ inside => Steps.exists_of_mem_right related inside)

/-- A name is spelled by its own texts. -/
theorem mem_iff (spells : Spells texts uids) {uid : EntityUid} :
    uid ∈ uids ↔ uid.texts ∈ texts ∧ EntityUid.ofTexts? uid.texts = some uid := by
  constructor
  · intro inside
    obtain ⟨text, there, read⟩ := spells.spelled uid inside
    rw [EntityUid.texts_of_ofTexts? read]
    exact ⟨there, read⟩
  · rintro ⟨there, read⟩
    obtain ⟨other, inside, same⟩ := spells.named _ there
    obtain rfl := Option.some.inj (read.symm.trans same)
    exact inside

end Spells

/-! ### Values -/

namespace Value

mutual

/-- The names of entities in a value, at any depth. -/
def names : Value → List EntityUid
  | entity uid => [uid]
  | set items => namesOfItems items
  | record fields => namesOfFields fields
  | _ => []

/-- The names of entities in some values. -/
def namesOfItems : List Value → List EntityUid
  | [] => []
  | item :: rest => names item ++ namesOfItems rest

/-- The names of entities in the values of some fields. -/
def namesOfFields : List (String × Value) → List EntityUid
  | [] => []
  | (_, value) :: rest => names value ++ namesOfFields rest

end

theorem namesOfItems_eq (items : List Value) : namesOfItems items = items.flatMap names := by
  induction items with
  | nil => rfl
  | cons item rest ih => rw [namesOfItems, ih, List.flatMap_cons]

theorem namesOfFields_eq (fields : List (String × Value)) :
    namesOfFields fields = fields.flatMap fun field => names field.2 := by
  induction fields with
  | nil => rfl
  | cons field rest ih => rw [namesOfFields, ih, List.flatMap_cons]

mutual

/-- Equal values hold the same names. -/
theorem names_subset_of_same : (a b : Value) → same a b = true → b.names ⊆ a.names
  | entity uid, entity other, equal => by
    rw [same, decide_eq_true_eq] at equal
    rw [equal]
    exact fun _ inside => inside
  | set items, set others, equal => by
    rw [same, Bool.and_eq_true, List.all_eq_true] at equal
    rw [names, names, namesOfItems_eq others]
    intro uid inside
    obtain ⟨other, there, holding⟩ := List.mem_flatMap.mp inside
    exact names_subset_of_holds items other (equal.2 other there) holding
  | record fields, record others, equal => by
    rw [same] at equal
    exact names_subset_of_sameFields fields others equal
  | _, bool _, _ => by simp [names]
  | _, int _, _ => by simp [names]
  | _, text _, _ => by simp [names]
  | _, ext _, _ => by simp [names]
  | bool _, entity _, equal | int _, entity _, equal | text _, entity _, equal
  | set _, entity _, equal | record _, entity _, equal | ext _, entity _, equal
  | bool _, set _, equal | int _, set _, equal | text _, set _, equal
  | entity _, set _, equal | record _, set _, equal | ext _, set _, equal
  | bool _, record _, equal | int _, record _, equal | text _, record _, equal
  | entity _, record _, equal | set _, record _, equal | ext _, record _, equal => by
    simp [same] at equal

theorem names_subset_of_holds : (items : List Value) → (value : Value) →
    holds items value = true → value.names ⊆ namesOfItems items
  | [], _, found => by simp [holds] at found
  | item :: rest, value, found => by
    rw [holds, Bool.or_eq_true] at found
    rw [namesOfItems]
    obtain here | later := found
    · exact fun _ inside =>
        List.mem_append_left _ (names_subset_of_same item value here inside)
    · exact fun _ inside =>
        List.mem_append_right _ (names_subset_of_holds rest value later inside)

theorem names_subset_of_sameFields : (a b : List (String × Value)) →
    sameFields a b = true → namesOfFields b ⊆ namesOfFields a
  | [], [], _ => fun _ inside => inside
  | [], _ :: _, equal => by simp [sameFields] at equal
  | _ :: _, [], equal => by simp [sameFields] at equal
  | (_, v) :: a, (_, w) :: b, equal => by
    rw [sameFields, Bool.and_eq_true, Bool.and_eq_true] at equal
    rw [namesOfFields, namesOfFields]
    intro uid inside
    obtain inside | inside := List.mem_append.mp inside
    · exact List.mem_append_left _ (names_subset_of_same v w equal.1.2 inside)
    · exact List.mem_append_right _ (names_subset_of_sameFields a b equal.2 inside)

end

end Value

/-- Functions give truth values, numbers and values of the extensions. -/
theorem Extension.call?_isSimple {function : Extension} {args : List Value} {value : Value}
    (called : function.call? args = some value) :
    (∃ flag, value = .bool flag) ∨ (∃ number, value = .int number) ∨
      ∃ other, value = .ext other := by
  unfold Extension.call? at called
  split at called
  next => -- a text makes a value
    obtain ⟨_, _, rfl⟩ := Option.map_eq_some_iff.mp called
    exact .inr (.inr ⟨_, rfl⟩)
  next => -- a question about an address
    cases function <;> simp only [askAddress?, Option.some.injEq, reduceCtorEq] at called <;>
      exact .inl ⟨_, called.symm⟩
  next => -- a part of a moment
    cases function <;> simp only [ofMoment?, Option.map_eq_some_iff, reduceCtorEq] at called <;>
      (obtain ⟨_, _, rfl⟩ := called; exact .inr (.inr ⟨_, rfl⟩))
  next => -- a number of units
    obtain ⟨_, _, rfl⟩ := Option.map_eq_some_iff.mp called
    exact .inr (.inl ⟨_, rfl⟩)
  next => -- an address in a range
    split at called
    · exact .inl ⟨_, (Option.some.inj called).symm⟩
    · cases called
  next => -- a comparison of decimals
    cases function <;> simp only [compareDecimals?, Option.some.injEq, reduceCtorEq] at called <;>
      exact .inl ⟨_, called.symm⟩
  next => -- a later moment
    split at called
    · obtain ⟨_, _, rfl⟩ := Option.map_eq_some_iff.mp called
      exact .inr (.inr ⟨_, rfl⟩)
    · cases called
  next => -- the time between two moments
    split at called
    · obtain ⟨_, _, rfl⟩ := Option.map_eq_some_iff.mp called
      exact .inr (.inr ⟨_, rfl⟩)
    · cases called
  next => cases called

/-- Functions give values without names. -/
theorem Extension.names_of_call? {function : Extension} {args : List Value} {value : Value}
    (called : function.call? args = some value) : value.names = [] := by
  obtain ⟨_, rfl⟩ | ⟨_, rfl⟩ | ⟨_, rfl⟩ := call?_isSimple called <;> rfl

end Policy

/-! ### Values that are read -/

namespace Json

mutual

/-- The texts of the names of entities that the reader of values finds in a value. -/
def nameTexts : Json → List (String × String)
  | list items => nameTextsOfItems items
  | object members =>
    match Policy.Expr.escapeOf (object members) with
    | .entity texts => [texts]
    | .plain => nameTextsOfMembers members
    | _ => []
  | _ => []

/-- The texts of names in some values. -/
def nameTextsOfItems : List Json → List (String × String)
  | [] => []
  | item :: rest => nameTexts item ++ nameTextsOfItems rest

/-- The texts of names in the values of some members. -/
def nameTextsOfMembers : List (String × Json) → List (String × String)
  | [] => []
  | (_, value) :: rest => nameTexts value ++ nameTextsOfMembers rest

end

theorem nameTextsOfItems_eq (items : List Json) :
    nameTextsOfItems items = items.flatMap nameTexts := by
  induction items with
  | nil => rfl
  | cons item rest ih => rw [nameTextsOfItems, ih, List.flatMap_cons]

theorem nameTextsOfMembers_eq (members : List (String × Json)) :
    nameTextsOfMembers members = members.flatMap fun member => nameTexts member.2 := by
  induction members with
  | nil => rfl
  | cons member rest ih => rw [nameTextsOfMembers, ih, List.flatMap_cons]

end Json

namespace Policy

/-- Rows that are read key by key keep their keys. -/
theorem keys_of_forall₂ {α β : Type} {R : String × α → String × β → Prop}
    {members : List (String × α)} {fields : List (String × β)}
    (related : List.Forall₂ (fun member field => member.1 = field.1 ∧ R member field)
      members fields) : fields.map Prod.fst = members.map Prod.fst := by
  induction related with
  | nil => rfl
  | cons first _ ih => rw [List.map_cons, List.map_cons, first.1, ih]

/-- Members are read one by one, and placed by their keys. -/
theorem mapM_fields_eq_some {α β : Type} {read? : α → Option β} {members : List (String × α)}
    {fields : List (String × β)} :
    (members.mapM fun member => (read? member.2).map fun value => (member.1, value)) = some fields ↔
      List.Forall₂ (fun member field => member.1 = field.1 ∧ read? member.2 = some field.2)
        members fields := by
  rw [Steps.mapM_eq_some_iff]
  suffices same : ∀ (member : String × α) (field : String × β),
      (read? member.2).map (fun value => (member.1, value)) = some field ↔
        member.1 = field.1 ∧ read? member.2 = some field.2 by
    simp only [same]
  rintro ⟨key, given⟩ ⟨name, value⟩
  simp [and_comm]

namespace Expr

theorem evalItems_eq_some {env : Environment} {items : List Expr} {values : List Value} :
    evalItems env items = some values ↔
      List.Forall₂ (fun item value => eval env item = some value) items values := by
  rw [← Steps.mapM_eq_some_iff]
  suffices same : evalItems env items = items.mapM (eval env) by rw [same]
  induction items with
  | nil => rfl
  | cons item rest ih =>
    rw [evalItems, ih, List.mapM_cons]
    cases eval env item with
    | none => rfl
    | some value => cases rest.mapM (eval env) <;> rfl

theorem evalFields_eq_some {env : Environment} {fields : List (String × Expr)}
    {values : List (String × Value)} :
    evalFields env fields = some values ↔
      List.Forall₂ (fun field value => field.1 = value.1 ∧ eval env field.2 = some value.2)
        fields values := by
  induction fields generalizing values with
  | nil => cases values <;> simp [evalFields]
  | cons field rest ih =>
    obtain ⟨key, expr⟩ := field
    rw [evalFields]
    cases values with
    | nil => cases eval env expr <;> simp
    | cons first values =>
      obtain ⟨name, value⟩ := first
      rw [List.forall₂_cons, ← ih]
      cases eval env expr with
      | none => simp
      | some result => simp [and_assoc, and_comm]

end Expr

open Json (AreDistinct)

/-- A value that is read and evaluated holds the names that are spelled. -/
theorem spells_readValue? (fuel : Nat) {given : Json} {expr : Expr} {value : Value}
    (distinct : given.hasDistinctKeys = true) (read : Expr.readValue? fuel given = some expr)
    (evaluated : expr.eval .blank = some value) : Spells given.nameTexts value.names := by
  induction fuel generalizing given expr value with
  | zero => simp [Expr.readValue?] at read
  | succ fuel ih =>
    cases given with
    | null => simp [Expr.readValue?] at read
    | bool flag =>
      obtain rfl := Option.some.inj read
      obtain rfl := Option.some.inj evaluated
      exact .nil
    | number number =>
      cases number with
      | whole number fits =>
        simp only [Expr.readValue?, Expr.ofNumber?] at read
        split at read
        · obtain rfl := Option.some.inj read
          obtain rfl := Option.some.inj evaluated
          exact .nil
        · cases read
      | double => simp [Expr.readValue?, Expr.ofNumber?] at read
    | text text =>
      obtain rfl := Option.some.inj read
      obtain rfl := Option.some.inj evaluated
      exact .nil
    | list items =>
      obtain ⟨exprs, readItems, rfl⟩ := Option.map_eq_some_iff.mp read
      obtain ⟨values, evaluatedItems, rfl⟩ := Option.map_eq_some_iff.mp evaluated
      rw [Json.nameTexts, Value.names, Json.nameTextsOfItems_eq, Value.namesOfItems_eq]
      refine .of_forall₂ (Steps.forall₂_trans (fun item expr value found result => ?_)
        ((List.forall₂_and_left _ _).mpr
          ⟨Json.hasDistinctKeys_list.mp distinct, Steps.mapM_eq_some_iff.mp readItems⟩)
        (Expr.evalItems_eq_some.mp evaluatedItems))
      exact ih found.1 found.2 result
    | object members =>
      have proper := Json.hasDistinctKeys_object.mp distinct
      rw [Json.nameTexts]
      simp only [Expr.readValue?] at read
      cases escape : Expr.escapeOf (.object members) with
      | refused => simp [escape] at read
      | entity texts =>
        simp only [escape, Option.map_eq_some_iff] at read
        obtain ⟨uid, named, rfl⟩ := read
        obtain rfl := Option.some.inj evaluated
        exact .singleton named
      | call name args =>
        simp only [escape, bind, Option.bind_eq_some_iff, pure, Option.some.injEq] at read
        obtain ⟨function, _, argExprs, _, rfl⟩ := read
        obtain ⟨values, _, called⟩ := Option.bind_eq_some_iff.mp evaluated
        rw [Extension.names_of_call? called]
        exact .nil
      | plain =>
        simp only [escape, bind, Option.bind_eq_some_iff, pure, Option.some.injEq] at read
        obtain ⟨exprs, readMembers, rfl⟩ := read
        obtain ⟨fields, evaluatedFields, rfl⟩ := Option.map_eq_some_iff.mp evaluated
        have readEach := mapM_fields_eq_some.mp readMembers
        have evaluatedEach := Expr.evalFields_eq_some.mp evaluatedFields
        have placed : ∀ row,
            row ∈ exprs.foldl (fun done field => KeyMap.place field.1 field.2 done) [] ↔
              row ∈ exprs := fun row => by
          rw [KeyMap.mem_foldl_place_iff (keys_of_forall₂ readEach ▸ proper.1) (by simp)]
          simp
        show Spells (Json.nameTextsOfMembers members) (Value.namesOfFields fields)
        rw [Json.nameTextsOfMembers_eq, Value.namesOfFields_eq]
        refine .flatMap (fun member there => ?_) (fun field there => ?_)
        · obtain ⟨expr, inside, _, found⟩ := Steps.exists_of_mem_left readEach there
          obtain ⟨field, result, _, evaluated⟩ :=
            Steps.exists_of_mem_left evaluatedEach ((placed expr).mpr inside)
          exact ⟨field, result, ih (proper.2 member there) found evaluated⟩
        · obtain ⟨expr, inside, _, evaluated⟩ := Steps.exists_of_mem_right evaluatedEach there
          obtain ⟨member, source, _, found⟩ :=
            Steps.exists_of_mem_right readEach ((placed expr).mp inside)
          exact ⟨member, source, ih (proper.2 member source) found evaluated⟩

/-- The value that is read holds the names that are spelled. -/
theorem Value.spells_ofJson? {given : Json} {value : Value}
    (distinct : given.hasDistinctKeys = true)
    (read : Value.ofJson? given = some value) : Spells given.nameTexts value.names := by
  obtain ⟨expr, read, evaluated⟩ := Option.bind_eq_some_iff.mp read
  exact spells_readValue? _ distinct read evaluated

/-- The fields that are read hold the names that are spelled in the members. -/
theorem spells_fieldsOf? {given : Json} {fields : List (String × Value)}
    (distinct : given.hasDistinctKeys = true) (read : fieldsOf? given = some fields) :
    Spells (Json.nameTextsOfMembers given.members) (Value.namesOfFields fields) := by
  cases given with
  | object members =>
    have proper := Json.hasDistinctKeys_object.mp distinct
    simp only [fieldsOf?, bind, Option.bind_eq_some_iff, pure, Option.some.injEq] at read
    obtain ⟨values, readMembers, rfl⟩ := read
    have readEach := mapM_fields_eq_some.mp readMembers
    have placed : ∀ field,
        field ∈ values.foldl (fun done field => KeyMap.place field.1 field.2 done) [] ↔
          field ∈ [] ∨ field ∈ values := fun field =>
      KeyMap.mem_foldl_place_iff (keys_of_forall₂ readEach ▸ proper.1) (by simp)
    rw [Json.members, Json.nameTextsOfMembers_eq, Value.namesOfFields_eq]
    refine .flatMap (fun member there => ?_) (fun field there => ?_)
    · obtain ⟨field, inside, _, found⟩ := Steps.exists_of_mem_left readEach there
      exact ⟨field, (placed field).mpr (.inr inside),
        Value.spells_ofJson? (proper.2 member there) found⟩
    · obtain inside | inside := (placed field).mp there
      · cases inside
      obtain ⟨member, source, _, found⟩ := Steps.exists_of_mem_right readEach inside
      exact ⟨member, source, Value.spells_ofJson? (proper.2 member source) found⟩
  | _ => simp [fieldsOf?] at read

/-- The context that is read holds the names that are spelled in the members. -/
theorem spells_contextOf? {members : List (String × Json)} {fields : List (String × Value)}
    (distinct : Json.AreDistinct members) (read : contextOf? members = some fields) :
    Spells (Json.nameTextsOfMembers members) (Value.namesOfFields fields) := by
  rw [contextOf?] at read
  split at read
  next values readObject =>
    obtain rfl := Option.some.inj read
    have spells := Value.spells_ofJson? (Json.hasDistinctKeys_object.mpr distinct) readObject
    have plain : Expr.escapeOf (.object members) = .plain := by
      obtain ⟨expr, read, evaluated⟩ := Option.bind_eq_some_iff.mp readObject
      simp only [Expr.ofValue?, Expr.readValue?] at read
      cases escape : Expr.escapeOf (.object members) with
      | refused => simp [escape] at read
      | entity texts =>
        simp only [escape, Option.map_eq_some_iff] at read
        obtain ⟨uid, _, rfl⟩ := read
        cases evaluated
      | call name args =>
        simp only [escape, bind, Option.bind_eq_some_iff, pure, Option.some.injEq] at read
        obtain ⟨function, _, argExprs, _, rfl⟩ := read
        obtain ⟨_, _, called⟩ := Option.bind_eq_some_iff.mp evaluated
        obtain ⟨_, impossible⟩ | ⟨_, impossible⟩ | ⟨_, impossible⟩ :=
          Extension.call?_isSimple called <;> cases impossible
      | plain => rfl
    rw [Json.nameTexts, plain] at spells
    exact spells
  · cases read

end Policy

end PolicyLedger
