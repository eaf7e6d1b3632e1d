/-
**Expressions in their JSON form.**

The JSON form of a proper expression is read back as the expression (`Expr.read?_toJson`), its
objects repeat no key and its numbers are whole (`Expr.isPlain_toJson`). It is as deep as the
expression, two levels for most operators, and nothing bounds it.
-/

import PolicyLedger.Policy.Reader
import PolicyLedger.Policy.Writer
import PolicyLedger.Proofs.Json.RoundTrip
import PolicyLedger.Proofs.KeyMap
import PolicyLedger.Proofs.Policy.Proper

namespace PolicyLedger.Policy

open Json (Record)

/-! ### Structures -/

/-- A structure with known members that are not repeated has just these. -/
theorem structure?_object {names : List String} {members : List (String × Json)}
    (known : ∀ member ∈ members, member.1 ∈ names) (distinct : (members.map Prod.fst).Nodup) :
    structure? names (.object members) = some ⟨members, false⟩ := by
  have all : (members.all fun member => names.contains member.1) = true := by
    simpa using fun key value inside => known (key, value) inside
  rw [structure?, if_pos all, Record.of?_object known distinct]

/-- A field that is there and not null is read. -/
theorem optional_eq_some {α : Type} {record : Record} {name : String} {value : Json}
    {read? : Json → Option α} {result : α} (given : record.fields.lookup name = some value)
    (solid : value ≠ .null) (read : read? value = some result) :
    record.optional name read? = some (some result) := by
  rw [Record.optional, given]
  split
  next missing => cases missing
  next null => exact absurd (Option.some.inj null) solid
  next same => rw [← Option.some.inj same, read, Option.map_some]

/-! ### Names of entities -/

theorem EntityUid.ofTexts?_texts {uid : EntityUid} (proper : uid.IsProper) :
    ofTexts? (uid.type.text, uid.id) = some uid := by
  rw [ofTexts?, Name.ofText?_text proper, Option.map_some]

theorem EntityUid.ofJson?_toJson {uid : EntityUid} (proper : uid.IsProper) :
    ofJson? uid.toJson = some uid := ofTexts?_texts proper

theorem nameOf?_text {name : Name} (proper : name.IsProper) :
    nameOf? (.text name.text) = some name := Name.ofText?_text proper

/-! ### Parts of expressions -/

namespace Expr

theorem ofValue?_toJson {value : Literal} (proper : value.IsProper) :
    ofValue? value.toJson = some (.literal value) := by
  cases value with
  | bool value => rfl
  | text value => rfl
  | int value =>
    show (if value.toInt < 9223372036854775808 then
      some (literal (.int (Int64.ofInt value.toInt))) else none) = _
    have below : value.toInt < 9223372036854775808 := value.toInt_lt
    rw [if_pos below, Int64.ofInt_toInt]
  | entity uid =>
    show (EntityUid.ofTexts? (uid.type.text, uid.id)).map _ = _
    rw [EntityUid.ofTexts?_texts proper, Option.map_some]

theorem ofWord?_word (part : Variable) : Variable.ofWord? part.word = some part := by
  cases part <;> decide

theorem patternElements?_toJson (element : PatternElement) :
    patternElements? element.toJson = some [element] := by
  cases element with
  | wildcard => rfl
  | char c =>
    show some ((String.singleton c).toList.map PatternElement.char) = _
    simp

theorem pattern_toJson (pattern : List PatternElement) :
    Json.asListOf? patternElements? (.list (pattern.map PatternElement.toJson)) =
      some (pattern.map fun element => [element]) := by
  refine Steps.mapM_eq_some_iff.mpr ?_
  rw [List.forall₂_map_left_iff, List.forall₂_map_right_iff]
  exact List.forall₂_same.mpr fun element _ => patternElements?_toJson element

theorem flatten_map_singleton (pattern : List PatternElement) :
    (pattern.map fun element => [element]).flatten = pattern := by
  rw [← List.flatMap_def, List.flatMap_singleton']

theorem asListOf?_texts (names : List String) :
    Json.asListOf? Json.asText? (.list (names.map .text)) = some names := by
  refine Steps.mapM_eq_some_iff.mpr ?_
  rw [List.forall₂_map_left_iff]
  exact List.forall₂_same.mpr fun _ _ => rfl

theorem toJson_ne_null (expr : Expr) : expr.toJson ≠ .null := by
  cases expr <;> nofun

/-- The keys of operators and functions stand for nothing else. -/
def specialKeys : List String :=
  ["Value", "Var", "!", "neg", "isEmpty", ".", "has", "like", "is", "if-then-else", "Set", "Record"]

theorem symbol_not_mem (op : BinaryOp) : op.symbol ∉ specialKeys := by
  cases op <;> decide

theorem name_not_mem (function : Extension) : function.name ∉ specialKeys := by
  cases function <;> decide

theorem ofSymbol?_name (function : Extension) : BinaryOp.ofSymbol? function.name = none := by
  cases function <;> decide

/-! ### One level -/

section

variable {fuel : Nat}

/-- What an object with an operator or a function for its key stands for. -/
theorem read?_of_not_mem {key : String} (other : key ∉ specialKeys) (body : Json) :
    read? (fuel + 1) (tagged key body) =
      match BinaryOp.ofSymbol? key with
      | some op => do
        let record ← structure? ["left", "right"] body
        let left ← record.required "left" (read? fuel)
        let right ← record.required "right" (read? fuel)
        return .binary op left right
      | none => do
        let function ← Extension.ofName? key
        let args ← body.asListOf? (read? fuel)
        return .call function args := by
  simp only [specialKeys, List.mem_cons, List.not_mem_nil, or_false, not_or] at other
  obtain ⟨value, var, not, neg, isEmpty, access, has, like, is, ite, set, record⟩ := other
  show (if key = "Value" then ofValue? body else _) = _
  rw [if_neg value, if_neg var, if_neg not, if_neg neg, if_neg isEmpty,
    if_neg access, if_neg has, if_neg like, if_neg is, if_neg ite, if_neg set]
  exact if_neg record

theorem read?_binary {op : BinaryOp} {left right : Json} {l r : Expr}
    (first : read? fuel left = some l) (second : read? fuel right = some r) :
    read? (fuel + 1) (tagged op.symbol (.object [("left", left), ("right", right)])) =
      some (.binary op l r) := by
  rw [read?_of_not_mem (symbol_not_mem op), BinaryOp.ofSymbol?_symbol]
  dsimp only
  rw [structure?_object (by simp) (by simp)]
  simp [Record.required, List.lookup_cons, first, second]

theorem read?_call {function : Extension} {items : List Json} {args : List Expr}
    (read : items.mapM (read? fuel) = some args) :
    read? (fuel + 1) (tagged function.name (.list items)) = some (.call function args) := by
  rw [read?_of_not_mem (name_not_mem function), ofSymbol?_name]
  dsimp only
  rw [Extension.ofName?_name]
  simp [Json.asListOf?, read]

end

mutual

/-- A proper expression is read back from its JSON form. -/
theorem read?_toJson : (expr : Expr) → expr.IsProper → {fuel : Nat} →
    expr.toJson.depth < fuel → read? fuel expr.toJson = some expr
  | literal value, proper, fuel + 1, _ => by
    rw [toJson, tagged, read?.eq_def]
    simp [ofValue?_toJson proper]
  | var part, _, fuel + 1, _ => by
    rw [toJson, tagged, read?.eq_def]
    simp [Json.asChoice?, ofWord?_word]
  | not arg, proper, fuel + 1, enough => by
    simp only [toJson, tagged, Json.depth, Json.depthMembers] at enough
    have read := @read?_toJson arg proper fuel (by omega)
    rw [toJson, tagged, read?.eq_def]
    simp [structure?_object, Record.required, read]
  | negate arg, proper, fuel + 1, enough => by
    simp only [toJson, tagged, Json.depth, Json.depthMembers] at enough
    have read := @read?_toJson arg proper fuel (by omega)
    rw [toJson, tagged, read?.eq_def]
    simp [structure?_object, Record.required, read]
  | isEmpty arg, proper, fuel + 1, enough => by
    simp only [toJson, tagged, Json.depth, Json.depthMembers] at enough
    have read := @read?_toJson arg proper fuel (by omega)
    rw [toJson, tagged, read?.eq_def]
    simp [structure?_object, Record.required, read]
  | binary op left right, proper, fuel + 1, enough => by
    simp only [toJson, tagged, Json.depth, Json.depthMembers] at enough
    exact read?_binary (read?_toJson left proper.1 (by omega))
      (read?_toJson right proper.2 (by omega))
  | attr left name, proper, fuel + 1, enough => by
    simp only [toJson, tagged, Json.depth, Json.depthMembers] at enough
    have read := @read?_toJson left proper fuel (by omega)
    rw [toJson, tagged, read?.eq_def]
    simp [structure?_object, Record.required, List.lookup_cons, read, Json.asText?]
  | has left first others, proper, fuel + 1, enough => by
    simp only [toJson, tagged, Json.depth, Json.depthMembers] at enough
    have read := @read?_toJson left proper.1 fuel (by omega)
    rw [toJson, tagged, read?.eq_def]
    cases others with
    | nil => simp [structure?_object, Record.required, List.lookup_cons, read]
    | cons second others =>
      have names := asListOf?_texts (first :: second :: others)
      rw [List.map_cons, List.map_cons] at names
      simp [structure?_object, Record.required, List.lookup_cons, read, names]
  | like left pattern, proper, fuel + 1, enough => by
    simp only [toJson, tagged, Json.depth, Json.depthMembers] at enough
    have read := @read?_toJson left proper fuel (by omega)
    rw [toJson, tagged, read?.eq_def]
    simp [structure?_object, Record.required, List.lookup_cons, read, pattern_toJson,
      flatten_map_singleton]
  | is left type, proper, fuel + 1, enough => by
    simp only [toJson, tagged, Json.depth, Json.depthMembers] at enough
    have read := @read?_toJson left proper.1 fuel (by omega)
    rw [toJson, tagged, read?.eq_def]
    simp [structure?_object, Record.required, Record.optional, List.lookup_cons, read,
      nameOf?_text proper.2]
  | isWithin left type group, proper, fuel + 1, enough => by
    simp only [toJson, tagged, Json.depth, Json.depthMembers] at enough
    have read := @read?_toJson left proper.1 fuel (by omega)
    have within := @read?_toJson group proper.2.2 fuel (by omega)
    rw [toJson, tagged, read?.eq_def]
    have given : ([("left", left.toJson), ("entity_type", Json.text type.text),
        ("in", group.toJson)] : List (String × Json)).lookup "in" = some group.toJson := by
      simp [List.lookup_cons]
    have optional := @optional_eq_some Expr ⟨_, false⟩ _ _ _ _ given (toJson_ne_null group) within
    simp [structure?_object, Record.required, List.lookup_cons, read, nameOf?_text proper.2.1,
      optional]
  | ite condition yes no, proper, fuel + 1, enough => by
    simp only [toJson, tagged, Json.depth, Json.depthMembers] at enough
    have first := @read?_toJson condition proper.1 fuel (by omega)
    have second := @read?_toJson yes proper.2.1 fuel (by omega)
    have third := @read?_toJson no proper.2.2 fuel (by omega)
    rw [toJson, tagged, read?.eq_def]
    simp [structure?_object, Record.required, List.lookup_cons, first, second, third]
  | set items, proper, fuel + 1, enough => by
    simp only [toJson, tagged, Json.depth, Json.depthMembers] at enough
    have read := @mapM_itemsToJson items proper fuel (by omega)
    rw [toJson, tagged, read?.eq_def]
    simp [Json.asListOf?, read]
  | record fields, proper, fuel + 1, enough => by
    simp only [toJson, tagged, Json.depth, Json.depthMembers] at enough
    have read := @mapM_fieldsToJson fields proper.2 fuel (by omega)
    rw [toJson, tagged, read?.eq_def]
    have placed := @KeyMap.foldl_place_eq_append _ fields [] proper.1
    simp [read, placed]
  | call function args, proper, fuel + 1, enough => by
    simp only [toJson, tagged, Json.depth, Json.depthMembers] at enough
    exact read?_call (mapM_itemsToJson args proper.1 (by omega))

theorem mapM_itemsToJson : (items : List Expr) → ItemsAreProper items → {fuel : Nat} →
    Json.depthItems (itemsToJson items) < fuel →
      (itemsToJson items).mapM (read? fuel) = some items
  | [], _, _, _ => rfl
  | item :: rest, proper, fuel, enough => by
    rw [itemsToJson, Json.depthItems] at enough
    rw [itemsToJson, List.mapM_cons, read?_toJson item proper.1 (by omega),
      mapM_itemsToJson rest proper.2 (by omega)]
    rfl

theorem mapM_fieldsToJson : (fields : List (String × Expr)) → FieldsAreProper fields →
    {fuel : Nat} → Json.depthMembers (fieldsToJson fields) < fuel →
      ((fieldsToJson fields).mapM fun member =>
        (read? fuel member.2).map fun value => (member.1, value)) = some fields
  | [], _, _, _ => rfl
  | (key, value) :: rest, proper, fuel, enough => by
    rw [fieldsToJson, Json.depthMembers] at enough
    rw [fieldsToJson, List.mapM_cons, read?_toJson value proper.1 (by omega),
      mapM_fieldsToJson rest proper.2 (by omega)]
    rfl

end

/-! ### Plain values -/

/-- An object with one plain member is plain. -/
theorem isPlain_tagged {key : String} {value : Json} (plain : value.IsPlain) :
    (tagged key value).IsPlain :=
  Json.isPlain_object (by simp) (by simpa using plain)

theorem isPlain_literal (value : Literal) : value.toJson.IsPlain := by
  cases value <;> exact ⟨rfl, rfl⟩

theorem isPlain_pattern (pattern : List PatternElement) :
    (Json.list (pattern.map PatternElement.toJson)).IsPlain := by
  refine Json.isPlain_list fun item inside => ?_
  obtain ⟨element, -, rfl⟩ := List.mem_map.mp inside
  cases element <;> exact ⟨rfl, rfl⟩

theorem isPlain_texts (names : List String) : (Json.list (names.map .text)).IsPlain := by
  refine Json.isPlain_list fun item inside => ?_
  obtain ⟨name, -, rfl⟩ := List.mem_map.mp inside
  exact Json.isPlain_text name

theorem keys_fieldsToJson (fields : List (String × Expr)) :
    (fieldsToJson fields).map Prod.fst = fields.map Prod.fst := by
  induction fields with
  | nil => rfl
  | cons field rest ih => rw [fieldsToJson, List.map_cons, ih, List.map_cons]

mutual

/-- The JSON form of a proper expression is plain. -/
theorem isPlain_toJson : (expr : Expr) → expr.IsProper → expr.toJson.IsPlain
  | literal value, _ => isPlain_tagged (isPlain_literal value)
  | var _, _ => isPlain_tagged (Json.isPlain_text _)
  | not arg, proper | negate arg, proper | isEmpty arg, proper =>
    isPlain_tagged (isPlain_tagged (isPlain_toJson arg proper))
  | binary _ left right, proper =>
    have first := isPlain_toJson left proper.1
    have second := isPlain_toJson right proper.2
    isPlain_tagged (Json.isPlain_object (by simp) (by simp [first, second]))
  | attr left _, proper =>
    have first := isPlain_toJson left proper
    isPlain_tagged (Json.isPlain_object (by simp) (by simp [first]))
  | has left name others, proper => by
    have first := isPlain_toJson left proper.1
    refine isPlain_tagged (Json.isPlain_object (by simp) ?_)
    cases others with
    | nil => simp [first]
    | cons second others => simpa [first] using isPlain_texts (name :: second :: others)
  | like left pattern, proper =>
    have first := isPlain_toJson left proper
    isPlain_tagged (Json.isPlain_object (by simp) (by simp [first, isPlain_pattern]))
  | is left _, proper =>
    have first := isPlain_toJson left proper.1
    isPlain_tagged (Json.isPlain_object (by simp) (by simp [first]))
  | isWithin left _ group, proper =>
    have first := isPlain_toJson left proper.1
    have second := isPlain_toJson group proper.2.2
    isPlain_tagged (Json.isPlain_object (by simp) (by simp [first, second]))
  | ite condition yes no, proper =>
    have first := isPlain_toJson condition proper.1
    have second := isPlain_toJson yes proper.2.1
    have third := isPlain_toJson no proper.2.2
    isPlain_tagged (Json.isPlain_object (by simp) (by simp [first, second, third]))
  | set items, proper =>
    isPlain_tagged (Json.isPlain_list (isPlain_itemsToJson items proper))
  | record fields, proper => by
    refine isPlain_tagged (Json.isPlain_object ?_ (isPlain_fieldsToJson fields proper.2))
    rw [keys_fieldsToJson]
    exact KeyMap.nodup_keys proper.1
  | call _ args, proper =>
    isPlain_tagged (Json.isPlain_list (isPlain_itemsToJson args proper.1))

theorem isPlain_itemsToJson : (items : List Expr) → ItemsAreProper items →
    ∀ item ∈ itemsToJson items, item.IsPlain
  | [], _ => by simp [itemsToJson]
  | item :: rest, proper =>
    List.forall_mem_cons.mpr ⟨isPlain_toJson item proper.1, isPlain_itemsToJson rest proper.2⟩

theorem isPlain_fieldsToJson : (fields : List (String × Expr)) → FieldsAreProper fields →
    ∀ member ∈ fieldsToJson fields, member.2.IsPlain
  | [], _ => by simp [fieldsToJson]
  | (_, value) :: rest, proper =>
    List.forall_mem_cons.mpr ⟨isPlain_toJson value proper.1, isPlain_fieldsToJson rest proper.2⟩

end

end Expr

end PolicyLedger.Policy
