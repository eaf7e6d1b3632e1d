/-
**The slots of a policy file.**

A statement has an outcome of its own, whatever the others are: it has an object if it names a
policy (`readStatement_eq_ok_iff`) and none of the statements before it names one with the same id
(`IsFirst`). The names that the loop carries along are those of the statements before it
(`exists_met`), so each slot holds what this says (`slots_policyFile`), under one id in all places
that record it (`Records`).
-/

import PolicyLedger.Proofs.Authoring.FileStore
import PolicyLedger.Proofs.Name.CodeId

namespace PolicyLedger.Authoring

/-! ### The policy that a statement names -/

/-- A statement is a policy that goes by an id: its own if it has one, which must name a policy, or
the one that was generated for it. -/
inductive Names (statement : List Char) (generated : String) : NamedPolicy → Prop
  | own {policy : Policy} {id : String} (parsed : Policy.parse? statement = some policy)
    (annotated : policy.annotation? idAnnotation = some id)
    (checked : PolicyName.check id = .ok ()) : Names statement generated ⟨policy, id⟩
  | given {policy : Policy} (parsed : Policy.parse? statement = some policy)
    (missing : policy.annotation? idAnnotation = none) :
    Names statement generated ⟨policy, generated⟩

theorem readStatement_eq_ok_iff {statement : List Char} {generated : String}
    {named : NamedPolicy} :
    readStatement statement generated = .ok named ↔ Names statement generated named := by
  constructor
  · intro read
    rw [readStatement] at read
    split at read
    · cases read
    next policy parsed =>
      split at read
      next id annotated =>
        obtain ⟨_, checked, made⟩ := Steps.bind_eq_ok.mp read
        obtain rfl := Except.ok.inj made
        exact .own parsed annotated checked
      next missing =>
        obtain rfl := Except.ok.inj read
        exact .given parsed missing
  · rintro (⟨parsed, annotated, checked⟩ | ⟨parsed, missing⟩)
    · simp only [readStatement, parsed, annotated, checked]
      rfl
    · simp only [readStatement, parsed, missing]

/-- A statement before an index names a policy with an id. -/
def NamedBefore (statements : List (List Char)) (generated : Nat → String) (index : Nat)
    (id : String) : Prop :=
  ∃ earlier < index, ∃ statement named, statements[earlier]? = some statement ∧
    Names statement (generated earlier) named ∧ named.codeId = id

theorem namedBefore_cons {head : List Char} {rest : List (List Char)} {generated : Nat → String}
    {index : Nat} {id : String} :
    NamedBefore (head :: rest) generated (index + 1) id ↔
      (∃ named, Names head (generated 0) named ∧ named.codeId = id) ∨
        NamedBefore rest (fun earlier => generated (earlier + 1)) index id := by
  constructor
  · rintro ⟨_ | earlier, less, other, named, found, names, same⟩
    · obtain rfl := Option.some.inj found
      exact .inl ⟨named, names, same⟩
    · exact .inr ⟨earlier, Nat.lt_of_succ_lt_succ less, other, named, found, names, same⟩
  · rintro (⟨named, names, same⟩ | ⟨earlier, less, other, named, found, names, same⟩)
    · exact ⟨0, Nat.succ_pos _, head, named, rfl, names, same⟩
    · exact ⟨earlier + 1, Nat.succ_lt_succ less, other, named, found, names, same⟩

/-- The statement at an index names a policy, and it is the first one with the policy's id. -/
structure IsFirst (statements : List (List Char)) (generated : Nat → String) (index : Nat)
    (named : NamedPolicy) : Prop where
  names : ∃ statement, statements[index]? = some statement ∧
    Names statement (generated index) named
  first : ¬ NamedBefore statements generated index named.codeId

theorem isFirst_iff {statements : List (List Char)} {generated : Nat → String} {index : Nat}
    {statement : List Char} {named : NamedPolicy} (there : statements[index]? = some statement) :
    IsFirst statements generated index named ↔ Names statement (generated index) named ∧
      ¬ NamedBefore statements generated index named.codeId := by
  constructor
  · rintro ⟨⟨other, found, names⟩, first⟩
    obtain rfl := Option.some.inj (found.symm.trans there)
    exact ⟨names, first⟩
  · rintro ⟨names, first⟩
    exact ⟨⟨statement, there, names⟩, first⟩

/-- At an index there is one policy at most that is the first with its id. -/
theorem IsFirst.unique {statements : List (List Char)} {generated : Nat → String} {index : Nat}
    {named other : NamedPolicy} (first : IsFirst statements generated index named)
    (again : IsFirst statements generated index other) : named = other := by
  obtain ⟨⟨statement, there, names⟩, _⟩ := first
  rw [isFirst_iff there] at again
  exact Except.ok.inj ((readStatement_eq_ok_iff.mpr names).symm.trans
    (readStatement_eq_ok_iff.mpr again.1))

/-! ### Names that were met -/

variable {spec : Specification} {partition : String} {generated : Nat → String}

/-- The names met after a statement are those met before it and the one that it names. -/
theorem mem_met {met : List String} {statement : List Char} {given id : String} :
    id ∈ (section? spec partition met statement given).1 ↔
      id ∈ met ∨ ∃ named, Names statement given named ∧ named.codeId = id := by
  simp only [← readStatement_eq_ok_iff]
  rw [section?]
  split
  next error read => simp [read]
  next named read =>
    simp only [read, Except.ok.injEq, exists_eq_left']
    by_cases known : named.codeId ∈ met
    · rw [if_pos (by simpa using known)]
      exact ⟨.inl, fun either => either.elim (·) (· ▸ known)⟩
    · rw [if_neg (by simpa using known), List.mem_cons]
      exact ⟨fun either => either.symm.imp_right Eq.symm,
        fun either => (either.imp_right Eq.symm).symm⟩

/-- The outcome in a slot is that of its statement after the names of those before it were met. -/
theorem exists_met {statements : List (List Char)} {start index : Nat} {met : List String}
    {statement : List Char} (there : statements[index]? = some statement) :
    ∃ before, (outcomes spec partition generated start met statements)[index]? =
        some (section? spec partition before statement (generated (start + index))).2 ∧
      ∀ id, id ∈ before ↔
        id ∈ met ∨ NamedBefore statements (fun earlier => generated (start + earlier)) index id := by
  induction statements generalizing start index met with
  | nil => cases there
  | cons head rest ih =>
    cases index with
    | zero =>
      obtain rfl := Option.some.inj there
      refine ⟨met, rfl, fun id => ⟨.inl, ?_⟩⟩
      rintro (known | ⟨_, impossible, _⟩)
      · exact known
      · exact absurd impossible (Nat.not_lt_zero _)
    | succ index =>
      obtain ⟨before, outcome, known⟩ := @ih (start + 1) index
        (section? spec partition met head (generated start)).1 there
      simp only [Nat.add_assoc, Nat.add_comm 1] at outcome known
      refine ⟨before, outcome, fun id => ?_⟩
      rw [known, mem_met, or_assoc, namedBefore_cons]
      rfl

/-! ### Code ids -/

/-- Every policy has an id that would be accepted as a name. -/
theorem Names.checked {statement : List Char} {given : String} {named : NamedPolicy}
    (names : Names statement given named) (generated : IsGeneratedId given) :
    PolicyName.check named.codeId = .ok () := by
  cases names with
  | own _ _ checked => exact checked
  | given _ _ => exact check_of_generated generated

/-- Every policy has an id that its header can carry. -/
theorem Names.isCodeId {statement : List Char} {given : String} {named : NamedPolicy}
    (names : Names statement given named) (generated : IsGeneratedId given) :
    IsCodeId named.codeId := isCodeId_of_check (names.checked generated)

theorem validate_header {id : String} (codeType : CodeType) (codeId : IsCodeId id) :
    (spec.header id codeType).validate = .ok () := by
  have types : (spec.header id codeType).HasTypes :=
    ⟨codeType, CodeType.ofNumber?_number codeType, by cases codeType <;> rfl⟩
  exact Header.validate_eq_ok_iff.mpr ⟨types, codeId.field.visible, codeId.fits⟩

/-! ### Outcomes -/

/-- A blob is short enough for a frame. -/
def Fits (blob : Blob) : Prop := blob.header.encode.length + blob.data.length < 4294967296

instance (blob : Blob) : Decidable (Fits blob) := inferInstanceAs (Decidable (_ < _))

/-- The stored form of a statement under an id. -/
def storedForm? (statement : List Char) (id : String) : Option Bytes :=
  (Policy.parse? statement).map fun policy => storedBytes ⟨policy, id⟩

/-- An object is numbered with an index and holds the blob of a policy, whose id is recorded in all
places that have one: in the object's listing, in its header and among the stored annotations. What
is stored is the statement's form under this id. -/
structure Records (spec : Specification) (index : Nat) (statement : List Char)
    (named : NamedPolicy) (made : SectionObject) : Prop where
  index : made.index = index
  name : made.info.name = named.codeId
  codeId : made.info.codeId = named.codeId
  content : Content.ofObject made.object = .ok (.blob (named.blob spec))
  header : (named.blob spec).header.codeId = named.codeId
  form : storedForm? statement named.codeId = some (named.blob spec).data
  annotation : ∃ value, (named.blob spec).data = Bytes.ofText (Json.compact value) ∧
    (value.member? "annotations").bind (Json.member? · idAnnotation) = some (.text named.codeId)

/-- The members that are stored have the id among the annotations. -/
theorem annotatedId_storedMembers (named : NamedPolicy) :
    ((Json.object (storedMembers named)).member? "annotations").bind
      (Json.member? · idAnnotation) = some (.text named.codeId) := by
  rw [Json.member?, Json.members, storedMembers, Json.lookup_setMember, Option.bind_some,
    Json.member?, Json.members, Json.lookup_setMember]

theorem Names.parsed {statement : List Char} {given : String} {named : NamedPolicy}
    (names : Names statement given named) : Policy.parse? statement = some named.policy := by
  cases names <;> assumption

/-- The object for a policy can be made, and it records the policy's id. -/
theorem exists_makeObject (partition : String) (index : Nat) {statement : List Char}
    {given : String} {named : NamedPolicy} (names : Names statement given named)
    (codeId : IsCodeId named.codeId) (fits : Fits (named.blob spec)) :
    ∃ object info,
      makeObject spec partition named.codeId .policy (storedBytes named) = .ok (object, info) ∧
      Records spec index statement named ⟨index, object, info⟩ := by
  have header := named.header_blob spec
  have data := named.data_blob spec
  have filled : (named.blob spec).data ≠ [] := data ▸ storedBytes_ne_nil named
  have valid : (named.blob spec).header.validate = .ok () :=
    header ▸ validate_header .policy codeId
  obtain ⟨object, stored⟩ := Blob.exists_toObject filled valid fits
  refine ⟨object, spec.sectionMeta partition named.codeId .policy, ?_, ?_⟩
  · rw [NamedPolicy.blob] at stored
    rw [makeObject, stored]
    rfl
  · exact {
      index := rfl
      name := rfl
      codeId := rfl
      content := Blob.content_of_toObject stored
      header := by rw [header, Specification.header]
      form := by rw [storedForm?, names.parsed, data, Option.map_some]
      annotation := ⟨_, data, annotatedId_storedMembers named⟩ }

/-- A statement has an object if it names a policy with a new id, and an error otherwise. -/
theorem section?_of_names (partition : String) (index : Nat) {met : List String}
    {statement : List Char} {given : String}
    (codeIds : ∀ named, Names statement given named → IsCodeId named.codeId)
    (fits : ∀ named, Names statement given named → named.codeId ∉ met → Fits (named.blob spec)) :
    (∃ named object info, (Names statement given named ∧ named.codeId ∉ met) ∧
      (section? spec partition met statement given).2 = .ok (object, info) ∧
      Records spec index statement named ⟨index, object, info⟩) ∨
    (¬ ∃ named, Names statement given named ∧ named.codeId ∉ met) ∧
      ∃ error, (section? spec partition met statement given).2 = .error error := by
  rw [section?]
  split
  next error read =>
    refine .inr ⟨?_, error, rfl⟩
    rintro ⟨named, names, _⟩
    rw [readStatement_eq_ok_iff.mpr names] at read
    cases read
  next named read =>
    have names := readStatement_eq_ok_iff.mp read
    by_cases known : named.codeId ∈ met
    · rw [if_pos (by simpa using known)]
      refine .inr ⟨?_, _, rfl⟩
      rintro ⟨other, again, fresh⟩
      rw [readStatement_eq_ok_iff.mpr again] at read
      exact fresh (Except.ok.inj read ▸ known)
    · rw [if_neg (by simpa using known)]
      obtain ⟨object, info, made, records⟩ :=
        exists_makeObject partition index names (codeIds named names) (fits named names known)
      exact .inl ⟨named, object, info, ⟨names, known⟩, made, records⟩

/-! ### Slots -/

theorem getElem?_slots_fill (path : String)
    (outcomes : List (Except Error (Object × SectionMeta))) (index : Nat) :
    (fill path outcomes).slots[index]? = outcomes[index]?.map fun outcome =>
      some (outcome.map fun (object, info) => ⟨index, object, info⟩) := by
  rw [fill, List.getElem?_map, List.getElem?_zipIdx, Option.map_map, Nat.zero_add]
  rfl

/-- An object of a file is in the slot that it is numbered with. -/
theorem slot_of_mem_objects {path : String}
    {outcomes : List (Except Error (Object × SectionMeta))} {made : SectionObject}
    (inside : made ∈ (fill path outcomes).objects) :
    (fill path outcomes).slots[made.index]? = some (some (.ok made)) := by
  rw [objects_fill] at inside
  obtain ⟨⟨outcome, index⟩, numbered, good⟩ := List.mem_filterMap.mp inside
  cases outcome with
  | error error => cases good
  | ok result =>
    obtain rfl := Option.some.inj good
    have there := (List.mk_mem_zipIdx_iff_getElem?).mp numbered
    rw [getElem?_slots_fill, there]
    rfl

/-- A statement of a file has an object if it is the first with its id, and an error otherwise. -/
theorem outcome_of_statement (partition : String) {statements : List (List Char)} {index : Nat}
    {statement : List Char} (there : statements[index]? = some statement)
    (codeIds : ∀ named, Names statement (generated index) named → IsCodeId named.codeId)
    (fits : ∀ named, IsFirst statements generated index named → Fits (named.blob spec)) :
    (∃ named object info, IsFirst statements generated index named ∧
      (outcomes spec partition generated 0 [] statements)[index]? = some (.ok (object, info)) ∧
      Records spec index statement named ⟨index, object, info⟩) ∨
    (¬ ∃ named, IsFirst statements generated index named) ∧
      ∃ error, (outcomes spec partition generated 0 [] statements)[index]? =
        some (.error error) := by
  obtain ⟨before, outcome, known⟩ :=
    @exists_met spec partition generated statements 0 index [] statement there
  simp only [Nat.zero_add, List.not_mem_nil, false_or] at outcome known
  simp only [isFirst_iff there, ← known] at fits ⊢
  rw [outcome]
  have made := section?_of_names partition index codeIds
    fun named names fresh => fits named ⟨names, fresh⟩
  obtain ⟨named, object, info, first, made, records⟩ | ⟨later, error, failed⟩ := made
  · exact .inl ⟨named, object, info, first, congrArg some made, records⟩
  · exact .inr ⟨later, error, congrArg some failed⟩

/-- The id that an object records is the one of the policy that it holds. -/
theorem Records.codeId_eq {statements : List (List Char)} {index : Nat} {statement : List Char}
    {named held : NamedPolicy} {made : SectionObject}
    (records : Records spec index statement named made)
    (holds : Holds spec generated statements made held) : made.info.codeId = held.codeId := by
  have same := Content.blob.inj (Except.ok.inj (records.content.symm.trans holds.content))
  rw [records.codeId, ← records.header, same]
  rfl

/-- An object of a file lists the id of the policy that it holds. -/
theorem codeId_of_mem_objects {path : String} {statements : List (List Char)}
    {made : SectionObject} {named : NamedPolicy} (ids : ∀ index, IsGeneratedId (generated index))
    (fits : ∀ index named, IsFirst statements generated index named → Fits (named.blob spec))
    (inside : made ∈ (fill path (outcomes spec partition generated 0 [] statements)).objects)
    (held : Holds spec generated statements made named) : made.info.codeId = named.codeId := by
  obtain ⟨statement, there, _⟩ := held.read
  have slot := slot_of_mem_objects inside
  rw [getElem?_slots_fill] at slot
  obtain ⟨other, object, info, _, outcome, records⟩ | ⟨_, error, failed⟩ :=
    outcome_of_statement partition there (fun _ names => names.isCodeId (ids made.index))
      (fits made.index)
  · rw [outcome] at slot
    have same : ⟨made.index, object, info⟩ = made :=
      Except.ok.inj (Option.some.inj (Option.some.inj slot))
    exact (same ▸ records).codeId_eq held
  · rw [failed] at slot
    cases slot

theorem map_codeId_of_holds {statements : List (List Char)} {objects : List SectionObject}
    {nameds : List NamedPolicy}
    (holds : List.Forall₂ (Holds spec generated statements) objects nameds)
    (listed : ∀ made ∈ objects, ∀ named, Holds spec generated statements made named →
      made.info.codeId = named.codeId) :
    (objects.map fun made => made.info.codeId) = nameds.map NamedPolicy.codeId := by
  induction holds with
  | nil => rfl
  | cons first _ ih =>
    rw [List.forall_mem_cons] at listed
    rw [List.map_cons, List.map_cons, listed.1 _ first, ih listed.2]

theorem policyFile_eq_ok (generated : Nat → String) (partition : String)
    {path extension source : String} {data : Bytes}
    (policyPath : extension ∈ spec.policyFileExtensions ∧
      FilePath.hasExtension path extension = true)
    (decoded : Bytes.toText? data = some source) :
    policyFile spec generated partition path data =
      .ok (fill path (outcomes spec partition generated 0 [] (Statements.split source.toList))) := by
  have accepted : spec.policyFileExtensions.any (FilePath.hasExtension path) = true :=
    List.any_eq_true.mpr ⟨extension, policyPath⟩
  rw [policyFile, if_pos accepted, decoded]

/-- **The slots of a policy file.** Every statement has a slot, filled with an object just if the
statement is the first that names a policy with the policy's id, and with an error otherwise. An
object records the id in all its places, and no two objects have one id. -/
theorem slots_policyFile {path extension source : String} {data : Bytes}
    (policyPath : extension ∈ spec.policyFileExtensions ∧
      FilePath.hasExtension path extension = true)
    (decoded : Bytes.toText? data = some source)
    (ids : ∀ index, IsGeneratedId (generated index))
    (fits : ∀ index named, IsFirst (Statements.split source.toList) generated index named →
      Fits (named.blob spec)) :
    ∃ sections, policyFile spec generated partition path data = .ok sections ∧
      sections.slots.length = (Statements.split source.toList).length ∧
      (∀ index statement, (Statements.split source.toList)[index]? = some statement →
        ∃ outcome, sections.slots[index]? = some (some outcome) ∧
          ((∃ made, outcome = .ok made) ↔
            ∃ named, IsFirst (Statements.split source.toList) generated index named) ∧
          ∀ made, outcome = .ok made →
            ∃ named, IsFirst (Statements.split source.toList) generated index named ∧
              Records spec index statement named made) ∧
      (sections.objects.map fun made => made.info.codeId).Nodup := by
  have opened := policyFile_eq_ok generated partition policyPath decoded
  have length := length_slots_policyFile decoded opened
  refine ⟨_, opened, length, ?_, ?_⟩
  · intro index statement there
    rw [getElem?_slots_fill]
    obtain ⟨named, object, info, first, made, records⟩ | ⟨later, error, failed⟩ :=
      outcome_of_statement partition there (fun _ names => names.isCodeId (ids index)) (fits index)
    · rw [made]
      refine ⟨_, rfl, ⟨fun _ => ⟨named, first⟩, fun _ => ⟨_, rfl⟩⟩, fun other same => ?_⟩
      obtain rfl := Except.ok.inj same
      exact ⟨named, first, records⟩
    · rw [failed]
      refine ⟨_, rfl, ⟨fun ⟨_, impossible⟩ => ?_, fun first => absurd first later⟩, nofun⟩
      cases impossible
  · obtain ⟨_, nameds, again, holds, distinct⟩ := holds_policyFile opened
    obtain rfl := Option.some.inj (decoded.symm.trans again)
    rw [map_codeId_of_holds holds fun made inside named held =>
      codeId_of_mem_objects ids fits inside held]
    exact distinct

/-- A policy that applies to every request. -/
def openPolicy (effect : Policy.Effect) (annotations : KeyMap (Option String)) : Policy :=
  ⟨effect, .all, .all, .all, [], annotations⟩

/-- Two policies, the first of which has an id of its own. -/
def twoPolicies : String :=
  "@id(\"a\") permit(principal, action, resource);forbid(principal, action, resource);"

theorem split_twoPolicies : Statements.split twoPolicies.toList =
    ["@id(\"a\") permit(principal, action, resource);".toList,
      "forbid(principal, action, resource);".toList] := by
  decide

/-- The first policy goes by its own id, the second one by the id that is given. -/
theorem named_of_twoPolicies {index : Nat} {statement : List Char} {named : NamedPolicy}
    (there : (Statements.split twoPolicies.toList)[index]? = some statement)
    (read : readStatement statement "0123456789abcdef0123456789abcdef" = .ok named) :
    named = ⟨openPolicy .permit (.insert .empty idAnnotation (some "a")), "a"⟩ ∨
      named = ⟨openPolicy .forbid .empty, "0123456789abcdef0123456789abcdef"⟩ := by
  rw [split_twoPolicies] at there
  obtain _ | _ | index := index
  · obtain rfl := Option.some.inj there
    exact .inl (Except.ok.inj read).symm
  · obtain rfl := Option.some.inj there
    exact .inr (Except.ok.inj read).symm
  · cases there

theorem fits_twoPolicies {index : Nat} {named : NamedPolicy}
    (first : IsFirst (Statements.split twoPolicies.toList)
      (fun _ => "0123456789abcdef0123456789abcdef") index named) :
    Fits (named.blob .cedar) := by
  obtain ⟨⟨statement, there, names⟩, _⟩ := first
  obtain rfl | rfl := named_of_twoPolicies there (readStatement_eq_ok_iff.mpr names)
  · decide +kernel
  · decide +kernel

/-- Each of the two policies is the first one with its id. -/
theorem isFirst_twoPolicies :
    IsFirst (Statements.split twoPolicies.toList) (fun _ => "0123456789abcdef0123456789abcdef") 0
      ⟨openPolicy .permit (.insert .empty idAnnotation (some "a")), "a"⟩ ∧
    IsFirst (Statements.split twoPolicies.toList) (fun _ => "0123456789abcdef0123456789abcdef") 1
      ⟨openPolicy .forbid .empty, "0123456789abcdef0123456789abcdef"⟩ := by
  rw [split_twoPolicies]
  refine ⟨⟨⟨_, rfl, readStatement_eq_ok_iff.mp rfl⟩, ?_⟩,
    ⟨⟨_, rfl, readStatement_eq_ok_iff.mp rfl⟩, ?_⟩⟩
  · rintro ⟨_, impossible, _⟩
    exact absurd impossible (Nat.not_lt_zero _)
  · rintro ⟨earlier, less, statement, named, there, names, same⟩
    obtain rfl := Nat.lt_one_iff.mp less
    obtain rfl := Option.some.inj there
    obtain rfl := Except.ok.inj (readStatement_eq_ok_iff.mpr names)
    exact absurd same (by decide)

/-- Both have an object; the second one is given an id. -/
theorem slots_of_twoPolicies :
    ∃ sections, policyFile .cedar (fun _ => "0123456789abcdef0123456789abcdef") "/" "in.cedar"
        (Bytes.ofText twoPolicies) = .ok sections ∧
      sections.slots.length = 2 ∧
      (∃ made, sections.slots[0]? = some (some (.ok made)) ∧ made.info.codeId = "a") ∧
      ∃ made, sections.slots[1]? = some (some (.ok made)) ∧
        made.info.codeId = "0123456789abcdef0123456789abcdef" := by
  obtain ⟨sections, opened, length, slots, -⟩ :=
    @slots_policyFile .cedar "/" (fun _ => "0123456789abcdef0123456789abcdef") "in.cedar" ".cedar"
      twoPolicies (Bytes.ofText twoPolicies) (by decide) (Bytes.toText?_ofText _)
      (fun _ => isGeneratedId_digits) (fun _ _ => fits_twoPolicies)
  have holds : ∀ index named, IsFirst (Statements.split twoPolicies.toList)
      (fun _ => "0123456789abcdef0123456789abcdef") index named →
      ∃ made, sections.slots[index]? = some (some (.ok made)) ∧
        made.info.codeId = named.codeId := by
    intro index named first
    obtain ⟨statement, there, _⟩ := first.names
    obtain ⟨outcome, filled, good, records⟩ := slots index statement there
    obtain ⟨made, rfl⟩ := good.mpr ⟨named, first⟩
    obtain ⟨other, again, recorded⟩ := records made rfl
    exact ⟨made, filled, recorded.codeId.trans (congrArg _ (again.unique first))⟩
  rw [split_twoPolicies] at length
  exact ⟨sections, opened, length, holds 0 _ isFirst_twoPolicies.1,
    holds 1 _ isFirst_twoPolicies.2⟩

end PolicyLedger.Authoring
