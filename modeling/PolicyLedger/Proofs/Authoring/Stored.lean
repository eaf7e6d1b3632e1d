/-
**What is stored for a policy, and what is read back.**

The stored form of a policy is its JSON form with its name among the annotations, so what is read
back is the policy that carries its name (`NamedPolicy.carried`). It is read back just if the
conditions of the policy are not too deep for the reader of JSON (`readStored?_storedBytes`); the
writer stores deeper ones all the same.
-/

import PolicyLedger.Authoring.Export
import PolicyLedger.Authoring.PolicyFile
import PolicyLedger.Proofs.Object.BlobRoundTrip
import PolicyLedger.Proofs.Policy.JsonRoundTrip
import PolicyLedger.Proofs.Policy.Parser.GivesProper

namespace PolicyLedger

/-- A member that is set to the value that it has stays as it is. -/
theorem Json.setMember_eq_self {key : String} {value : Json} {members : List (String × Json)}
    (there : members.lookup key = some value) : setMember key value members = members := by
  induction members with
  | nil => cases there
  | cons head rest ih =>
    obtain ⟨k, v⟩ := head
    rw [List.lookup_cons] at there
    rw [setMember]
    by_cases same : k = key
    · subst same
      rw [beq_self_eq_true] at there
      rw [if_pos rfl, Option.some.inj there]
    · rw [if_neg same]
      rw [beq_eq_false_iff_ne.mpr (Ne.symm same)] at there
      rw [ih there]

namespace Authoring

namespace NamedPolicy

/-- A policy with its name among its annotations. -/
def carried (named : NamedPolicy) : Policy :=
  { named.policy with
    annotations := named.policy.annotations.insert idAnnotation (some named.codeId) }

/-- The annotation that names a policy. -/
def nameRow (named : NamedPolicy) : String × Option String :=
  Prod.mk idAnnotation (some named.codeId)

/-- The policy is proper, and it has either no name or the one that it is stored with. -/
structure IsProper (named : NamedPolicy) : Prop where
  policy : named.policy.IsProper
  name : named.policy.annotations.get? idAnnotation = none ∨
    named.policy.annotations.get? idAnnotation = some (some named.codeId)

end NamedPolicy

/-- A policy that has its name already carries it as it is. -/
theorem NamedPolicy.carried_eq_self {named : NamedPolicy}
    (name : named.policy.annotations.get? idAnnotation = some (some named.codeId)) :
    named.carried = named.policy := by
  rw [carried, KeyMap.insert_eq_self (Steps.mem_of_lookup name)]

/-- A name that is accepted is not empty. -/
theorem ne_empty_of_check {name : String} (checked : PolicyName.check name = .ok ()) :
    name ≠ "" := by
  rintro rfl
  cases checked

/-- A statement that is read is a proper policy with its name. -/
theorem isProper_of_readStatement {statement : List Char} {generated : String}
    {named : NamedPolicy} (read : readStatement statement generated = .ok named) :
    Policy.parse? statement = some named.policy ∧ named.IsProper := by
  rw [readStatement] at read
  split at read
  · cases read
  next policy parsed =>
    have proper := Policy.Parser.isProper_of_parse? parsed
    split at read
    next name annotated =>
      obtain ⟨_, checked, made⟩ := Steps.bind_eq_ok.mp read
      obtain rfl := Except.ok.inj made
      obtain ⟨text, found, given⟩ := Option.map_eq_some_iff.mp annotated
      refine ⟨parsed, proper, .inr ?_⟩
      cases text with
      | none => exact absurd given.symm (ne_empty_of_check checked)
      | some text => exact found.trans (congrArg (some ∘ some) given)
    next missing =>
      obtain rfl := Except.ok.inj read
      exact ⟨parsed, proper, .inl (Option.map_eq_none_iff.mp missing)⟩

/-! ### Stored members -/

open Policy (annotationMembers)

theorem annotations_of_toMembers (policy : Policy) :
    ((policy.toMembers.lookup "annotations").map Json.members).getD [] =
      annotationMembers policy.annotations.rows := by
  cases rows : policy.annotations.rows with
  | nil => simp [Policy.toMembers, rows, List.lookup_cons, annotationMembers]
  | cons row rest =>
    simp [Policy.toMembers, rows, List.lookup_cons, annotationMembers, Json.members]

theorem setMember_toMembers (policy : Policy) (annotations : Json) :
    Json.setMember "annotations" annotations policy.toMembers =
      policy.ruleMembers ++ [("annotations", annotations)] := by
  cases rows : policy.annotations.rows with
  | nil => simp [Policy.toMembers, Policy.ruleMembers, rows, Json.setMember]
  | cons row rest => simp [Policy.toMembers, Policy.ruleMembers, rows, Json.setMember]

theorem lookup_annotationMembers (key : String) (rows : List (String × Option String)) :
    (annotationMembers rows).lookup key = (rows.lookup key).map Policy.annotationJson := by
  induction rows with
  | nil => rfl
  | cons row rest ih =>
    rw [annotationMembers, List.map_cons, List.lookup_cons, List.lookup_cons]
    split
    · rfl
    · exact ih

/-- The stored members are those of the rules, and the annotations with the name among them. -/
theorem storedMembers_eq (named : NamedPolicy) :
    storedMembers named = named.policy.ruleMembers ++ [("annotations",
      .object (Json.setMember idAnnotation (.text named.codeId)
        (annotationMembers named.policy.annotations.rows)))] := by
  rw [storedMembers]
  simp only [annotations_of_toMembers, setMember_toMembers]

/-- A policy without a name is stored with its name behind all annotations. -/
theorem stored_of_unnamed {named : NamedPolicy}
    (unnamed : named.policy.annotations.get? idAnnotation = none) :
    Json.object (storedMembers named) =
      named.policy.annotated (named.policy.annotations.rows ++ [named.nameRow]) := by
  have fresh := KeyMap.contains_eq_false_iff.mp (congrArg Option.isSome unnamed)
  have keys : idAnnotation ∉ (annotationMembers named.policy.annotations.rows).map Prod.fst := by
    rw [annotationMembers, List.map_map]
    exact fresh
  rw [storedMembers_eq, Json.setMember_of_not_mem keys, Policy.annotated, annotationMembers,
    annotationMembers, List.map_append]
  rfl

/-- A policy with its name is stored as it is. -/
theorem stored_of_named {named : NamedPolicy}
    (given : named.policy.annotations.get? idAnnotation = some (some named.codeId)) :
    Json.object (storedMembers named) =
      named.policy.annotated named.policy.annotations.rows := by
  have there : (annotationMembers named.policy.annotations.rows).lookup idAnnotation =
      some (.text named.codeId) := by
    rw [lookup_annotationMembers, ← KeyMap.get?, given]
    rfl
  rw [storedMembers_eq, Json.setMember_eq_self there]
  rfl

/-- What is stored is the object of the policy with the rows of the annotations that it carries. -/
theorem exists_rows {named : NamedPolicy} (proper : named.IsProper) :
    ∃ rows, Json.object (storedMembers named) = named.policy.annotated rows ∧
      (rows.map Prod.fst).Nodup ∧ (∀ row ∈ rows, Policy.isIdentifier row.1.toList = true) ∧
      KeyMap.ofRows rows = named.carried.annotations := by
  have sorted := KeyMap.nodup_keys named.policy.annotations.sorted
  have identifiers : ∀ row ∈ named.policy.annotations.rows,
      Policy.isIdentifier row.1.toList = true := fun row inside =>
    proper.policy.annotations row.1 (List.mem_map_of_mem inside)
  obtain unnamed | given := proper.name
  · have fresh := KeyMap.contains_eq_false_iff.mp (congrArg Option.isSome unnamed)
    refine ⟨_, stored_of_unnamed unnamed, ?_, ?_, ?_⟩
    · rw [List.map_append]
      refine List.nodup_append.mpr ⟨sorted, List.pairwise_singleton _ _, ?_⟩
      intro key inside other new same
      have equal : other = idAnnotation := List.mem_singleton.mp new
      exact fresh (equal ▸ same ▸ inside)
    · intro row inside
      obtain inside | new := List.mem_append.mp inside
      · exact identifiers row inside
      · have named : Policy.isIdentifier idAnnotation.toList = true := by decide
        exact List.mem_singleton.mp new ▸ named
    · rw [KeyMap.ofRows_append, KeyMap.ofRows_rows]
      rfl
  · refine ⟨_, stored_of_named given, sorted, identifiers, ?_⟩
    rw [KeyMap.ofRows_rows, NamedPolicy.carried_eq_self given]

/-- Something is stored for every policy. -/
theorem storedBytes_ne_nil (named : NamedPolicy) : storedBytes named ≠ [] := by
  intro empty
  have written := congrArg String.toList (Bytes.eq_empty_of_ofText empty)
  rw [Json.compact, String.toList_ofList, Json.write] at written
  cases written

/-! ### Reading back -/

/-- What is stored for a policy is read back as the value that was written if the conditions of the
policy are shallow, and otherwise not at all. -/
theorem canonicalOfBytes?_storedBytes {named : NamedPolicy} (proper : named.IsProper) :
    Json.canonicalOfBytes? (storedBytes named) =
      if named.policy.IsShallow then some (.object (storedMembers named)) else none := by
  obtain ⟨rows, stored, distinct, -⟩ := exists_rows proper
  rw [storedBytes, stored,
    Json.canonicalOfBytes?_compact (Policy.isPlain_annotated proper.policy distinct)]
  exact if_congr Policy.depth_annotated_le_iff rfl rfl

/-- The value that is written for a policy is the JSON form of the policy that carries its name. -/
theorem ofJson?_storedMembers {named : NamedPolicy} (proper : named.IsProper) :
    Policy.ofJson? (.object (storedMembers named)) = some named.carried := by
  obtain ⟨rows, stored, -, identifiers, annotations⟩ := exists_rows proper
  rw [stored, Policy.ofJson?_annotated proper.policy identifiers, annotations]
  rfl

/-- A stored policy is read back just if its conditions are shallow, and then it carries its
name. -/
theorem readStored?_storedBytes {named : NamedPolicy} (proper : named.IsProper) :
    readStored? (storedBytes named) =
      if named.policy.IsShallow then some named.carried else none := by
  rw [readStored?, canonicalOfBytes?_storedBytes proper]
  split
  · exact ofJson?_storedMembers proper
  · rfl

/-- The source of a stored policy is written just if its conditions are shallow. -/
theorem toFrontend_storedBytes (spec : Specification) {named : NamedPolicy}
    (proper : named.IsProper) :
    toFrontend spec spec.backendLanguageId spec.languageVersionId CodeType.policy.number
        (storedBytes named) =
      if named.policy.IsShallow then .ok (Bytes.ofText (String.ofList named.carried.print))
      else .error (.source .malformedStoredPolicy) := by
  rw [toFrontend, if_neg (not_not.mpr rfl), if_neg (not_not.mpr rfl), if_pos rfl,
    readStored?_storedBytes proper]
  by_cases shallow : named.policy.IsShallow
  · rw [if_pos shallow, if_pos shallow]
  · rw [if_neg shallow, if_neg shallow]

end Authoring

end PolicyLedger
