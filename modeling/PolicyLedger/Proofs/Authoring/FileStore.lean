/-
**Policy files as policy stores.**

The good sections of a policy file hold the blobs of its policies, under distinct code ids
(`holds_policyFile`), so they make a policy store (`foldlM_addContent`). Its policies are collected
if the conditions of each of them are shallow, and then they are the policies of the statements
under their names; otherwise the collection fails because a stored policy cannot be read
(`policySet_of_policyFile`). A condition of 62 operands is shallow, one of 63 is not
(`policySet_fails_of_deepFile`).
-/

import PolicyLedger.Proofs.Authoring.Statements
import PolicyLedger.Proofs.Authoring.Stored
import PolicyLedger.Proofs.Decision.FailClosed
import PolicyLedger.Proofs.Object.BlobRoundTrip
import PolicyLedger.Proofs.Policy.Chains

namespace PolicyLedger

open Authoring (NamedPolicy)

/-- The policy store of the objects in the sections of a file. -/
def Sections.store (version : String) (sections : Sections) : Except Error PolicyStore :=
  sections.objects.foldlM (fun store made => do
    let content ← Content.ofObject made.object
    store.addContent made.object.oid content) { version := version }

namespace Authoring

/-- The blob of a policy. -/
def NamedPolicy.blob (spec : Specification) (named : NamedPolicy) : Blob :=
  ⟨spec.header named.codeId .policy, storedBytes named⟩

theorem NamedPolicy.header_blob (spec : Specification) (named : NamedPolicy) :
    (named.blob spec).header = spec.header named.codeId .policy := by
  rw [blob]

theorem NamedPolicy.data_blob (spec : Specification) (named : NamedPolicy) :
    (named.blob spec).data = storedBytes named := by
  rw [blob]

/-- The policy of a set that a policy becomes. -/
def NamedPolicy.row (named : NamedPolicy) : String × Policy := (named.codeId, named.carried)

variable {spec : Specification} {partition : String} {generated : Nat → String}

/-! ### Sections -/

/-- A section holds the blob of the policy of its statement. -/
structure Holds (spec : Specification) (generated : Nat → String) (statements : List (List Char))
    (made : SectionObject) (named : NamedPolicy) : Prop where
  read : ∃ statement, statements[made.index]? = some statement ∧
    readStatement statement (generated made.index) = .ok named
  content : Content.ofObject made.object = .ok (.blob (named.blob spec))

/-- The object of a good outcome with its number. -/
def sectionObject? (numbered : Except Error (Object × SectionMeta) × Nat) :
    Option SectionObject :=
  match numbered.1 with
  | .ok (object, info) => some ⟨numbered.2, object, info⟩
  | .error _ => none

theorem objects_fill (path : String) (outcomes : List (Except Error (Object × SectionMeta))) :
    (fill path outcomes).objects = outcomes.zipIdx.filterMap sectionObject? := by
  rw [Sections.objects, Sections.filled, fill, List.filterMap_map, List.filterMap_filterMap]
  refine congrArg (List.filterMap · _) (funext fun numbered => ?_)
  obtain ⟨outcome, index⟩ := numbered
  cases outcome <;> rfl

/-- What is made of a statement: a policy with a new name and its blob, or an error. -/
theorem section?_cases (spec : Specification) (partition : String) (met : List String)
    (statement : List Char) (generated : String) :
    (∃ named object info, readStatement statement generated = .ok named ∧
      named.codeId ∉ met ∧ section? spec partition met statement generated =
        (named.codeId :: met, .ok (object, info)) ∧
      Content.ofObject object = .ok (.blob (named.blob spec))) ∨
    ∃ more error, met ⊆ more ∧ section? spec partition met statement generated =
      (more, .error error) := by
  rw [section?]
  split
  next error _ => exact .inr ⟨met, error, fun _ inside => inside, rfl⟩
  next named read =>
    split
    · exact .inr ⟨met, _, fun _ inside => inside, rfl⟩
    next fresh =>
      cases made : makeObject spec partition named.codeId .policy (storedBytes named) with
      | error error => exact .inr ⟨_, error, List.subset_cons_self _ _, rfl⟩
      | ok result =>
        obtain ⟨object, stored, same⟩ := Steps.bind_eq_ok.mp made
        obtain rfl := Except.ok.inj same
        exact .inl ⟨named, object, _, read, by simpa using fresh, rfl,
          Blob.content_of_toObject stored⟩

/-- The good outcomes of statements hold policies under new and distinct names. -/
theorem holds_outcomes {statements rest : List (List Char)} {index : Nat} {met : List String}
    (there : statements.drop index = rest) :
    ∃ nameds, List.Forall₂ (Holds spec generated statements)
        (((outcomes spec partition generated index met rest).zipIdx index).filterMap
          sectionObject?) nameds ∧
      (nameds.map NamedPolicy.codeId).Nodup ∧ ∀ named ∈ nameds, named.codeId ∉ met := by
  induction rest generalizing index met with
  | nil => exact ⟨[], .nil, List.nodup_nil, by simp⟩
  | cons statement rest ih =>
    have here : statements[index]? = some statement := by
      rw [← List.head?_drop, there, List.head?_cons]
    have later : statements.drop (index + 1) = rest := by
      rw [← List.drop_drop, there, List.drop_one, List.tail_cons]
    rw [outcomes]
    have made := section?_cases spec partition met statement (generated index)
    obtain ⟨named, object, info, read, fresh, made, content⟩ | ⟨more, error, grown, made⟩ := made
    · obtain ⟨nameds, holds, distinct, apart⟩ := @ih (index + 1) (named.codeId :: met) later
      refine ⟨named :: nameds, ?_, ?_, ?_⟩
      · rw [made, List.zipIdx_cons, List.filterMap_cons]
        exact .cons ⟨⟨statement, here, read⟩, content⟩ holds
      · rw [List.map_cons, List.nodup_cons, List.mem_map]
        refine ⟨?_, distinct⟩
        rintro ⟨other, inside, same⟩
        exact apart other inside (same ▸ List.mem_cons_self)
      · refine List.forall_mem_cons.mpr ⟨fresh, fun other inside known => ?_⟩
        exact apart other inside (List.mem_cons_of_mem _ known)
    · obtain ⟨nameds, holds, distinct, apart⟩ := @ih (index + 1) more later
      refine ⟨nameds, ?_, distinct, fun other inside known => apart other inside (grown known)⟩
      rw [made, List.zipIdx_cons, List.filterMap_cons]
      exact holds

/-- The good sections of a policy file hold policies of its statements under distinct names. -/
theorem holds_policyFile {path : String} {data : Bytes} {sections : Sections}
    (made : policyFile spec generated partition path data = .ok sections) :
    ∃ source nameds, Bytes.toText? data = some source ∧
      List.Forall₂ (Holds spec generated (Statements.split source.toList)) sections.objects
        nameds ∧
      (nameds.map NamedPolicy.codeId).Nodup := by
  rw [policyFile] at made
  split at made
  · split at made
    · cases made
    next source decoded =>
      obtain rfl := Except.ok.inj made
      have good := @holds_outcomes spec partition generated (Statements.split source.toList) _ 0 []
        List.drop_zero
      obtain ⟨nameds, holds, distinct, -⟩ := good
      exact ⟨source, nameds, decoded, (objects_fill _ _).symm ▸ holds, distinct⟩
  · cases made

/-! ### The store -/

/-- A section holds one policy. -/
theorem Holds.unique {statements : List (List Char)} {made : SectionObject}
    {named other : NamedPolicy} (holds : Holds spec generated statements made named)
    (again : Holds spec generated statements made other) : named = other := by
  obtain ⟨statement, found, read⟩ := holds.read
  obtain ⟨same, foundAgain, readAgain⟩ := again.read
  obtain rfl := Option.some.inj (found.symm.trans foundAgain)
  exact Except.ok.inj (read.symm.trans readAgain)

theorem Holds.isProper {statements : List (List Char)} {made : SectionObject} {named : NamedPolicy}
    (holds : Holds spec generated statements made named) : named.IsProper := by
  obtain ⟨_, _, read⟩ := holds.read
  exact (isProper_of_readStatement read).2

/-- The item of a store for the object of a section. -/
def storeItem (spec : Specification) (made : SectionObject) (named : NamedPolicy) : StoreItem :=
  ⟨made.object.oid, named.blob spec⟩

/-- The objects of good sections make a store with one item for each of them. -/
theorem foldlM_addContent {statements : List (List Char)} {objects : List SectionObject}
    {nameds : List NamedPolicy}
    (holds : List.Forall₂ (Holds spec generated statements) objects nameds) (store : PolicyStore) :
    objects.foldlM (fun store made => do
        let content ← Content.ofObject made.object
        store.addContent made.object.oid content) store =
      Except.ok (ε := Error)
        { store with
          policies := store.policies ++ List.zipWith (storeItem spec) objects nameds } := by
  induction holds generalizing store with
  | nil => simp [pure, Except.pure]
  | @cons made named objects nameds first _ ih =>
    have added : (do
        let content ← Content.ofObject made.object
        store.addContent made.object.oid content) =
        Except.ok { store with policies := store.policies ++ [storeItem spec made named] } := by
      rw [first.content]
      rfl
    rw [List.foldlM_cons, added]
    refine (ih _).trans ?_
    rw [List.zipWith_cons_cons, List.append_assoc]
    rfl

/-! ### The policies of the store -/

/-- One stored policy is added under its name if its conditions are shallow. -/
theorem addPolicy_storeItem {set : Policy.PolicySet} (made : SectionObject) {named : NamedPolicy}
    (proper : named.IsProper) (fresh : set.contains named.codeId = false) :
    spec.addPolicy set (storeItem spec made named) =
      if named.policy.IsShallow then .ok ⟨set.rows ++ [named.row]⟩ else .error .malformedJson := by
  have bytes := canonicalOfBytes?_storedBytes proper
  have language : (storeItem spec made named).blob.header = spec.header named.codeId .policy := by
    rw [storeItem, NamedPolicy.header_blob]
  have data : (storeItem spec made named).blob.data = storedBytes named := by
    rw [storeItem, NamedPolicy.data_blob]
  unfold Specification.addPolicy
  simp only [language, data, Specification.header, ne_eq, not_true_eq_false, or_self, if_false]
  by_cases shallow : named.policy.IsShallow
  · rw [if_pos shallow] at bytes ⊢
    have placed : set.add? named.codeId named.carried = some ⟨set.rows ++ [named.row]⟩ := by
      rw [Policy.PolicySet.add?, fresh]
      rfl
    simp only [bytes, ofJson?_storedMembers proper, Option.bind_some, placed]
  · rw [if_neg shallow] at bytes ⊢
    simp only [bytes]

/-- Stored policies under new and distinct names are added to a set if all of them are shallow;
otherwise the first one that is not makes the collection fail. -/
theorem foldlM_addPolicy {statements : List (List Char)} {objects : List SectionObject}
    {nameds : List NamedPolicy}
    (holds : List.Forall₂ (Holds spec generated statements) objects nameds)
    (distinct : (nameds.map NamedPolicy.codeId).Nodup) {set : Policy.PolicySet}
    (fresh : ∀ named ∈ nameds, set.contains named.codeId = false) :
    (List.zipWith (storeItem spec) objects nameds).foldlM spec.addPolicy set =
      if ∀ named ∈ nameds, named.policy.IsShallow then
        .ok ⟨set.rows ++ nameds.map NamedPolicy.row⟩
      else .error .malformedJson := by
  induction holds generalizing set with
  | nil => simp [pure, Except.pure]
  | @cons made named objects nameds first _ ih =>
    rw [List.map_cons, List.nodup_cons] at distinct
    rw [List.forall_mem_cons] at fresh
    rw [List.zipWith_cons_cons, List.foldlM_cons, addPolicy_storeItem made first.isProper fresh.1]
    by_cases shallow : named.policy.IsShallow
    · have others : ∀ other ∈ nameds,
          Policy.PolicySet.contains ⟨set.rows ++ [named.row]⟩ other.codeId = false := by
        intro other inside
        refine (Specification.contains_append _ _ _ _).mpr ⟨fresh.2 other inside, fun same => ?_⟩
        exact distinct.1 (same ▸ List.mem_map_of_mem inside)
      rw [if_pos shallow]
      refine (ih distinct.2 others).trans ?_
      simp only [List.forall_mem_cons, shallow, true_and, List.append_assoc, List.map_cons,
        List.singleton_append]
    · rw [if_neg shallow, if_neg (fun all => shallow (all named List.mem_cons_self))]
      rfl

/-- If the policies of a store are collected, a check fails for another reason only: the guard
refuses the query, it is not resolved, or the evaluation of a policy fails. -/
theorem fails_of_collected {store : PolicyStore} {set : Policy.PolicySet}
    (collected : spec.policySet store = .ok set) {requestId : String} {query : AccessQuery}
    {error : Error} (failed : spec.check requestId store query = .error error) :
    Guard.verify query = .error error ∨ Resolution.environment query = .error error ∨
      ∃ env, Resolution.environment query = .ok env ∧
        error = .evaluation (.failed (set.evaluate env).errors) := by
  obtain ⟨env, _, evaluates⟩ | ⟨other, fails⟩ := spec.evaluates_or_fails store query
  · rw [Specification.check_of_evaluates evaluates] at failed
    cases failed
  · obtain rfl : other = error :=
      Except.error.inj ((Specification.check_of_fails fails requestId).symm.trans failed)
    cases fails with
    | guard refused => exact .inl refused
    | resolution _ unresolved => exact .inr (.inl unresolved)
    | collection _ _ unusable => exact absurd (unusable.symm.trans collected) nofun
    | @evaluation env other _ resolved again _ =>
      obtain rfl : set = other := Except.ok.inj (collected.symm.trans again)
      exact .inr (.inr ⟨env, resolved, rfl⟩)

/-! ### Files with a long condition -/

/-- The policy with a long condition, under its name. -/
def chainNamed (more : Nat) : NamedPolicy := ⟨Policy.chainPolicy more, "p"⟩

/-- A file with this policy. -/
def chainFile (more : Nat) : Bytes := Bytes.ofText (String.ofList (Policy.chainSource more))

theorem isShallow_chainNamed (more : Nat) : (chainNamed more).policy.IsShallow ↔ more ≤ 61 :=
  Policy.isShallow_chainPolicy more

theorem length_storedBytes_chainNamed (more : Nat) :
    (storedBytes (chainNamed more)).length ≤ 156 * more + 672 := by
  have written : (Json.write (.object (storedMembers (chainNamed more)))).length =
      (Json.write (Policy.chain Policy.truth more).toJson).length + 154 := by
    rw [show storedMembers (chainNamed more) = (Policy.chainPolicy more).toMembers from rfl]
    simp [Policy.chainPolicy, Policy.toMembers, Policy.Effect.word, Policy.EntityScope.toJson,
      Policy.ActionScope.toJson, Policy.Condition.toJson, Policy.ConditionKind.word,
      Policy.annotationJson, KeyMap.insert, KeyMap.place, KeyMap.empty, Json.write,
      Json.writeMembers, Json.writeItems, Json.writeText, Json.escape]
  have operand : (Json.write Policy.truth.toJson).length = 14 := by decide
  have bytes := Bytes.length_ofText_le (Json.object (storedMembers (chainNamed more))).compact
  rw [Json.compact, String.toList_ofList, written, Policy.length_write_chain, operand] at bytes
  rw [storedBytes, Json.compact]
  omega

theorem exists_toObject_chainNamed {more : Nat} (few : more < 1000000) :
    ∃ object, ((chainNamed more).blob .cedar).toObject = .ok object := by
  have short := length_storedBytes_chainNamed more
  have size : (Specification.cedar.header "p" .policy).encode.length = 20 := by decide
  have header : ((chainNamed more).blob .cedar).header =
      Specification.cedar.header "p" .policy := by
    rw [NamedPolicy.header_blob, chainNamed]
  have data := (chainNamed more).data_blob .cedar
  refine Blob.exists_toObject (data ▸ storedBytes_ne_nil _) ?_ ?_
  · rw [header]
    decide
  · rw [header, data, size]
    omega

/-- The file has one good section, which holds the policy. -/
theorem policyFile_chainFile {more : Nat} (few : more < 1000000) :
    ∃ made, policyFile .cedar generated partition "in.cedar" (chainFile more) =
        .ok ⟨"in.cedar", [some (.ok made)]⟩ ∧
      Holds .cedar generated (Statements.split (Policy.chainSource more)) made
        (chainNamed more) := by
  have parsed := Statements.map_parse?_split (Policy.parseAll?_chainSource more)
    (.everywhere (Statements.cut_eq_lexicalCut fun front back cut => absurd
      (cut ▸ List.mem_append_right _ List.mem_cons_self)
      (Policy.carriageReturn_not_mem_chainSource more)))
  obtain ⟨statement, split, policy⟩ := List.map_eq_singleton_iff.mp parsed
  have read : readStatement statement (generated 0) = .ok (chainNamed more) := by
    rw [readStatement, policy]
    rfl
  obtain ⟨object, stored⟩ := exists_toObject_chainNamed few
  refine ⟨⟨0, object, Specification.cedar.sectionMeta partition "p" .policy⟩, ?_, ?_⟩
  · have made : section? .cedar partition [] statement (generated 0) =
        (["p"], .ok (object, Specification.cedar.sectionMeta partition "p" .policy)) := by
      rw [NamedPolicy.blob] at stored
      rw [section?, read]
      show (_, (Blob.toObject _ >>= _ : Except Error _)) = _
      rw [show (chainNamed more).codeId = "p" from rfl] at stored ⊢
      rw [stored]
      rfl
    rw [policyFile, chainFile, Bytes.toText?_ofText, if_pos (by decide)]
    simp only [String.toList_ofList, split, outcomes, made]
    rfl
  · exact ⟨⟨statement, by rw [split]; rfl, read⟩, Blob.content_of_toObject stored⟩

/-- **What becomes of the policies of a file.** Its good sections hold policies of its statements
and make a store. If the conditions of all of them are shallow, the policies are collected under
their names, so that a check fails for another reason only, and otherwise the collection fails. A
stored policy is read back as the value that was written, and its source is written, just if its own
conditions are shallow. -/
theorem policySet_of_policyFile {path : String} {data : Bytes} {sections : Sections}
    (made : policyFile spec generated partition path data = .ok sections) (version : String) :
    ∃ source nameds store, Bytes.toText? data = some source ∧
      List.Forall₂ (Holds spec generated (Statements.split source.toList)) sections.objects
        nameds ∧
      sections.store version = .ok store ∧
      (spec.policySet store =
        if ∀ named ∈ nameds, named.policy.IsShallow then .ok ⟨nameds.map NamedPolicy.row⟩
        else .error .malformedJson) ∧
      (∀ named ∈ nameds,
        (Json.canonicalOfBytes? (storedBytes named) =
          if named.policy.IsShallow then some (.object (storedMembers named)) else none) ∧
        toFrontend spec spec.backendLanguageId spec.languageVersionId CodeType.policy.number
            (storedBytes named) =
          if named.policy.IsShallow then .ok (Bytes.ofText (String.ofList named.carried.print))
          else .error (.source .malformedStoredPolicy)) ∧
      ((∀ named ∈ nameds, named.policy.IsShallow) → ∀ requestId query error,
        spec.check requestId store query = .error error →
          Guard.verify query = .error error ∨ Resolution.environment query = .error error ∨
            ∃ env, Resolution.environment query = .ok env ∧ error =
              .evaluation (.failed
                (Policy.PolicySet.evaluate ⟨nameds.map NamedPolicy.row⟩ env).errors)) := by
  obtain ⟨source, nameds, decoded, holds, distinct⟩ := holds_policyFile made
  let store : PolicyStore :=
    { version := version, policies := List.zipWith (storeItem spec) sections.objects nameds }
  have stored : sections.store version = .ok store := foldlM_addContent holds _
  have collected : spec.policySet store =
      if ∀ named ∈ nameds, named.policy.IsShallow then .ok ⟨nameds.map NamedPolicy.row⟩
      else .error .malformedJson :=
    foldlM_addPolicy holds distinct fun _ _ => rfl
  refine ⟨source, nameds, store, decoded, holds, stored, collected, fun named inside => ?_, ?_⟩
  · obtain ⟨_, _, held⟩ := Steps.exists_of_mem_right holds inside
    exact ⟨canonicalOfBytes?_storedBytes held.isProper, toFrontend_storedBytes spec held.isProper⟩
  · intro shallow requestId query error failed
    rw [if_pos shallow] at collected
    exact fails_of_collected collected failed

/-- The longest condition that is shallow. -/
theorem policySet_of_shallowFile :
    ∃ sections store, policyFile .cedar (fun _ => "") "/" "in.cedar" (chainFile 61) =
        .ok sections ∧
      sections.store "1" = .ok store ∧
      Specification.cedar.policySet store = .ok ⟨[(chainNamed 61).row]⟩ := by
  obtain ⟨made, file, held⟩ :=
    @policyFile_chainFile "/" (fun _ => "") 61 (by decide)
  obtain ⟨source, nameds, store, decoded, holds, stored, collected, -⟩ :=
    policySet_of_policyFile file "1"
  have same : source = String.ofList (Policy.chainSource 61) :=
    Option.some.inj (decoded.symm.trans (Bytes.toText?_ofText _))
  have only : nameds = [chainNamed 61] := by
    obtain _ | ⟨first, _ | _⟩ := holds
    rw [same, String.toList_ofList] at first
    rw [first.unique held]
  have shallow : ∀ named ∈ nameds, named.policy.IsShallow := by
    rw [only, List.forall_mem_singleton]
    exact (isShallow_chainNamed 61).mpr (by decide)
  refine ⟨_, store, file, stored, ?_⟩
  rw [collected, if_pos shallow, only]
  rfl

/-- With one more operand the only policy of a good file is stored and cannot be read back. -/
theorem policySet_fails_of_deepFile :
    ∃ sections store, policyFile .cedar (fun _ => "") "/" "in.cedar" (chainFile 62) =
        .ok sections ∧
      sections.errors = [] ∧ sections.objects.length = 1 ∧ sections.store "1" = .ok store ∧
      Specification.cedar.policySet store = .error .malformedJson := by
  obtain ⟨made, file, held⟩ :=
    @policyFile_chainFile "/" (fun _ => "") 62 (by decide)
  have holds := List.Forall₂.cons held .nil
  have deep : ¬ (chainNamed 62).policy.IsShallow := by
    rw [isShallow_chainNamed]
    decide
  refine ⟨_, _, file, rfl, rfl, foldlM_addContent holds _, ?_⟩
  refine (foldlM_addPolicy holds (List.pairwise_singleton _ _) fun _ _ => rfl).trans ?_
  exact if_neg fun all => deep (all _ List.mem_cons_self)

end Authoring

end PolicyLedger
