/-
**Exported policies are parsed back.**

An exported policy carries its id, so the policies of an exported text go by the ids of the sections
that they come from, and what is stored for them differs in the order of annotations only
(`NamedPolicy.arranged_exported`). No id is met twice and every one is accepted as a name, so each
statement has an object (`exists_sections_of_own`), and the text is cut between the policies because
each of them ends at its semicolon (`map_parse?_exportedText`).

`policyFile_of_exportPolicies` puts both together: exporting the good sections of a policy file and
parsing the text gives the same policies under the same ids.
-/

import PolicyLedger.Proofs.Authoring.Publication
import PolicyLedger.Proofs.Authoring.Siblings
import PolicyLedger.Proofs.Json.Arranged
import PolicyLedger.Proofs.Object.BlobCodec
import PolicyLedger.Proofs.Policy.PrintRoundTrip

namespace PolicyLedger

/-- The order of annotations does not matter to the object of a policy. -/
theorem Policy.arranged_annotated_of_perm (policy : Policy)
    {rows others : List (String × Option String)} (distinct : (rows.map Prod.fst).Nodup)
    (permuted : rows.Perm others) :
    (policy.annotated rows).arranged = (policy.annotated others).arranged := by
  have keys : ((annotationMembers rows).map Prod.fst).Nodup := by
    rw [annotationMembers, List.map_map]
    exact distinct
  have members : (annotationMembers rows).Perm (annotationMembers others) := permuted.map _
  have annotations := Json.arranged_object_of_perm keys members
  rw [annotated, annotated, Json.arranged, Json.arranged, Json.arrangedMembers_eq_map,
    Json.arrangedMembers_eq_map, List.map_append, List.map_append, List.map_singleton,
    List.map_singleton, annotations]

namespace Authoring

open Statements (Closes)

variable {spec : Specification} {partition : String} {generated : Nat → String}

/-! ### Policies that carry their ids -/

namespace NamedPolicy

/-- A policy as it is exported, with its id among the annotations. -/
def exported (named : NamedPolicy) : NamedPolicy := ⟨named.carried, named.codeId⟩

variable {named : NamedPolicy}

theorem get?_carried (named : NamedPolicy) :
    named.carried.annotations.get? idAnnotation = some (some named.codeId) :=
  KeyMap.get?_insert named.policy.annotations idAnnotation (some named.codeId)

/-- A proper policy stays proper with its id. -/
theorem isProper_carried (proper : named.policy.IsProper) : named.carried.IsProper where
  principal := proper.principal
  action := proper.action
  actionType := proper.actionType
  resource := proper.resource
  conditions := proper.conditions
  annotations := by
    intro key inside
    obtain ⟨row, placed, rfl⟩ := List.mem_map.mp inside
    obtain new | old := KeyMap.mem_place placed
    · rw [new]
      decide
    · exact proper.annotations row.1 (List.mem_map_of_mem old)

theorem isProper_exported (proper : named.IsProper) : named.exported.IsProper :=
  ⟨isProper_carried proper.policy, .inr (get?_carried named)⟩

theorem carried_exported (named : NamedPolicy) : named.exported.carried = named.carried :=
  carried_eq_self (get?_carried named)

/-- What is stored for an exported policy differs in the order of members only. -/
theorem arranged_exported (proper : named.IsProper) :
    (Json.object (storedMembers named.exported)).arranged =
      (Json.object (storedMembers named)).arranged := by
  obtain ⟨rows, stored, distinct, -, annotations⟩ := exists_rows proper
  obtain ⟨others, storedOthers, distinctOthers, -, annotationsOthers⟩ :=
    exists_rows (isProper_exported proper)
  rw [carried_exported, ← annotations] at annotationsOthers
  have permuted : others.Perm rows := by
    have placed := KeyMap.perm_ofRows distinctOthers
    rw [annotationsOthers] at placed
    exact placed.symm.trans (KeyMap.perm_ofRows distinct)
  rw [stored, storedOthers]
  exact named.policy.arranged_annotated_of_perm distinctOthers permuted

theorem hasDistinctKeys_stored (proper : named.IsProper) :
    (Json.object (storedMembers named)).hasDistinctKeys = true := by
  obtain ⟨rows, stored, distinct, -⟩ := exists_rows proper
  rw [stored]
  exact (Policy.isPlain_annotated proper.policy distinct).2

/-- As many bytes are stored for an exported policy. -/
theorem length_storedBytes_exported (proper : named.IsProper) :
    (storedBytes named.exported).length = (storedBytes named).length := by
  have written := Json.perm_write_of_arranged (hasDistinctKeys_stored (isProper_exported proper))
    (hasDistinctKeys_stored proper) (arranged_exported proper)
  rw [storedBytes, storedBytes, Json.compact, Json.compact, Bytes.ofText_ofList,
    Bytes.ofText_ofList]
  exact (written.flatMap_right _).length_eq

theorem fits_exported (proper : named.IsProper) (fits : Fits (named.blob spec)) :
    Fits (named.exported.blob spec) := by
  rw [Fits, header_blob, data_blob] at fits ⊢
  rw [length_storedBytes_exported proper]
  exact fits

/-- A policy carries the id that it goes by, and the id is accepted as a name. -/
structure BearsId (named : NamedPolicy) : Prop where
  annotated : named.policy.annotation? idAnnotation = some named.codeId
  checked : PolicyName.check named.codeId = .ok ()

theorem bearsId_exported (checked : PolicyName.check named.codeId = .ok ()) :
    named.exported.BearsId where
  annotated := by
    rw [Policy.annotation?, exported, get?_carried]
    rfl
  checked := checked

end NamedPolicy

/-! ### The text of exported policies -/

/-- Texts between which an empty line is left when they are joined with line feeds. -/
def spaced : List (List Char) → List (List Char)
  | [] => []
  | [text] => [text]
  | text :: other :: rest => (text ++ ['\n']) :: spaced (other :: rest)

theorem spaced_ne_nil (text : List Char) (rest : List (List Char)) :
    spaced (text :: rest) ≠ [] := by
  cases rest <;> exact List.cons_ne_nil _ _

/-- The bytes of joined blocks are those of the text with an empty line between the blocks. -/
theorem joinBlocks_eq (texts : List (List Char)) :
    joinBlocks (texts.map fun text => Bytes.ofText (String.ofList text)) =
      Bytes.ofText (String.ofList (Text.join '\n' (spaced texts))) := by
  induction texts with
  | nil => rfl
  | cons text rest ih =>
    cases rest with
    | nil => rfl
    | cons other others =>
      obtain ⟨first, more, whole⟩ : ∃ first more, spaced (other :: others) = first :: more :=
        List.exists_cons_of_ne_nil (spaced_ne_nil other others)
      rw [whole, Bytes.ofText_ofList, List.map_cons] at ih
      rw [List.map_cons, List.map_cons, joinBlocks, ih, spaced, whole, Text.join,
        Bytes.ofText_ofList, Bytes.ofText_ofList, List.flatMap_append, List.flatMap_append,
        List.flatMap_cons]
      simp only [List.append_assoc]
      rfl

/-- A line feed behind a text belongs to its gap. -/
theorem closes_lineFeed {text part : List Char} (closes : Closes text part) :
    Closes (text ++ ['\n']) part := by
  obtain ⟨⟨gap, rfl, skips⟩, ended, last⟩ := closes
  exact ⟨⟨gap ++ ['\n'], List.append_assoc .., skips.lineFeed []⟩, ended, last⟩

/-- A proper policy is written up to its semicolon, where the cut ends it. -/
theorem exists_closes_print {policy : Policy} (proper : policy.IsProper) :
    ∃ part, Closes policy.print part ∧ Policy.parse? part = some policy := by
  have aligned : Statements.cut .code policy.print = Statements.lexicalCut policy.print := by
    refine Statements.cut_eq_lexicalCut fun front back whole => ?_
    have inside : '\r' ∈ policy.print := whole ▸ List.mem_append_right _ List.mem_cons_self
    exact absurd inside (Policy.noReturn_print proper)
  exact Statements.exists_closes (Policy.parse?_print proper) aligned

theorem exists_closes_spaced {policies : List Policy}
    (proper : ∀ policy ∈ policies, policy.IsProper) :
    ∃ parts, List.Forall₂ Closes (spaced (policies.map Policy.print)) parts ∧
      parts.map Policy.parse? = policies.map some := by
  induction policies with
  | nil => exact ⟨[], .nil, rfl⟩
  | cons policy rest ih =>
    rw [List.forall_mem_cons] at proper
    obtain ⟨part, closes, parsed⟩ := exists_closes_print proper.1
    obtain ⟨parts, others, parsedOthers⟩ := ih proper.2
    refine ⟨part :: parts, ?_, by rw [List.map_cons, List.map_cons, parsed, parsedOthers]⟩
    cases rest with
    | nil =>
      cases others
      exact .cons closes .nil
    | cons other others => exact .cons (closes_lineFeed closes) ‹_›

/-- The text that some policies are exported as. -/
def exportedText (policies : List Policy) : String :=
  String.ofList (Text.join '\n' (spaced (policies.map Policy.print)))

/-- The exported text has a statement for each policy, which is read as the policy. -/
theorem map_parse?_exportedText {policies : List Policy}
    (proper : ∀ policy ∈ policies, policy.IsProper) :
    (Statements.split (exportedText policies).toList).map Policy.parse? = policies.map some := by
  rw [exportedText, String.toList_ofList]
  cases policies with
  | nil => rfl
  | cons policy rest =>
    obtain ⟨parts, closes, parsed⟩ := exists_closes_spaced proper
    rw [← parsed]
    exact Statements.split_join closes (spaced_ne_nil _ _)

/-! ### Sections of policies with ids of their own -/

/-- The object of a section stores the blob of a policy, and the section lists the policy's id. -/
structure IsSectionOf (spec : Specification) (named : NamedPolicy) (made : SectionObject) :
    Prop where
  codeId : made.info.codeId = named.codeId
  content : Content.ofObject made.object = .ok (.blob (named.blob spec))

/-- A policy that carries an id not met before becomes an object. -/
theorem exists_section?_of_own (partition given : String) (index : Nat) {met : List String}
    {statement : List Char} {named : NamedPolicy}
    (parsed : Policy.parse? statement = some named.policy) (bears : named.BearsId)
    (fresh : named.codeId ∉ met) (fits : Fits (named.blob spec)) :
    ∃ object info, section? spec partition met statement given =
        (named.codeId :: met, .ok (object, info)) ∧
      IsSectionOf spec named ⟨index, object, info⟩ := by
  have names : Names statement given named := .own parsed bears.annotated bears.checked
  obtain ⟨object, info, made, records⟩ :=
    exists_makeObject partition index names (isCodeId_of_check bears.checked) fits
  refine ⟨object, info, ?_, records.codeId, records.content⟩
  rw [section?, readStatement_eq_ok_iff.mpr names]
  show (if met.contains named.codeId then _ else _) = _
  rw [if_neg (by simpa using fresh), made]

/-- Policies with distinct ids of their own become one object each. -/
theorem exists_sections_of_own (partition : String) (generated : Nat → String)
    {nameds : List NamedPolicy} {statements : List (List Char)} (index : Nat) {met : List String}
    (parsed : statements.map Policy.parse? = nameds.map fun named => some named.policy)
    (bear : ∀ named ∈ nameds, named.BearsId) (fit : ∀ named ∈ nameds, Fits (named.blob spec))
    (distinct : (nameds.map NamedPolicy.codeId).Nodup)
    (fresh : ∀ named ∈ nameds, named.codeId ∉ met) :
    ∃ objects : List SectionObject,
      (((outcomes spec partition generated index met statements).zipIdx index).map
        fun (outcome, index) =>
          some (outcome.map fun (object, info) => (⟨index, object, info⟩ : SectionObject))) =
        objects.map (fun made => some (.ok made)) ∧
      List.Forall₂ (IsSectionOf spec) nameds objects := by
  -- the names met at an index are those of the policies before it, which `fresh` keeps apart
  induction nameds generalizing statements index met with
  | nil =>
    obtain rfl := List.map_eq_nil_iff.mp parsed
    exact ⟨[], rfl, .nil⟩
  | cons named rest ih =>
    obtain ⟨statement, statements, rfl, first, others⟩ := List.map_eq_cons_iff.mp parsed
    rw [List.forall_mem_cons] at bear fit fresh
    rw [List.map_cons, List.nodup_cons] at distinct
    obtain ⟨object, info, made, isSection⟩ :=
      exists_section?_of_own partition (generated index) index first bear.1 fresh.1 fit.1
    have freshRest : ∀ other ∈ rest, other.codeId ∉ named.codeId :: met := by
      intro other inside known
      obtain same | known := List.mem_cons.mp known
      · exact distinct.1 (same ▸ List.mem_map_of_mem inside)
      · exact fresh.2 other inside known
    obtain ⟨objects, slots, sections⟩ := ih (index + 1) others bear.2 fit.2 distinct.2 freshRest
    refine ⟨⟨index, object, info⟩ :: objects, ?_, .cons isSection sections⟩
    rw [outcomes, made, List.zipIdx_cons, List.map_cons, List.map_cons, ← slots]
    rfl

/-! ### Exporting -/

/-- The object of a shallow policy is exported as the source of the policy with its id. -/
theorem exportPolicy_of_content {object : Object} {named : NamedPolicy} (proper : named.IsProper)
    (shallow : named.policy.IsShallow)
    (content : Content.ofObject object = .ok (.blob (named.blob spec))) :
    exportPolicy spec object = .ok (Bytes.ofText (String.ofList named.carried.print)) := by
  have source := toFrontend_storedBytes spec proper
  rw [if_pos shallow] at source
  have type : (named.blob spec).header.artifactType? = some .policy := by
    rw [named.header_blob]
    rfl
  unfold exportPolicy
  refine Steps.bind_eq_ok.mpr ⟨_, Blob.ofObject_of_content content, ?_⟩
  rw [if_pos type, named.header_blob, named.data_blob]
  exact source

/-- The objects of shallow policies are exported as one text. -/
theorem exportPolicies_of_holds {statements : List (List Char)} {objects : List SectionObject}
    {nameds : List NamedPolicy}
    (holds : List.Forall₂ (Holds spec generated statements) objects nameds)
    (shallow : ∀ named ∈ nameds, named.policy.IsShallow) :
    exportPolicies spec (objects.map SectionObject.object) =
      .ok (Bytes.ofText (exportedText (nameds.map NamedPolicy.carried)), ".cedar") := by
  have blocks : (objects.map SectionObject.object).mapM (exportPolicy spec) =
      .ok (((nameds.map NamedPolicy.carried).map Policy.print).map
        fun text => Bytes.ofText (String.ofList text)) := by
    refine Steps.mapM_eq_ok ?_
    rw [List.map_map, List.map_map, List.forall₂_map_left_iff, List.forall₂_map_right_iff]
    have related := (List.forall₂_and_left _ _).mpr ⟨shallow, holds.flip⟩
    refine (related.imp ?_).flip
    intro named made ⟨isShallow, held⟩
    exact exportPolicy_of_content held.isProper isShallow held.content
  rw [exportPolicies, blocks, exportedText, ← joinBlocks_eq]
  rfl

/-- A policy is shallow if what is stored for it is within the depth that is read. -/
theorem NamedPolicy.isShallow_of_depth {named : NamedPolicy} (proper : named.IsProper)
    (within : (Json.object (storedMembers named)).depth ≤ Json.Reader.maxDepth) :
    named.policy.IsShallow := by
  obtain ⟨rows, stored, -⟩ := exists_rows proper
  rw [stored] at within
  exact Policy.depth_annotated_le_iff.mp within

/-! ### Parsing again -/

/-- What is needed of a policy that is parsed again once it was exported: it can be read back, its
id is accepted as a name, and there is an object for it. -/
structure IsExportable (spec : Specification) (named : NamedPolicy) : Prop where
  proper : named.IsProper
  checked : PolicyName.check named.codeId = .ok ()
  fits : Fits (named.blob spec)

/-- The policies of good sections are of this kind. -/
theorem Holds.isExportable {statements : List (List Char)} {made : SectionObject}
    {named : NamedPolicy} (ids : ∀ index, IsGeneratedId (generated index))
    (held : Holds spec generated statements made named) : IsExportable spec named where
  proper := held.isProper
  checked := by
    obtain ⟨statement, -, read⟩ := held.read
    exact (readStatement_eq_ok_iff.mp read).checked (ids made.index)
  fits := Blob.fits_of_ofObject (Blob.ofObject_of_content held.content)

/-- A file with the text of exported policies has a good section for each of them and no other. -/
theorem exists_sections_of_exportedText (generated : Nat → String) (partition : String)
    {path extension : String} {nameds : List NamedPolicy}
    (policyPath : extension ∈ spec.policyFileExtensions ∧
      FilePath.hasExtension path extension = true)
    (exportable : ∀ named ∈ nameds, IsExportable spec named)
    (distinct : (nameds.map NamedPolicy.codeId).Nodup) :
    ∃ objects : List SectionObject, policyFile spec generated partition path
        (Bytes.ofText (exportedText (nameds.map NamedPolicy.carried))) =
          .ok ⟨path, objects.map fun made => some (.ok made)⟩ ∧
      List.Forall₂ (fun named made => IsSectionOf spec named.exported made) nameds objects := by
  have proper : ∀ policy ∈ nameds.map NamedPolicy.carried, policy.IsProper :=
    List.forall_mem_map.mpr fun named inside =>
      NamedPolicy.isProper_carried (exportable named inside).proper.policy
  have parsed : (Statements.split (exportedText (nameds.map NamedPolicy.carried)).toList).map
      Policy.parse? =
        (nameds.map NamedPolicy.exported).map fun named => some named.policy := by
    rw [map_parse?_exportedText proper, List.map_map, List.map_map]
    rfl
  have bear : ∀ named ∈ nameds.map NamedPolicy.exported, named.BearsId :=
    List.forall_mem_map.mpr fun named inside =>
      NamedPolicy.bearsId_exported (exportable named inside).checked
  have fit : ∀ named ∈ nameds.map NamedPolicy.exported, Fits (named.blob spec) :=
    List.forall_mem_map.mpr fun named inside =>
      NamedPolicy.fits_exported (exportable named inside).proper (exportable named inside).fits
  have codeIds : (nameds.map NamedPolicy.exported).map NamedPolicy.codeId =
      nameds.map NamedPolicy.codeId := List.map_map
  obtain ⟨objects, slots, made⟩ := exists_sections_of_own partition generated 0 parsed bear fit
    (codeIds.symm ▸ distinct) (fun _ _ => List.not_mem_nil)
  refine ⟨objects, ?_, List.forall₂_map_left_iff.mp made⟩
  rw [policyFile_eq_ok generated partition policyPath (Bytes.toText?_ofText _), fill, slots]

/-- Two sections hold the same policy under the same id: the headers of their blobs are the same,
and the stored values are the same up to the order of members. -/
structure HoldsSame (made again : SectionObject) : Prop where
  codeId : again.info.codeId = made.info.codeId
  stored : ∃ header data other value moved, header.codeId = made.info.codeId ∧
    Blob.ofObject made.object = .ok ⟨header, data⟩ ∧
    Blob.ofObject again.object = .ok ⟨header, other⟩ ∧
    Json.canonicalOfBytes? data = some value ∧ Json.canonicalOfBytes? other = some moved ∧
    moved.arranged = value.arranged

/-- The section of an exported policy holds the same as the section that it was exported from. -/
theorem IsSectionOf.holdsSame {statements : List (List Char)} {made again : SectionObject}
    {named : NamedPolicy} (held : Holds spec generated statements made named)
    (shallow : named.policy.IsShallow) (listed : made.info.codeId = named.codeId)
    (isSection : IsSectionOf spec named.exported again) : HoldsSame made again where
  codeId := isSection.codeId.trans listed.symm
  stored := by
    have proper := held.isProper
    have value := canonicalOfBytes?_storedBytes proper
    have moved := canonicalOfBytes?_storedBytes (NamedPolicy.isProper_exported proper)
    have shallowAgain : named.exported.policy.IsShallow := shallow
    rw [if_pos shallow] at value
    rw [if_pos shallowAgain] at moved
    exact ⟨spec.header named.codeId .policy, _, _, _, _, listed.symm,
      Blob.ofObject_of_content held.content, Blob.ofObject_of_content isSection.content, value,
      moved, NamedPolicy.arranged_exported proper⟩

/-- **Exported policies are parsed back.** The good sections of a policy file hold policies of its
statements. If what is stored for each of them is within the depth that is read, they are exported,
and every file with the exported text has a good section for each of them and no other: it holds the
same policy under the same id. -/
theorem policyFile_of_exportPolicies {path : String} {data : Bytes} {sections : Sections}
    (ids : ∀ index, IsGeneratedId (generated index))
    (file : policyFile spec generated partition path data = .ok sections) :
    ∃ source nameds, Bytes.toText? data = some source ∧
      List.Forall₂ (Holds spec generated (Statements.split source.toList)) sections.objects
        nameds ∧
      ((∀ named ∈ nameds, (Json.object (storedMembers named)).depth ≤ Json.Reader.maxDepth) →
        ∃ exported, exportPolicies spec (sections.objects.map SectionObject.object) =
            .ok (exported, ".cedar") ∧
          ∀ generated partition path extension,
            extension ∈ spec.policyFileExtensions ∧ FilePath.hasExtension path extension = true →
            ∃ objects, policyFile spec generated partition path exported =
                .ok ⟨path, objects.map fun made => some (.ok made)⟩ ∧
              List.Forall₂ HoldsSame sections.objects objects) := by
  obtain ⟨source, nameds, decoded, holds, distinct⟩ := holds_policyFile file
  refine ⟨source, nameds, decoded, holds, fun within => ?_⟩
  have exportable : ∀ named ∈ nameds, IsExportable spec named := by
    intro named inside
    obtain ⟨_, -, held⟩ := Steps.exists_of_mem_right holds inside
    exact held.isExportable ids
  have shallow : ∀ named ∈ nameds, named.policy.IsShallow := fun named inside =>
    NamedPolicy.isShallow_of_depth (exportable named inside).proper (within named inside)
  refine ⟨_, exportPolicies_of_holds holds shallow, ?_⟩
  intro generated' partition' path' extension policyPath
  obtain ⟨objects, opened, made⟩ :=
    exists_sections_of_exportedText generated' partition' policyPath exportable distinct
  refine ⟨objects, opened, ?_⟩
  have listed : List.Forall₂ (fun made named => made.info.codeId = named.codeId ∧
      Holds spec generated (Statements.split source.toList) made named)
      sections.objects nameds := by
    refine ((List.forall₂_and_left _ _).mpr ⟨fun made inside => inside, holds⟩).imp ?_
    intro made named ⟨inside, held⟩
    exact ⟨codeId_of_held ids file inside held, held⟩
  have again := (List.forall₂_and_left _ _).mpr ⟨shallow, made⟩
  refine Steps.forall₂_trans ?_ listed again
  intro made named again ⟨listed, held⟩ ⟨isShallow, isSection⟩
  exact isSection.holdsSame held isShallow listed

theorem within_twoPolicies {named : NamedPolicy} {made : SectionObject}
    (held : Holds .cedar (fun _ => "0123456789abcdef0123456789abcdef")
      (Statements.split twoPolicies.toList) made named) :
    (Json.object (storedMembers named)).depth ≤ Json.Reader.maxDepth := by
  obtain ⟨statement, there, read⟩ := held.read
  obtain rfl | rfl := named_of_twoPolicies there read
  · decide
  · decide

/-- Two policies, one with an id of its own and one with a generated id, are exported and parsed
back. -/
theorem exported_of_twoPolicies :
    ∃ sections exported objects, policyFile .cedar
        (fun _ => "0123456789abcdef0123456789abcdef") "/" "in.cedar" (Bytes.ofText twoPolicies) =
          .ok sections ∧
      exportPolicies .cedar (sections.objects.map SectionObject.object) =
        .ok (exported, ".cedar") ∧
      policyFile .cedar (fun _ => "") "/" "out.cedar" exported =
        .ok ⟨"out.cedar", objects.map fun made => some (.ok made)⟩ ∧
      sections.objects.length = 2 ∧ List.Forall₂ HoldsSame sections.objects objects := by
  have opened := @policyFile_eq_ok .cedar (fun _ => "0123456789abcdef0123456789abcdef") "/"
    "in.cedar" ".cedar" twoPolicies (Bytes.ofText twoPolicies) (by decide) (Bytes.toText?_ofText _)
  obtain ⟨source, nameds, decoded, holds, exports⟩ :=
    policyFile_of_exportPolicies (fun _ => isGeneratedId_digits) opened
  obtain rfl := Option.some.inj (decoded.symm.trans (Bytes.toText?_ofText _))
  have within : ∀ named ∈ nameds,
      (Json.object (storedMembers named)).depth ≤ Json.Reader.maxDepth := by
    intro named inside
    obtain ⟨_, -, held⟩ := Steps.exists_of_mem_right holds inside
    exact within_twoPolicies held
  obtain ⟨exported, written, parsed⟩ := exports within
  obtain ⟨objects, again, same⟩ := parsed (fun _ => "") "/" "out.cedar" ".cedar" (by decide)
  refine ⟨_, exported, objects, opened, written, again, ?_, same⟩
  decide +kernel

end Authoring

end PolicyLedger
