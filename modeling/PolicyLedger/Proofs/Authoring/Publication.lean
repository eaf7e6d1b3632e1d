/-
**Publishing and loading.**

The good sections of a policy file and of a schema file are listed in a tree, the tree is named by a
commit, and all of them are stored. Each section carries an item of a policy store (`Carries`), which
its tree entry names (`Carries.exists_entry`). So the tree of the sections is loaded as the sections
themselves make a policy store (`isFaithful_of_publication`): nothing is lost, and requests are
decided as their queries are on the draft.
-/

import PolicyLedger.Authoring.SchemaFile
import PolicyLedger.Proofs.Authoring.Slots
import PolicyLedger.Proofs.Decision.Loading

namespace PolicyLedger.Authoring

variable {spec : Specification} {partition : String} {generated : Nat → String}

/-! ### What sections carry -/

/-- The object of a section stores the blob of an item, and its header and listing say the same. -/
structure Carries (spec : Specification) (partition : String) (codeType : CodeType)
    (made : SectionObject) (item : StoreItem) : Prop where
  oid : item.oid = made.object.oid
  content : Content.ofObject made.object = .ok (.blob item.blob)
  header : item.blob.header = spec.header item.codeId codeType
  info : made.info = spec.sectionMeta partition item.codeId codeType
  codeId : TreeEntry.IsField item.codeId

theorem carries_of_makeObject {codeId : String} {codeType : CodeType} {data : Bytes}
    {object : Object} {info : SectionMeta}
    (made : makeObject spec partition codeId codeType data = .ok (object, info))
    (field : TreeEntry.IsField codeId) (index : Nat) :
    Carries spec partition codeType ⟨index, object, info⟩
      ⟨object.oid, ⟨spec.header codeId codeType, data⟩⟩ := by
  obtain ⟨stored, framed, same⟩ := Steps.bind_eq_ok.mp made
  obtain ⟨rfl, rfl⟩ := Prod.mk.inj (Except.ok.inj same)
  exact ⟨rfl, Blob.content_of_toObject framed, rfl, rfl, field⟩

theorem exists_section?_of_mem {statements : List (List Char)} {index : Nat} {met : List String}
    {outcome : Except Error (Object × SectionMeta)}
    (inside : outcome ∈ outcomes spec partition generated index met statements) :
    ∃ before statement earlier,
      (section? spec partition before statement (generated earlier)).2 = outcome := by
  induction statements generalizing index met with
  | nil => cases inside
  | cons statement rest ih =>
    rw [outcomes] at inside
    obtain rfl | later := List.mem_cons.mp inside
    · exact ⟨met, statement, index, rfl⟩
    · exact ih later

theorem mem_of_mem_objects {path : String} {results : List (Except Error (Object × SectionMeta))}
    {made : SectionObject} (inside : made ∈ (fill path results).objects) :
    .ok (made.object, made.info) ∈ results := by
  rw [objects_fill] at inside
  obtain ⟨⟨outcome, index⟩, numbered, good⟩ := List.mem_filterMap.mp inside
  cases outcome with
  | error error => cases good
  | ok result =>
    obtain rfl := Option.some.inj good
    exact List.mem_of_getElem? (List.mk_mem_zipIdx_iff_getElem?.mp numbered)

/-- The good sections of a policy file carry policies. -/
theorem exists_carries_of_policyFile {path : String} {data : Bytes} {sections : Sections}
    (ids : ∀ index, IsGeneratedId (generated index))
    (file : policyFile spec generated partition path data = .ok sections) :
    ∃ items, List.Forall₂ (Carries spec partition .policy) sections.objects items := by
  refine Steps.exists_forall₂ fun made inside => ?_
  rw [policyFile] at file
  split at file
  · split at file
    · cases file
    next source decoded =>
      obtain rfl := Except.ok.inj file
      obtain ⟨before, statement, earlier, outcome⟩ :=
        exists_section?_of_mem (mem_of_mem_objects inside)
      rw [section?] at outcome
      split at outcome
      · cases outcome
      next named read =>
        split at outcome
        · cases outcome
        · have names := readStatement_eq_ok_iff.mp read
          exact ⟨_, carries_of_makeObject outcome (names.isCodeId (ids earlier)).field made.index⟩
  · cases file

/-- The good sections of a policy file list the ids of the policies that they hold. -/
theorem codeId_of_held {path : String} {data : Bytes} {sections : Sections}
    (ids : ∀ index, IsGeneratedId (generated index))
    (file : policyFile spec generated partition path data = .ok sections) {made : SectionObject}
    (inside : made ∈ sections.objects) {statements : List (List Char)} {named : NamedPolicy}
    (held : Holds spec generated statements made named) : made.info.codeId = named.codeId := by
  obtain ⟨items, carried⟩ := exists_carries_of_policyFile ids file
  obtain ⟨item, -, carries⟩ := Steps.exists_of_mem_left carried inside
  have same := Content.blob.inj (Except.ok.inj (carries.content.symm.trans held.content))
  rw [carries.info]
  show item.blob.header.codeId = _
  rw [same, named.header_blob]
  rfl

/-- The good sections of a schema file, if there is one. -/
inductive SchemaSections (spec : Specification) (partition : String) :
    Option Bytes → List SectionObject → Prop
  | missing : SchemaSections spec partition none []
  | file {path : String} {data : Bytes} {sections : Sections}
    (made : schemaFile spec partition path data = .ok sections) :
    SchemaSections spec partition (some data) sections.objects

/-- The good section of a schema file carries the bytes of the file. -/
theorem SchemaSections.exists_carries {data : Option Bytes} {schemas : List SectionObject}
    (sections : SchemaSections spec partition data schemas) :
    ∃ items, List.Forall₂ (Carries spec partition .schema) schemas items ∧
      ∀ item ∈ items, data = some item.blob.data := by
  cases sections with
  | missing => exact ⟨[], .nil, nofun⟩
  | @file path data sections made =>
    rw [schemaFile] at made
    split at made
    · obtain ⟨_, _, same⟩ := Steps.bind_eq_ok.mp made
      obtain rfl := Except.ok.inj same
      cases outcome : makeSchema spec partition data with
      | error error => exact ⟨[], .nil, nofun⟩
      | ok result =>
        obtain ⟨object, info⟩ := result
        rw [makeSchema] at outcome
        split at outcome
        · have carries := carries_of_makeObject outcome (by decide) 0
          exact ⟨_, .cons carries .nil, List.forall_mem_singleton.mpr rfl⟩
        · cases outcome
    · cases made

/-! ### Entries -/

theorem isField_checkedPath {path : String} (free : Text.hasBlank path = false) :
    TreeEntry.IsField (TreeEntry.checkedPath path) := by
  rw [TreeEntry.checkedPath]
  split
  · decide
  next filled => exact ⟨Bool.not_eq_true _ ▸ filled, free⟩

theorem isField_word (codeType : CodeType) : TreeEntry.IsField codeType.word := by
  cases codeType <;> decide

/-- A section in a partition without blanks has an entry, which lists its object. -/
theorem Carries.exists_entry {codeType : CodeType} {made : SectionObject} {item : StoreItem}
    (carries : Carries spec partition codeType made item)
    (free : Text.hasBlank partition = false) (language : TreeEntry.IsField spec.backendLanguage)
    (version : TreeEntry.IsField spec.languageVersion) {objects : List Object}
    (inside : made.object ∈ objects) :
    ∃ entry, made.entry = .ok entry ∧ entry.Lists spec objects item := by
  have named : ObjectId.isName made.object.oid.text = true := ObjectId.isName_of _
  let given : TreeEntry :=
    ⟨partition, .blob, made.object.oid, item.codeId, item.codeId, codeType.word,
      spec.backendLanguage, spec.languageVersion, codeType.word⟩
  have asked : made.entry = TreeEntry.check given := by
    rw [SectionObject.entry, carries.info]
    rfl
  have writable : TreeEntry.IsWritable { given with path := TreeEntry.checkedPath partition } :=
    { oid := named
      path := isField_checkedPath free
      name := carries.codeId
      codeId := carries.codeId
      codeType := isField_word codeType
      language := language
      languageVersion := version
      languageType := isField_word codeType }
  have accepted := (@TreeEntry.check_eq_ok_iff given _ named).mpr ⟨rfl, writable⟩
  refine ⟨_, asked.trans accepted, writable, rfl, carries.oid.symm,
    ⟨made.object, inside, carries.oid.symm, carries.content⟩, rfl, ?_, ?_⟩
  · rw [carries.header]
    rfl
  · rw [carries.header]
    rfl

/-- Sections of one partition with the items that they carry. -/
abbrev CarryAll (spec : Specification) (partition : String) :
    List SectionObject → List StoreItem → Prop :=
  List.Forall₂ fun made item => ∃ codeType, Carries spec partition codeType made item

/-- The entries of sections list their objects. -/
theorem CarryAll.exists_entries {published : List SectionObject} {items : List StoreItem}
    (carried : CarryAll spec partition published items) (free : Text.hasBlank partition = false)
    (language : TreeEntry.IsField spec.backendLanguage)
    (version : TreeEntry.IsField spec.languageVersion) :
    ∃ entries, published.mapM SectionObject.entry = .ok entries ∧
      List.Forall₂ (TreeEntry.Lists spec (published.map SectionObject.object)) entries items := by
  have inside : List.Forall₂ (fun made item =>
      made.object ∈ published.map SectionObject.object ∧
        ∃ codeType, Carries spec partition codeType made item) published items :=
    (List.forall₂_and_left _ _).mpr ⟨fun _ inside => List.mem_map_of_mem inside, carried⟩
  obtain ⟨entries, made, listed⟩ := Steps.exists_between
    (fun _ _ ⟨inside, _, carries⟩ => carries.exists_entry free language version inside) inside
  exact ⟨entries, Steps.mapM_eq_ok made, listed⟩

/-! ### Drafts -/

/-- The policy store of sections. -/
def draft (version : String) (published : List SectionObject) : Except Error PolicyStore :=
  published.foldlM (fun store made => do
    let content ← Content.ofObject made.object
    store.addContent made.object.oid content) { version := version }

theorem CarryAll.draft_eq {published : List SectionObject} {items : List StoreItem}
    (carried : CarryAll spec partition published items) (version : String) :
    draft version published = items.foldlM PolicyStore.addItem { version := version } := by
  refine Steps.foldlM_congr (carried.imp fun made item ⟨_, carries⟩ store => ?_) _
  rw [carries.content, PolicyStore.addItem, carries.oid]
  rfl

/-! ### Publications -/

/-- A policy store has the blobs of sections under their ids, and the bytes of the schema file. -/
structure Restores (policies schemas : List SectionObject) (schemaData : Option Bytes)
    (store : PolicyStore) : Prop where
  policies : List.Forall₂ (fun made item => item.oid = made.object.oid ∧
    Content.ofObject made.object = .ok (.blob item.blob)) policies store.policies
  schemas : List.Forall₂ (fun made item => item.oid = made.object.oid ∧
    Content.ofObject made.object = .ok (.blob item.blob)) schemas store.schemas
  schemaData : ∀ item ∈ store.schemas, schemaData = some item.blob.data

/-- The commit with an id is loaded with the blobs of sections, and a request that refers to it is
decided as its query is on the draft. -/
structure IsFaithful (policies schemas : List SectionObject) (schemaData : Option Bytes)
    (objects : Store) (id : ObjectId) : Prop where
  loads : ∃ store, PolicyStore.load objects Registry.standard.knows id = .ok store ∧
    store.version = id.text ∧ Restores policies schemas schemaData store
  decides : ∀ version drafted, Steps.Merges policies schemas drafted →
    ∃ store, draft version drafted = .ok store ∧
      ∀ config point request wording, DecisionPoint.make config .standard = .ok point →
        request.RefersTo id →
        point.authorize objects request wording =
          point.authorizeWith request.requestId store request.query wording

theorem Carries.artifactType? {codeType : CodeType} {made : SectionObject} {item : StoreItem}
    (carries : Carries spec partition codeType made item) :
    item.blob.header.artifactType? = some codeType.artifactType := by
  rw [carries.header]
  cases codeType <;> rfl

/-- Merged sections carry merged items. -/
theorem exists_carryAll {policies schemas merged : List SectionObject}
    {policyItems schemaItems : List StoreItem}
    (ofPolicies : List.Forall₂ (Carries spec partition .policy) policies policyItems)
    (ofSchemas : List.Forall₂ (Carries spec partition .schema) schemas schemaItems)
    (merges : Steps.Merges policies schemas merged) :
    ∃ items, Steps.Merges policyItems schemaItems items ∧ CarryAll spec partition merged items :=
  merges.exists_forall₂ (fun _ _ carries => ⟨.policy, carries⟩)
    (fun _ _ carries => ⟨.schema, carries⟩) ofPolicies ofSchemas

/-- Whatever the order of merged items, they make one store. -/
theorem foldlM_addItem_of_carries {policies schemas : List SectionObject}
    {policyItems schemaItems items : List StoreItem}
    (ofPolicies : List.Forall₂ (Carries spec partition .policy) policies policyItems)
    (ofSchemas : List.Forall₂ (Carries spec partition .schema) schemas schemaItems)
    (merges : Steps.Merges policyItems schemaItems items) (version : String) :
    items.foldlM PolicyStore.addItem { version := version } =
      .ok ⟨version, schemaItems, policyItems⟩ := by
  have policy : ∀ item ∈ policyItems, item.blob.header.artifactType? = some .policy := by
    intro item inside
    obtain ⟨made, _, carries⟩ := Steps.exists_of_mem_right ofPolicies inside
    exact carries.artifactType?
  have schema : ∀ item ∈ schemaItems, item.blob.header.artifactType? = some .schema := by
    intro item inside
    obtain ⟨made, _, carries⟩ := Steps.exists_of_mem_right ofSchemas inside
    exact carries.artifactType?
  exact PolicyStore.foldlM_addItem merges policy schema _

/-- What is loaded for sections and what they make directly are the same but for the version. -/
theorem isFaithful_of_load {policies schemas : List SectionObject} {schemaData : Option Bytes}
    {policyItems schemaItems items : List StoreItem}
    (ofPolicies : List.Forall₂ (Carries .cedar partition .policy) policies policyItems)
    (ofSchemas : List.Forall₂ (Carries .cedar partition .schema) schemas schemaItems)
    (sources : ∀ item ∈ schemaItems, schemaData = some item.blob.data)
    (merges : Steps.Merges policyItems schemaItems items) {objects : Store} {id : ObjectId}
    (named : ObjectId.isName id.text = true) (nonzero : id.isZero = false)
    (loads : PolicyStore.load objects Registry.standard.knows id =
      items.foldlM PolicyStore.addItem { version := id.text }) :
    IsFaithful policies schemas schemaData objects id := by
  have loaded := loads.trans (foldlM_addItem_of_carries ofPolicies ofSchemas merges id.text)
  constructor
  · refine ⟨_, loaded, rfl, ?_, ?_, sources⟩
    · exact ofPolicies.imp fun _ _ carries => ⟨carries.oid, carries.content⟩
    · exact ofSchemas.imp fun _ _ carries => ⟨carries.oid, carries.content⟩
  · intro version drafted merged
    obtain ⟨draftItems, mergedItems, carried⟩ := exists_carryAll ofPolicies ofSchemas merged
    have made := foldlM_addItem_of_carries ofPolicies ofSchemas mergedItems version
    refine ⟨_, (carried.draft_eq version).trans made, ?_⟩
    intro config point request wording configured refers
    obtain ⟨_, _, found⟩ := Steps.bind_eq_ok.mp configured
    obtain ⟨_, _, same⟩ := Steps.bind_eq_ok.mp found
    obtain rfl := Except.ok.inj same
    -- the two stores differ in their versions, which no check looks at
    exact DecisionPoint.authorize_eq_authorizeWith (refers.validate named nonzero) loaded rfl

/-- **Publishing loses nothing.** The good sections of a policy file and a schema file have entries.
If a tree accepts these, then the tree is stored, and so is any commit that names it. Wherever all of
this is stored, the commit is loaded with the blobs of the sections in their order, and a request
that refers to the commit is decided as its query is on the draft. -/
theorem isFaithful_of_publication {path : String} {data : Bytes} {policies : Sections}
    {schemaData : Option Bytes} {schemas published : List SectionObject}
    (free : Text.hasBlank partition = false) (ids : ∀ index, IsGeneratedId (generated index))
    (policyFile : policyFile .cedar generated partition path data = .ok policies)
    (nonempty : policies.objects ≠ [])
    (schemaFile : SchemaSections .cedar partition schemaData schemas)
    (merged : Steps.Merges policies.objects schemas published) :
    ∃ entries, published.mapM SectionObject.entry = .ok entries ∧
      ∀ tree, entries.foldlM Tree.add .empty = .ok tree → tree.payload.length < 4294967296 →
        ∃ treeObject, tree.toObject = .ok treeObject ∧
          ∀ parent author authored committer committed message commit,
            (∀ id, parent = some id → ObjectId.isName id.text = true) →
            Commit.make treeObject.oid parent author authored committer committed message =
              .ok commit →
            commit.encode.length < 4294967296 →
            ∃ commitObject, commit.toObject = .ok commitObject ∧
              ∀ stored, published.map SectionObject.object ++ [treeObject, commitObject] ⊆ stored →
                Object.HaveOwnIds stored →
                IsFaithful policies.objects schemas schemaData (Store.ofObjects stored)
                  commitObject.oid := by
  obtain ⟨policyItems, ofPolicies⟩ := exists_carries_of_policyFile ids policyFile
  obtain ⟨schemaItems, ofSchemas, sources⟩ := schemaFile.exists_carries
  obtain ⟨items, mergedItems, carried⟩ := exists_carryAll ofPolicies ofSchemas merged
  obtain ⟨entries, made, listed⟩ := carried.exists_entries free (by decide) (by decide)
  refine ⟨entries, made, fun tree accepted treeFits => ?_⟩
  obtain ⟨writable, lists⟩ := Tree.lists_of_foldlM listed accepted
  -- a tree without entries could not be stored
  have filled : tree.entries ≠ [] := by
    have publishes := merged.ne_nil nonempty
    rw [ne_eq, ← List.length_eq_zero_iff] at publishes ⊢
    rwa [lists.length_eq, ← carried.length_eq]
  obtain ⟨treeObject, treeStored⟩ := Tree.exists_toObject filled treeFits
  refine ⟨treeObject, treeStored, ?_⟩
  intro parent author authored committer committed message commit parentNamed committedTo fits
  obtain ⟨writableCommit, names⟩ :=
    Commit.isWritable_of_make committedTo (ObjectId.isName_of _) parentNamed
  obtain ⟨commitObject, commitStored⟩ := Commit.exists_toObject fits
  refine ⟨commitObject, commitStored, fun stored within own => ?_⟩
  have inside : commitObject ∈ stored := within (by simp)
  exact isFaithful_of_load ofPolicies ofSchemas sources mergedItems (ObjectId.isName_of _)
    (own.nonzero commitObject inside)
    (PolicyStore.load_of_lists lists writable treeStored writableCommit names commitStored within
      own (by decide))

/-! ### A policy and a schema -/

/-- The section of a policy that applies to every request. -/
def openSection : SectionObject where
  index := 0
  object :=
    { kind := .blob
      payload := (Specification.cedar.header "a" .policy).encode ++ storedBytes
        ⟨openPolicy .permit (.insert .empty idAnnotation (some "a")), "a"⟩
      fits := by decide +kernel }
  info := Specification.cedar.sectionMeta "" "a" .policy

/-- The section of a schema without declarations. -/
def emptySchema : SectionObject where
  index := 0
  object :=
    { kind := .blob
      payload :=
        (Specification.cedar.header schemaCodeId .schema).encode ++ Bytes.ofText "\x7b\x7d"
      fits := by decide +kernel }
  info := Specification.cedar.sectionMeta "" schemaCodeId .schema

/-- The tree of the two sections. -/
def openTree : Tree :=
  ⟨[⟨"/", .blob, ⟨"35ef29ce32347878269016dd56002e8a9f3a492c6d24e467850d76cd98a9a0cd"⟩,
      "a", "a", "policy", "cedar-json", "0.0", "policy"⟩,
    ⟨"/", .blob, ⟨"4d33a0563cec944afc210b7b826491ea0dc5d8acf8e72b70f640524497b4ef24"⟩,
      "schema", "schema", "schema", "cedar-json", "0.0", "schema"⟩]⟩

/-- The commit of this tree. -/
def openCommit : Commit where
  tree := ⟨"86bf3cf292e78cf5f8c28cb60bcdcef92e14f3c8516c3cd6b5d771751bb45e59"⟩
  parent := none
  author := ⟨"alice", ⟨0, 0⟩⟩
  committer := ⟨"alice", ⟨0, 0⟩⟩
  message := "publish"

theorem fits_openTree : openTree.payload.length < 4294967296 := by
  decide +kernel

theorem fits_openCommit : openCommit.encode.length < 4294967296 := by
  decide +kernel

/-- The object of the tree. -/
def openTreeObject : Object := ⟨.tree, openTree.payload, fits_openTree⟩

/-- The object of the commit. -/
def openCommitObject : Object := ⟨.commit, openCommit.encode, fits_openCommit⟩

/-- All objects of the publication. -/
def openObjects : List Object :=
  [openSection.object, emptySchema.object, openTreeObject, openCommitObject]

theorem oids_openObjects : openObjects.map Object.oid =
    [⟨"35ef29ce32347878269016dd56002e8a9f3a492c6d24e467850d76cd98a9a0cd"⟩,
      ⟨"4d33a0563cec944afc210b7b826491ea0dc5d8acf8e72b70f640524497b4ef24"⟩,
      ⟨"86bf3cf292e78cf5f8c28cb60bcdcef92e14f3c8516c3cd6b5d771751bb45e59"⟩,
      ⟨"486da901221ab401f763cd9c34067f9e38e298d3365cdd94d47e43557ce4ae2b"⟩] := by
  simp only [openObjects, List.map_cons, List.map_nil, List.cons.injEq, and_true]
  refine ⟨?_, ?_, ?_, ?_⟩ <;> decide +kernel

theorem policyFile_open : (policyFile .cedar (fun _ => "0123456789abcdef0123456789abcdef") ""
    "in.cedar" (Bytes.ofText "@id(\"a\") permit(principal, action, resource);")).map
      Sections.objects = .ok [openSection] := by
  decide +kernel

theorem schemaFile_empty :
    (schemaFile .cedar "" "schema.json" (Bytes.ofText "\x7b\x7d")).map Sections.objects =
      .ok [emptySchema] := by
  decide +kernel

theorem mapM_entry_open :
    [openSection, emptySchema].mapM SectionObject.entry = .ok openTree.entries := by
  have oids := oids_openObjects
  simp only [openObjects, List.map_cons, List.cons.injEq] at oids
  simp only [List.mapM_cons, List.mapM_nil, SectionObject.entry, oids.1, oids.2.1]
  rfl

theorem toObject_openTree : openTree.toObject = .ok openTreeObject := by
  have encoded : openTree.encode = .ok openTree.payload :=
    Tree.encode_eq_ok_iff.mpr ⟨List.cons_ne_nil _ _, rfl⟩
  have framed : Object.frame .tree openTree.payload = .ok openTreeObject := by
    rw [Object.frame, dif_pos fits_openTree, openTreeObject]
  rw [Tree.toObject]
  exact Steps.bind_eq_ok.mpr ⟨_, encoded, framed⟩

theorem toObject_openCommit : openCommit.toObject = .ok openCommitObject := by
  rw [Commit.toObject, Object.frame, dif_pos fits_openCommit, openCommitObject]

theorem make_openCommit :
    Commit.make openTreeObject.oid none "alice" ⟨0, 0⟩ "alice" ⟨0, 0⟩ "publish" =
      .ok openCommit := by
  have oids := oids_openObjects
  simp only [openObjects, List.map_cons, List.cons.injEq] at oids
  rw [oids.2.2.1]
  decide

/-- A policy and a schema in the root partition are published and loaded. -/
theorem isFaithful_of_openSections :
    IsFaithful [openSection] [emptySchema] (some (Bytes.ofText "\x7b\x7d"))
      (Store.ofObjects openObjects) openCommitObject.oid := by
  obtain ⟨policies, policyFile, policyObjects⟩ := Steps.map_eq_ok.mp policyFile_open
  obtain ⟨schemas, schemaFile, schemaObjects⟩ := Steps.map_eq_ok.mp schemaFile_empty
  have merged : Steps.Merges policies.objects schemas.objects [openSection, emptySchema] := by
    rw [policyObjects, schemaObjects]
    exact .left _ (.right _ .nil)
  have nonempty : policies.objects ≠ [] := policyObjects ▸ List.cons_ne_nil _ _
  obtain ⟨entries, made, publishes⟩ := isFaithful_of_publication (by decide)
    (fun _ => isGeneratedId_digits) policyFile nonempty (.file schemaFile) merged
  obtain rfl := Except.ok.inj (mapM_entry_open.symm.trans made)
  obtain ⟨treeObject, treeStored, commits⟩ :=
    publishes openTree (by decide +kernel) fits_openTree
  obtain rfl := Except.ok.inj (toObject_openTree.symm.trans treeStored)
  obtain ⟨commitObject, commitStored, restored⟩ :=
    commits none "alice" ⟨0, 0⟩ "alice" ⟨0, 0⟩ "publish" openCommit nofun make_openCommit
      fits_openCommit
  obtain rfl := Except.ok.inj (toObject_openCommit.symm.trans commitStored)
  rw [policyObjects, schemaObjects] at restored
  refine restored openObjects (fun _ inside => inside) (Object.haveOwnIds_of_nodup ?_ ?_)
  · rw [oids_openObjects]
    decide
  · rw [oids_openObjects]
    decide

end PolicyLedger.Authoring
