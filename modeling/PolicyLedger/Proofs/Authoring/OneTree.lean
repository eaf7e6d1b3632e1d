/-
**Policies and schema in one tree.**

Every good section has a tree entry whose name is its code id. Of such entries a tree accepts one
after the other until a name is met again:

* `Tree.foldlM_add_cases` — all entries are added if no two of their names are the same; otherwise
  one with a repeated name is refused;
* `exists_entries_of_sections` — the code ids of one policy file are distinct and that of a schema
  is `schema`, so whatever the order, the entries are all added unless a policy calls itself
  `schema`; then the second of the two is refused.
-/

import PolicyLedger.Proofs.Authoring.Publication

namespace PolicyLedger

/-! ### Entries named by their code ids -/

/-- An entry's name is its code id. -/
def TreeEntry.GoesByCodeId (entry : TreeEntry) : Prop := entry.codeId = entry.name

/-- Checking an entry keeps its name and its code id. -/
theorem TreeEntry.name_of_check {given entry : TreeEntry} (accepted : check given = .ok entry)
    (named : ObjectId.isName given.oid.text = true) :
    entry.name = given.name ∧ entry.codeId = given.codeId := by
  obtain ⟨rfl, -⟩ := (check_eq_ok_iff named).mp accepted
  exact ⟨rfl, rfl⟩

namespace Tree

variable {tree : Tree} {entry : TreeEntry}

/-- Entries that go by their code ids stand beside each other unless they have one name. -/
theorem checkBeside_eq {present : TreeEntry} (named : entry.GoesByCodeId)
    (also : present.GoesByCodeId) : entry.checkBeside present =
      if present.name = entry.name then .error (.treeEntry (.duplicateName entry.name))
      else .ok () := by
  rw [TreeEntry.checkBeside, named, also]
  by_cases same : present.name = entry.name
  · rw [if_pos same, if_pos same]
  · rw [if_neg same, if_neg same, if_neg fun both => same both.1]

theorem forM_checkBeside {entries : List TreeEntry} (named : entry.GoesByCodeId)
    (also : ∀ present ∈ entries, present.GoesByCodeId) : entries.forM entry.checkBeside =
      if entry.name ∈ entries.map TreeEntry.name then
        .error (.treeEntry (.duplicateName entry.name))
      else .ok () := by
  induction entries with
  | nil => rfl
  | cons present rest ih =>
    rw [List.forall_mem_cons] at also
    show (entry.checkBeside present >>= fun _ => rest.forM entry.checkBeside) = _
    rw [checkBeside_eq named also.1, ih also.2, List.map_cons]
    by_cases same : present.name = entry.name
    · rw [if_pos same, if_pos (List.mem_cons.mpr (.inl same.symm))]
      rfl
    · rw [if_neg same]
      exact if_congr (List.mem_cons.trans (or_iff_right (Ne.symm same))).symm rfl rfl

/-- An entry that goes by its code id is added unless its name is there. -/
theorem add_eq (named : entry.GoesByCodeId)
    (also : ∀ present ∈ tree.entries, present.GoesByCodeId) : tree.add entry =
      if entry.name ∈ tree.entries.map TreeEntry.name then
        .error (.treeEntry (.duplicateName entry.name))
      else .ok ⟨tree.entries ++ [entry]⟩ := by
  rw [add, forM_checkBeside named also]
  split <;> rfl

/-- **Entries that go by their code ids** are all added if no two of the names are the same, and
otherwise one with a repeated name is refused. -/
theorem foldlM_add_cases {entries : List TreeEntry}
    (named : ∀ entry ∈ tree.entries ++ entries, entry.GoesByCodeId)
    (distinct : (tree.entries.map TreeEntry.name).Nodup) :
    ((tree.entries ++ entries).map TreeEntry.name).Nodup ∧
      entries.foldlM add tree = .ok ⟨tree.entries ++ entries⟩ ∨
    ∃ name, 2 ≤ ((tree.entries ++ entries).map TreeEntry.name).count name ∧
      entries.foldlM add tree = .error (.treeEntry (.duplicateName name)) := by
  induction entries generalizing tree with
  | nil =>
    rw [List.append_nil]
    exact .inl ⟨distinct, rfl⟩
  | cons entry entries ih =>
    obtain ⟨before, rest⟩ := List.forall_mem_append.mp named
    rw [List.foldlM_cons, add_eq (rest entry List.mem_cons_self) before]
    by_cases known : entry.name ∈ tree.entries.map TreeEntry.name
    · rw [if_pos known]
      refine .inr ⟨entry.name, ?_, rfl⟩
      have there := List.count_pos_iff.mpr known
      rw [List.map_append, List.map_cons, List.count_append, List.count_cons_self]
      omega
    · rw [if_neg known]
      rw [List.append_cons] at named ⊢
      refine @ih ⟨tree.entries ++ [entry]⟩ named ?_
      rw [List.map_append, List.map_singleton, ← List.concat_eq_append]
      exact distinct.concat known

end Tree

namespace Authoring

variable {spec : Specification} {partition : String} {generated : Nat → String}

/-! ### Names of sections -/

/-- A section that carries an item has an entry, and both go by the item's code id. -/
theorem Carries.exists_named_entry {codeType : CodeType} {made : SectionObject} {item : StoreItem}
    (carries : Carries spec partition codeType made item) (free : Text.hasBlank partition = false)
    (language : TreeEntry.IsField spec.backendLanguage)
    (version : TreeEntry.IsField spec.languageVersion) :
    ∃ entry, made.entry = .ok entry ∧ entry.GoesByCodeId ∧ entry.name = made.info.codeId := by
  obtain ⟨entry, entered, -⟩ :=
    carries.exists_entry free language version (List.mem_singleton_self made.object)
  obtain ⟨name, codeId⟩ := TreeEntry.name_of_check entered (ObjectId.isName_of _)
  have same : made.info.name = made.info.codeId := by
    rw [carries.info]
    rfl
  exact ⟨entry, entered, codeId.trans (same.symm.trans name.symm), name.trans same⟩

/-- The code ids of one policy file are distinct. -/
theorem nodup_codeIds_policyFile {path : String} {data : Bytes} {sections : Sections}
    (ids : ∀ index, IsGeneratedId (generated index))
    (file : policyFile spec generated partition path data = .ok sections) :
    (sections.objects.map fun made => made.info.codeId).Nodup := by
  obtain ⟨_, nameds, -, holds, distinct⟩ := holds_policyFile file
  rw [map_codeId_of_holds holds fun made inside named held => codeId_of_held ids file inside held]
  exact distinct

/-- A schema file has at most one good section, which goes by `schema`. -/
theorem codeIds_schemaFile {path : String} {data : Bytes} {sections : Sections}
    (file : schemaFile spec partition path data = .ok sections) (good : sections.objects ≠ []) :
    (sections.objects.map fun made => made.info.codeId) = [schemaCodeId] := by
  rw [schemaFile] at file
  split at file
  · obtain ⟨_, -, same⟩ := Steps.bind_eq_ok.mp file
    obtain rfl := Except.ok.inj same
    cases outcome : makeSchema spec partition data with
    | error error =>
      rw [outcome] at good
      exact absurd rfl good
    | ok result =>
      rw [makeSchema] at outcome
      split at outcome
      · obtain ⟨object, -, same⟩ := Steps.bind_eq_ok.mp outcome
        obtain rfl := Except.ok.inj same
        rfl
      · cases outcome
  · cases file

section Published

variable {path schemaPath : String} {data schemaData : Bytes} {policies schemas : Sections}
  {published : List SectionObject}

/-- Policy sections and the schema's have entries, whose names are the code ids of the policies and
`schema`. -/
theorem exists_named_entries (free : Text.hasBlank partition = false)
    (ids : ∀ index, IsGeneratedId (generated index))
    (file : policyFile .cedar generated partition path data = .ok policies)
    (schema : schemaFile .cedar partition schemaPath schemaData = .ok schemas)
    (good : schemas.objects ≠ []) (ordered : published.Perm (policies.objects ++ schemas.objects)) :
    ∃ entries, published.mapM SectionObject.entry = .ok entries ∧
      (∀ entry ∈ entries, entry.GoesByCodeId) ∧
      (entries.map TreeEntry.name).Perm
        ((policies.objects.map fun made => made.info.codeId) ++ [schemaCodeId]) := by
  obtain ⟨policyItems, ofPolicies⟩ := exists_carries_of_policyFile ids file
  obtain ⟨schemaItems, ofSchemas, -⟩ := (SchemaSections.file schema).exists_carries
  have entered : ∀ made ∈ published, ∃ entry, made.entry = .ok entry ∧ entry.GoesByCodeId ∧
      entry.name = made.info.codeId := by
    intro made inside
    obtain policy | schema := List.mem_append.mp (ordered.subset inside)
    · obtain ⟨_, -, carries⟩ := Steps.exists_of_mem_left ofPolicies policy
      exact carries.exists_named_entry free (by decide) (by decide)
    · obtain ⟨_, -, carries⟩ := Steps.exists_of_mem_left ofSchemas schema
      exact carries.exists_named_entry free (by decide) (by decide)
  obtain ⟨entries, pairs⟩ := Steps.exists_forall₂ entered
  refine ⟨entries, Steps.mapM_eq_ok (pairs.imp fun _ _ pair => pair.1), ?_, ?_⟩
  · intro entry inside
    obtain ⟨_, -, pair⟩ := Steps.exists_of_mem_right pairs inside
    exact pair.2.1
  · have names : entries.map TreeEntry.name = published.map fun made => made.info.codeId := by
      rw [← List.forall₂_eq_eq_eq, List.forall₂_map_left_iff, List.forall₂_map_right_iff]
      exact pairs.flip.imp fun _ _ pair => pair.2.2
    rw [names, ← codeIds_schemaFile schema good, ← List.map_append]
    exact ordered.map _

/-- **Policies and schema in one tree.** The good sections of a policy file and the section of a
schema file have entries. In any order, all of the entries are added to the empty tree if no policy
goes by `schema`. If one does, then it or the schema, whichever is the second, is refused. -/
theorem exists_entries_of_sections (free : Text.hasBlank partition = false)
    (ids : ∀ index, IsGeneratedId (generated index))
    (file : policyFile .cedar generated partition path data = .ok policies)
    (schema : schemaFile .cedar partition schemaPath schemaData = .ok schemas)
    (good : schemas.objects ≠ []) (ordered : published.Perm (policies.objects ++ schemas.objects)) :
    ∃ entries, published.mapM SectionObject.entry = .ok entries ∧
      ((∀ made ∈ policies.objects, made.info.codeId ≠ schemaCodeId) →
        entries.foldlM Tree.add .empty = .ok ⟨entries⟩) ∧
      ((∃ made ∈ policies.objects, made.info.codeId = schemaCodeId) →
        entries.foldlM Tree.add .empty =
          .error (.treeEntry (.duplicateName schemaCodeId))) := by
  obtain ⟨entries, made, named, names⟩ := exists_named_entries free ids file schema good ordered
  have distinct := nodup_codeIds_policyFile ids file
  have added := @Tree.foldlM_add_cases .empty entries named List.nodup_nil
  refine ⟨entries, made, fun apart => ?_, fun ⟨made, inside, clash⟩ => ?_⟩
  · obtain ⟨-, all⟩ | ⟨name, twice, -⟩ := added
    · exact all
    · have once : (entries.map TreeEntry.name).Nodup := by
        refine names.nodup_iff.mpr (distinct.append (List.nodup_singleton _) ?_)
        rw [List.disjoint_singleton, List.mem_map]
        exact fun ⟨made, inside, same⟩ => apart made inside same
      exact absurd (List.nodup_iff_count_le_one.mp once name) (Nat.not_le_of_lt twice)
  · have met : schemaCodeId ∈ policies.objects.map fun made => made.info.codeId :=
      clash ▸ List.mem_map_of_mem inside
    obtain ⟨once, -⟩ | ⟨name, twice, refused⟩ := added
    · exact absurd ((List.nodup_append.mp (names.nodup_iff.mp once)).2.2 _ met _
        List.mem_cons_self) (not_not.mpr rfl)
    · -- a policy's own name is met once, so the name that is repeated is the schema's
      have few := List.nodup_iff_count_le_one.mp distinct name
      have counted := names.count_eq name
      rw [List.count_append, List.count_singleton] at counted
      split at counted
      next same => rw [refused, beq_iff_eq.mp same]
      next =>
        have atMost : (entries.map TreeEntry.name).count name ≤ 1 := by omega
        exact absurd twice (Nat.not_le_of_lt (Nat.lt_succ_of_le atMost))

end Published

/-- A schema and a policy are listed in one tree, the schema first. -/
theorem exists_entries_of_openSection :
    ∃ entries, [emptySchema, openSection].mapM SectionObject.entry = .ok entries ∧
      entries.foldlM Tree.add .empty = .ok ⟨entries⟩ := by
  obtain ⟨policies, file, policyObjects⟩ := Steps.map_eq_ok.mp policyFile_open
  obtain ⟨schemas, schema, schemaObjects⟩ := Steps.map_eq_ok.mp schemaFile_empty
  have good : schemas.objects ≠ [] := schemaObjects ▸ List.cons_ne_nil _ _
  have ordered : [emptySchema, openSection].Perm (policies.objects ++ schemas.objects) := by
    rw [policyObjects, schemaObjects]
    exact .swap _ _ _
  obtain ⟨entries, made, fits, -⟩ := exists_entries_of_sections (by decide)
    (fun _ => isGeneratedId_digits) file schema good ordered
  refine ⟨entries, made, fits ?_⟩
  rw [policyObjects, List.forall_mem_singleton]
  decide

/-- The section of a policy that calls itself `schema`. -/
def schemaPolicy : SectionObject where
  index := 0
  object :=
    { kind := .blob
      payload := (Specification.cedar.header schemaCodeId .policy).encode ++ storedBytes
        ⟨openPolicy .permit (.insert .empty idAnnotation (some schemaCodeId)), schemaCodeId⟩
      fits := by decide +kernel }
  info := Specification.cedar.sectionMeta "" schemaCodeId .policy

/-- A policy may call itself `schema`, but a tree with its entry refuses that of the schema. -/
theorem clash_of_schemaPolicy :
    (policyFile .cedar (fun _ => "0123456789abcdef0123456789abcdef") "" "in.cedar"
      (Bytes.ofText "@id(\"schema\") permit(principal, action, resource);")).map
        Sections.objects = .ok [schemaPolicy] ∧
    (schemaFile .cedar "" "schema.json" (Bytes.ofText "\x7b\x7d")).map Sections.objects =
      .ok [emptySchema] ∧
    (do
      let entries ← [schemaPolicy, emptySchema].mapM SectionObject.entry
      entries.foldlM Tree.add .empty) = .error (.treeEntry (.duplicateName "schema")) := by
  decide +kernel

end Authoring

end PolicyLedger
