/-
**What loading a commit gives.**

The entries below a commit are visited depth first and from left to right (`Lookup.Visits`). An
entry yields the blob that it names, or nothing if it links to a tree (`TreeEntry.Yields`), or it
fails for a reason of its own (`TreeEntry.Fails`). Both are said without the functions that load it,
and it does one of the two (`TreeEntry.yields_or_fails`).

* `Lookup.Loads`: every entry yields, and the policies and the schemas are the blobs yielded, in the
  order of the visits;
* `Lookup.Fails`: the commit or its tree cannot be read, or an entry fails after those before it
  yielded.

`PolicyStore.load_flattens` is the law: if the unfolding of the tree ends, loading gives exactly the
store that the entries yield, or the error of the first step that fails.
-/

import PolicyLedger.Language.Registry
import PolicyLedger.Proofs.Decision.Unfolding
import PolicyLedger.Proofs.Object.BlobRoundTrip
import PolicyLedger.Proofs.Object.CommitRoundTrip
import PolicyLedger.Proofs.Object.TreeRoundTrip

namespace PolicyLedger

/-- A language of a registry has a number and a version. -/
def Registry.Has (registry : Registry) (languageId versionId : UInt32) : Prop :=
  ∃ spec ∈ registry.toList,
    spec.backendLanguageId = languageId ∧ spec.languageVersionId = versionId

theorem Registry.knows_iff {registry : Registry} {languageId versionId : UInt32} :
    registry.knows languageId versionId = true ↔ registry.Has languageId versionId := by
  rw [knows, findBackend?, List.find?_isSome]
  simp [Has]

/-- An item is an artifact of a type. -/
def StoreItem.has (type : ArtifactType) (item : StoreItem) : Bool :=
  item.blob.header.artifactType? = some type

/-! ### Entries -/

namespace TreeEntry

variable {lookup : Lookup} {registry : Registry} {entry : TreeEntry}

/-- The blobs that an entry itself yields. A tree has been read, a blob has the code id of the
entry, is in a registered language and is a policy or a schema. -/
inductive Yields (lookup : Lookup) (registry : Registry) (entry : TreeEntry) :
    List StoreItem → Prop
  | subtree {tree : Tree} (kind : entry.kind = .tree) (read : lookup.tree entry.oid = .ok tree) :
    Yields lookup registry entry []
  | blob {object : Object} {blob : Blob} (kind : entry.kind = .blob)
    (found : lookup entry.oid = .ok object) (content : Content.ofObject object = .ok (.blob blob))
    (codeId : blob.header.codeId = entry.codeId)
    (language : registry.Has blob.header.languageId blob.header.languageVersionId)
    (artifact : blob.header.artifactType? = some .policy ∨
      blob.header.artifactType? = some .schema) :
    Yields lookup registry entry [⟨object.oid, blob⟩]

/-- The reasons for which an entry fails, each of them after the steps before it succeeded. -/
inductive Fails (lookup : Lookup) (registry : Registry) (entry : TreeEntry) : Error → Prop
  | missing {error : Error} (missing : lookup entry.oid = .error error) :
    Fails lookup registry entry error
  | commit {object : Object} (found : lookup entry.oid = .ok object)
    (kind : entry.kind = .commit) :
    Fails lookup registry entry (.treeEntry (.commitEntry entry.name))
  | subtree {object : Object} {error : Error} (found : lookup entry.oid = .ok object)
    (kind : entry.kind = .tree) (unread : Tree.ofObject object = .error error) :
    Fails lookup registry entry error
  | content {object : Object} {error : Error} (found : lookup entry.oid = .ok object)
    (kind : entry.kind = .blob) (unread : Content.ofObject object = .error error) :
    Fails lookup registry entry error
  | notABlob {object : Object} {content : Content} (found : lookup entry.oid = .ok object)
    (kind : entry.kind = .blob) (read : Content.ofObject object = .ok content)
    (other : content.kind ≠ .blob) :
    Fails lookup registry entry (.wrongKind .blob content.kind)
  | codeId {object : Object} {blob : Blob} (found : lookup entry.oid = .ok object)
    (kind : entry.kind = .blob) (read : Content.ofObject object = .ok (.blob blob))
    (codeId : blob.header.codeId ≠ entry.codeId) :
    Fails lookup registry entry
      (.treeEntry (.codeIdMismatch entry.codeId blob.header.codeId))
  | language {object : Object} {blob : Blob} (found : lookup entry.oid = .ok object)
    (kind : entry.kind = .blob) (read : Content.ofObject object = .ok (.blob blob))
    (codeId : blob.header.codeId = entry.codeId)
    (language : ¬ registry.Has blob.header.languageId blob.header.languageVersionId) :
    Fails lookup registry entry (.unknownLanguage
      (.ids blob.header.languageId.toNat blob.header.languageVersionId.toNat))
  | artifact {object : Object} {blob : Blob} (found : lookup entry.oid = .ok object)
    (kind : entry.kind = .blob) (read : Content.ofObject object = .ok (.blob blob))
    (codeId : blob.header.codeId = entry.codeId)
    (language : registry.Has blob.header.languageId blob.header.languageVersionId)
    (policy : blob.header.artifactType? ≠ some .policy)
    (schema : blob.header.artifactType? ≠ some .schema) :
    Fails lookup registry entry
      (.object (.notEvaluable blob.header.codeId blob.header.artifactTypeId.toNat))

/-- An entry yields or fails. -/
theorem yields_or_fails (lookup : Lookup) (registry : Registry) (entry : TreeEntry) :
    (∃ items, entry.Yields lookup registry items) ∨ ∃ error, entry.Fails lookup registry error := by
  cases found : lookup entry.oid with
  | error error => exact .inr ⟨error, .missing found⟩
  | ok object =>
    cases kind : entry.kind with
    | commit => exact .inr ⟨_, .commit found kind⟩
    | tree =>
      cases read : Tree.ofObject object with
      | error error => exact .inr ⟨error, .subtree found kind read⟩
      | ok tree =>
        exact .inl ⟨[], .subtree kind (Steps.bind_eq_ok.mpr ⟨object, found, read⟩)⟩
    | blob =>
      cases read : Content.ofObject object with
      | error error => exact .inr ⟨error, .content found kind read⟩
      | ok content =>
        cases content with
        | tree tree => exact .inr ⟨_, .notABlob found kind read nofun⟩
        | commit commit => exact .inr ⟨_, .notABlob found kind read nofun⟩
        | blob blob =>
          by_cases codeId : blob.header.codeId = entry.codeId
          · by_cases language : registry.Has blob.header.languageId blob.header.languageVersionId
            · by_cases policy : blob.header.artifactType? = some .policy
              · exact .inl ⟨_, .blob kind found read codeId language (.inl policy)⟩
              · by_cases schema : blob.header.artifactType? = some .schema
                · exact .inl ⟨_, .blob kind found read codeId language (.inr schema)⟩
                · exact .inr ⟨_, .artifact found kind read codeId language policy schema⟩
            · exact .inr ⟨_, .language found kind read codeId language⟩
          · exact .inr ⟨_, .codeId found kind read codeId⟩

end TreeEntry

/-! ### Visits -/

namespace PolicyStore

variable {lookup : Lookup} {registry : Registry} {entry : TreeEntry}

/-- A store with more items, policies and schemas each behind those of the store. -/
def extend (store : PolicyStore) (items : List StoreItem) : PolicyStore :=
  { store with
    schemas := store.schemas ++ items.filter (StoreItem.has .schema)
    policies := store.policies ++ items.filter (StoreItem.has .policy) }

theorem extend_nil (store : PolicyStore) : store.extend [] = store := by
  simp [extend]

theorem extend_append (store : PolicyStore) (first second : List StoreItem) :
    store.extend (first ++ second) = (store.extend first).extend second := by
  simp [extend]

theorem addBlob_eq_extend {oid : ObjectId} {blob : Blob}
    (artifact : blob.header.artifactType? = some .policy ∨
      blob.header.artifactType? = some .schema) (store : PolicyStore) :
    store.addBlob oid blob = .ok (store.extend [⟨oid, blob⟩]) := by
  obtain policy | schema := artifact
  · simp [addBlob, extend, StoreItem.has, policy]
  · simp [addBlob, extend, StoreItem.has, schema]

theorem addBlob_eq_error {oid : ObjectId} {blob : Blob}
    (policy : blob.header.artifactType? ≠ some .policy)
    (schema : blob.header.artifactType? ≠ some .schema) (store : PolicyStore) :
    store.addBlob oid blob =
      .error (.object (.notEvaluable blob.header.codeId blob.header.artifactTypeId.toNat)) := by
  rw [addBlob]
  split
  next same => exact absurd same policy
  next same => exact absurd same schema
  next => rfl

theorem visit_of_yields {items : List StoreItem} (yields : entry.Yields lookup registry items)
    (store : PolicyStore) :
    visit lookup registry.knows store entry = .ok (store.extend items) := by
  cases yields with
  | subtree kind read =>
    rw [extend_nil]
    exact addLinked_of_subtree kind read store
  | blob kind found content codeId language artifact =>
    rw [visit, addLinked_blob _ _ _ found kind, addEntry_blob _ _ content,
      if_neg (not_not.mpr codeId), if_pos (Registry.knows_iff.mpr language)]
    exact addBlob_eq_extend artifact store

theorem visit_of_fails {error : Error} (fails : entry.Fails lookup registry error)
    (store : PolicyStore) : visit lookup registry.knows store entry = .error error := by
  cases fails with
  | missing missing =>
    rw [visit, addLinked, missing]
    rfl
  | commit found kind => exact addLinked_commit _ _ _ found kind
  | subtree found kind unread =>
    rw [visit, addLinked_tree _ _ _ found kind, unread]
    rfl
  | content found kind unread =>
    rw [visit, addLinked_blob _ _ _ found kind, addEntry, unread]
    rfl
  | @notABlob object content found kind read other =>
    rw [visit, addLinked_blob _ _ _ found kind, addEntry, read]
    cases content with
    | blob => exact absurd rfl other
    | tree => rfl
    | commit => rfl
  | codeId found kind read codeId =>
    rw [visit, addLinked_blob _ _ _ found kind, addEntry_blob _ _ read, if_pos codeId]
  | language found kind read codeId language =>
    rw [visit, addLinked_blob _ _ _ found kind, addEntry_blob _ _ read,
      if_neg (not_not.mpr codeId), if_neg (mt Registry.knows_iff.mp language)]
  | artifact found kind read codeId language policy schema =>
    rw [visit, addLinked_blob _ _ _ found kind, addEntry_blob _ _ read,
      if_neg (not_not.mpr codeId), if_pos (Registry.knows_iff.mpr language)]
    exact addBlob_eq_error policy schema store

/-- Entries that all yield extend a store by what they yield. -/
theorem foldlM_visit_of_yields {visits : List TreeEntry} {items : List (List StoreItem)}
    (yields : List.Forall₂ (TreeEntry.Yields lookup registry) visits items)
    (store : PolicyStore) :
    visits.foldlM (visit lookup registry.knows) store = .ok (store.extend items.flatten) := by
  induction yields generalizing store with
  | nil => exact congrArg Except.ok (extend_nil store).symm
  | cons first _ ih =>
    rw [List.foldlM_cons, visit_of_yields first, List.flatten_cons, extend_append]
    exact ih _

/-- The first entry that fails ends the visits. -/
theorem foldlM_visit_of_fails {before after : List TreeEntry} {error : Error}
    (passed : ∀ entry ∈ before, ∃ items, entry.Yields lookup registry items)
    (fails : entry.Fails lookup registry error) (store : PolicyStore) :
    (before ++ entry :: after).foldlM (visit lookup registry.knows) store = .error error := by
  obtain ⟨items, yields⟩ := Steps.exists_forall₂ passed
  rw [List.foldlM_append, foldlM_visit_of_yields yields]
  show (visit lookup registry.knows _ entry >>= _) = _
  rw [visit_of_fails fails]
  rfl

end PolicyStore

/-! ### Commits -/

namespace Lookup

variable {lookup : Lookup} {registry : Registry} {id : ObjectId}

/-- The entries below a commit, as they are visited. -/
def Visits (lookup : Lookup) (id : ObjectId) (visits : List TreeEntry) : Prop :=
  ∃ commit tree, lookup.commit id = .ok commit ∧ lookup.tree commit.tree = .ok tree ∧
    lookup.Unfolds tree.entries visits

/-- The tree of a commit, if there is one, has an unfolding that ends. -/
def Ends (lookup : Lookup) (id : ObjectId) : Prop :=
  ∀ commit tree, lookup.commit id = .ok commit → lookup.tree commit.tree = .ok tree →
    ∃ visits, lookup.Unfolds tree.entries visits

/-- The tree of a commit has no unfolding but the one that is visited. -/
theorem Visits.unfolds {visits : List TreeEntry} {commit : Commit} {tree : Tree}
    (visited : lookup.Visits id visits) (committed : lookup.commit id = .ok commit)
    (read : lookup.tree commit.tree = .ok tree) : lookup.Unfolds tree.entries visits := by
  obtain ⟨_, _, committedAgain, readAgain, unfolds⟩ := visited
  obtain rfl := Except.ok.inj (committed.symm.trans committedAgain)
  obtain rfl := Except.ok.inj (read.symm.trans readAgain)
  exact unfolds

theorem Visits.ends {visits : List TreeEntry} (visited : lookup.Visits id visits) :
    lookup.Ends id := fun _ _ committed read => ⟨visits, visited.unfolds committed read⟩

/-- Every entry below a commit yields, and a store has the policies and the schemas among what they
yield. -/
def Loads (lookup : Lookup) (registry : Registry) (id : ObjectId) (store : PolicyStore) : Prop :=
  ∃ visits items, lookup.Visits id visits ∧
    List.Forall₂ (TreeEntry.Yields lookup registry) visits items ∧
    store = { version := id.text
              schemas := items.flatten.filter (StoreItem.has .schema)
              policies := items.flatten.filter (StoreItem.has .policy) }

/-- The first step that fails: the commit, its tree or an entry behind entries that yield. -/
inductive Fails (lookup : Lookup) (registry : Registry) (id : ObjectId) : Error → Prop
  | commit {error : Error} (unread : lookup.commit id = .error error) :
    Fails lookup registry id error
  | tree {commit : Commit} {error : Error} (read : lookup.commit id = .ok commit)
    (unread : lookup.tree commit.tree = .error error) : Fails lookup registry id error
  | entry {before after : List TreeEntry} {entry : TreeEntry} {error : Error}
    (visits : lookup.Visits id (before ++ entry :: after))
    (passed : ∀ earlier ∈ before, ∃ items, earlier.Yields lookup registry items)
    (fails : entry.Fails lookup registry error) : Fails lookup registry id error

/-- A result is the store that the entries yield, or the error of the first step that fails. -/
structure Decides (lookup : Lookup) (registry : Registry) (id : ObjectId)
    (result : Except Error PolicyStore) : Prop where
  loads : ∀ store, result = .ok store ↔ lookup.Loads registry id store
  fails : ∀ error, result = .error error ↔ lookup.Fails registry id error

/-- A commit loads or fails if the unfolding of its tree ends. -/
theorem loads_or_fails (registry : Registry) (ends : lookup.Ends id) :
    (∃ store, lookup.Loads registry id store) ∨ ∃ error, lookup.Fails registry id error := by
  cases committed : lookup.commit id with
  | error error => exact .inr ⟨error, .commit committed⟩
  | ok commit =>
    cases read : lookup.tree commit.tree with
    | error error => exact .inr ⟨error, .tree committed read⟩
    | ok tree =>
      obtain ⟨visits, unfolds⟩ := ends commit tree committed read
      have visited : lookup.Visits id visits := ⟨commit, tree, committed, read, unfolds⟩
      obtain passed | ⟨before, entry, after, rfl, passed, stuck⟩ := Steps.forall_or_exists_first
        (fun entry => ∃ items, TreeEntry.Yields lookup registry entry items) visits
      · obtain ⟨items, yields⟩ := Steps.exists_forall₂ passed
        exact .inl ⟨_, visits, items, visited, yields, rfl⟩
      · obtain yields | ⟨error, fails⟩ := entry.yields_or_fails lookup registry
        · exact absurd yields stuck
        · exact .inr ⟨error, .entry visited passed fails⟩

/-- What gives the store that loads and the error that fails gives nothing else, as one of the two
happens. -/
theorem decides_of {result : Except Error PolicyStore} (ends : lookup.Ends id)
    (loads : ∀ store, lookup.Loads registry id store → result = .ok store)
    (fails : ∀ error, lookup.Fails registry id error → result = .error error) :
    lookup.Decides registry id result := by
  obtain ⟨store, loaded⟩ | ⟨error, failed⟩ := lookup.loads_or_fails registry ends
  · have done := loads store loaded
    refine ⟨fun other => ⟨fun same => ?_, loads other⟩, fun error => ⟨fun same => ?_, fails error⟩⟩
    · exact Except.ok.inj (done.symm.trans same) ▸ loaded
    · cases done.symm.trans same
  · have done := fails error failed
    refine ⟨fun store => ⟨fun same => ?_, loads store⟩, fun other => ⟨fun same => ?_, fails other⟩⟩
    · cases done.symm.trans same
    · exact Except.error.inj (done.symm.trans same) ▸ failed

end Lookup

namespace PolicyStore

variable {lookup : Lookup} {registry : Registry} {id : ObjectId} {room : Nat}

/-- Loading a commit through a number of levels visits the entries below it. -/
def Reaches (lookup : Lookup) (registry : Registry) (id : ObjectId) (room : Nat) : Prop :=
  ∀ visits, lookup.Visits id visits → loadFrom lookup registry.knows room id =
    visits.foldlM (visit lookup registry.knows) { version := id.text }

/-- Enough levels reach every entry below a commit. -/
theorem exists_reaches (lookup : Lookup) (registry : Registry) (id : ObjectId) :
    ∃ enough, ∀ room, enough ≤ room → Reaches lookup registry id room := by
  by_cases ends : ∃ visits, lookup.Visits id visits
  · obtain ⟨_, commit, tree, committed, read, unfolds⟩ := ends
    obtain ⟨enough, same⟩ := addTree_of_unfolds registry.knows unfolds
    refine ⟨enough + 1, fun room wide visits visited => ?_⟩
    obtain rfl := unfolds.unique (visited.unfolds committed read)
    obtain ⟨level, rfl⟩ : ∃ level, room = level + 1 := ⟨room - 1, by omega⟩
    rw [loadFrom_of_tree committed read]
    exact same level (by omega) _
  · exact ⟨0, fun _ _ visits visited => absurd ⟨visits, visited⟩ ends⟩

/-- As many levels as there are objects reach every entry below a stored commit. -/
theorem reaches_size (objects : Store) (registry : Registry) (id : ObjectId) :
    Reaches objects.get registry id objects.size := by
  rintro visits ⟨commit, tree, committed, read, unfolds⟩
  have isPath : IsPath objects visits [commit.tree] :=
    ⟨List.nodup_singleton _, List.forall_mem_singleton.mpr
      ⟨tree, visits, read, unfolds, Nat.le_refl _⟩⟩
  rw [loadFrom_of_tree committed read]
  exact addTree_of_path registry.knows unfolds isPath (Nat.le_add_left _ _) _

theorem decides_loadFrom (ends : lookup.Ends id) (reaches : Reaches lookup registry id room) :
    lookup.Decides registry id (loadFrom lookup registry.knows room id) := by
  refine Lookup.decides_of ends ?_ ?_
  · rintro store ⟨visits, items, visited, yields, rfl⟩
    rw [reaches visits visited]
    exact foldlM_visit_of_yields yields _
  · intro error fails
    cases fails with
    | commit unread =>
      rw [loadFrom, unread]
      rfl
    | tree committed unread => exact loadFrom_of_unread committed unread _
    | entry visits passed fails =>
      rw [reaches _ visits]
      exact foldlM_visit_of_fails passed fails _

/-- **Loading flattens.** If the unfolding of its tree ends, a commit is loaded with the policies
and the schemas that the unfolding yields, in its order and as often as they are in it, or it fails
with the error of the first step that fails. This holds of objects from any source through enough
levels, and of every object store. -/
theorem load_flattens (registry : Registry) (id : ObjectId) :
    (∀ lookup : Lookup, lookup.Ends id → ∃ enough, ∀ room, enough ≤ room →
      lookup.Decides registry id (loadFrom lookup registry.knows room id)) ∧
    ∀ objects : Store, Lookup.Ends objects.get id →
      Lookup.Decides objects.get registry id (load objects registry.knows id) := by
  constructor
  · intro lookup ends
    obtain ⟨enough, reaches⟩ := exists_reaches lookup registry id
    exact ⟨enough, fun room wide => decides_loadFrom ends (reaches room wide)⟩
  · intro objects ends
    exact decides_loadFrom ends (reaches_size objects registry id)

/-! ### A policy in two trees -/

/-- A policy. -/
def sharedPolicy : Blob := ⟨⟨true, 2, 0, 2, "a", 2⟩, [0]⟩

/-- A schema. -/
def onlySchema : Blob := ⟨⟨true, 2, 0, 1, "schema", 1⟩, [0]⟩

/-- The policy in a tree. -/
def policyEntry : TreeEntry :=
  ⟨"/", .blob, ⟨"3f3aa14462dc30d58f0d153dd2c35552684260aa29ae497e5a83341b9a7708c8"⟩, "a", "a",
    "policy", "cedar-json", "0.0", "policy"⟩

/-- The schema in a tree. -/
def schemaEntry : TreeEntry :=
  ⟨"/", .blob, ⟨"3cabbf8b65550552a57bd9fd12d17137e4f22a466765bd47318e6e07f38295d5"⟩, "schema",
    "schema", "schema", "cedar-json", "0.0", "schema"⟩

/-- The tree of the policy. -/
def innerTree : Tree := ⟨[policyEntry]⟩

/-- The tree of the policy in a tree. -/
def innerEntry : TreeEntry :=
  ⟨"/", .tree, ⟨"94c00b575134a494e213901bc068816019c99c1799d9e7a23dae85c8c1dda1a0"⟩, "inner",
    "inner", "tree", "-", "-", "-"⟩

/-- The tree of the policy, the other tree and the schema. -/
def outerTree : Tree := ⟨[policyEntry, innerEntry, schemaEntry]⟩

/-- The commit of this tree. -/
def sharingCommit : Commit where
  tree := ⟨"4d5eda3846e7f5f09955238155e98b974d25ef4c82c8dbc87e9dc63b879b52e2"⟩
  parent := none
  author := ⟨"alice", ⟨0, 0⟩⟩
  committer := ⟨"alice", ⟨0, 0⟩⟩
  message := "share"

/-- The id of the commit. -/
def sharingId : ObjectId :=
  ⟨"b29c747e7ea79684bdc1e29d159ead1fa3268e5ba672c782aef3fa133962bddb"⟩

/-- The object of the policy. -/
def policyObject : Object :=
  ⟨.blob, sharedPolicy.header.encode ++ sharedPolicy.data, by decide +kernel⟩

/-- The object of the schema. -/
def schemaObject : Object :=
  ⟨.blob, onlySchema.header.encode ++ onlySchema.data, by decide +kernel⟩

/-- The object of the tree that is linked to. -/
def innerObject : Object := ⟨.tree, innerTree.payload, by decide +kernel⟩

/-- The object of the tree that links to it. -/
def outerObject : Object := ⟨.tree, outerTree.payload, by decide +kernel⟩

/-- The object of the commit. -/
def sharingObject : Object := ⟨.commit, sharingCommit.encode, by decide +kernel⟩

/-- The store of all of these. -/
def sharingStore : Store :=
  .ofObjects [policyObject, schemaObject, innerObject, outerObject, sharingObject]

theorem oids_sharing :
    [policyObject, schemaObject, innerObject, outerObject, sharingObject].map Object.oid =
      [policyEntry.oid, schemaEntry.oid, innerEntry.oid, sharingCommit.tree, sharingId] := by
  simp only [List.map_cons, List.map_nil, List.cons.injEq, and_true]
  refine ⟨?_, ?_, ?_, ?_, ?_⟩ <;> decide +kernel

theorem get_sharing : sharingStore.get policyEntry.oid = .ok policyObject ∧
    sharingStore.get schemaEntry.oid = .ok schemaObject ∧
    sharingStore.get innerEntry.oid = .ok innerObject ∧
    sharingStore.get sharingCommit.tree = .ok outerObject ∧
    sharingStore.get sharingId = .ok sharingObject := by
  have oids := oids_sharing
  have own : Object.HaveOwnIds
      [policyObject, schemaObject, innerObject, outerObject, sharingObject] := by
    refine Object.haveOwnIds_of_nodup ?_ ?_
    · rw [oids]
      decide
    · rw [oids]
      decide
  have found := fun object inside => Store.get_of_mem inside (own.distinct object inside)
  simp only [List.map_cons, List.map_nil, List.cons.injEq, and_true] at oids
  obtain ⟨policy, schema, inner, outer, commit⟩ := oids
  rw [← policy, ← schema, ← inner, ← outer, ← commit]
  refine ⟨found _ ?_, found _ ?_, found _ ?_, found _ ?_, found _ ?_⟩ <;> simp

theorem isWritable_policyEntry : policyEntry.IsWritable := by
  constructor <;> decide

theorem tree_innerEntry : Lookup.tree sharingStore.get innerEntry.oid = .ok innerTree := by
  have writable : innerTree.IsWritable :=
    ⟨List.forall_mem_singleton.mpr isWritable_policyEntry, List.pairwise_singleton _ _⟩
  refine Steps.bind_eq_ok.mpr ⟨innerObject, get_sharing.2.2.1, ?_⟩
  simp only [Tree.ofObject, innerObject, if_true]
  exact Tree.decode_payload writable (List.cons_ne_nil _ _)

theorem tree_sharingCommit :
    Lookup.tree sharingStore.get sharingCommit.tree = .ok outerTree := by
  have inner : innerEntry.IsWritable := by constructor <;> decide
  have schema : schemaEntry.IsWritable := by constructor <;> decide
  have writable : outerTree.IsWritable := by
    refine ⟨?_, by decide⟩
    rw [outerTree, List.forall_mem_cons, List.forall_mem_cons, List.forall_mem_singleton]
    exact ⟨isWritable_policyEntry, inner, schema⟩
  refine Steps.bind_eq_ok.mpr ⟨outerObject, get_sharing.2.2.2.1, ?_⟩
  simp only [Tree.ofObject, outerObject, if_true]
  exact Tree.decode_payload writable (List.cons_ne_nil _ _)

theorem commit_sharingId : Lookup.commit sharingStore.get sharingId = .ok sharingCommit := by
  have signed : sharingCommit.author.IsWritable := ⟨by decide, .inl rfl, by decide⟩
  have first : ∀ id, sharingCommit.parent = some id → ObjectId.isName id.text = true := by
    intro id parent
    cases parent
  refine Steps.bind_eq_ok.mpr ⟨sharingObject, get_sharing.2.2.2.2, ?_⟩
  simp only [Commit.ofObject, sharingObject, if_true]
  exact Commit.decode_encode ⟨by decide, first, signed, signed⟩

theorem visits_sharingId : Lookup.Visits sharingStore.get sharingId
    [policyEntry, innerEntry, policyEntry, schemaEntry] := by
  have policy : policyEntry.kind ≠ .tree := by decide
  have schema : schemaEntry.kind ≠ .tree := by decide
  exact ⟨sharingCommit, outerTree, commit_sharingId, tree_sharingCommit,
    .leaf (absurd · policy) (.subtree rfl tree_innerEntry (.leaf (absurd · policy) .nil)
      (.leaf (absurd · schema) .nil))⟩

theorem yields_policyEntry : policyEntry.Yields sharingStore.get .standard
    [⟨policyEntry.oid, sharedPolicy⟩] := by
  have stored : sharedPolicy.toObject = .ok policyObject := by decide +kernel
  have oids := oids_sharing
  simp only [List.map_cons, List.cons.injEq] at oids
  rw [← oids.1]
  exact .blob rfl get_sharing.1 (Blob.content_of_toObject stored) rfl
    ⟨.cedar, List.mem_cons_self, rfl, rfl⟩ (.inl rfl)

theorem yields_schemaEntry : schemaEntry.Yields sharingStore.get .standard
    [⟨schemaEntry.oid, onlySchema⟩] := by
  have stored : onlySchema.toObject = .ok schemaObject := by decide +kernel
  have oids := oids_sharing
  simp only [List.map_cons, List.cons.injEq] at oids
  rw [← oids.2.1]
  exact .blob rfl get_sharing.2.1 (Blob.content_of_toObject stored) rfl
    ⟨.cedar, List.mem_cons_self, rfl, rfl⟩ (.inr rfl)

theorem yields_sharingId : List.Forall₂ (TreeEntry.Yields sharingStore.get .standard)
    [policyEntry, innerEntry, policyEntry, schemaEntry]
    [[⟨policyEntry.oid, sharedPolicy⟩], [], [⟨policyEntry.oid, sharedPolicy⟩],
      [⟨schemaEntry.oid, onlySchema⟩]] :=
  .cons yields_policyEntry (.cons (.subtree rfl tree_innerEntry)
    (.cons yields_policyEntry (.cons yields_schemaEntry .nil)))

/-- The policy is loaded twice, once for each tree that it is in. -/
theorem load_sharingStore : Lookup.Ends sharingStore.get sharingId ∧
    load sharingStore Registry.standard.knows sharingId = .ok
      { version := sharingId.text
        schemas := [⟨schemaEntry.oid, onlySchema⟩]
        policies := [⟨policyEntry.oid, sharedPolicy⟩, ⟨policyEntry.oid, sharedPolicy⟩] } := by
  have ends := visits_sharingId.ends
  have decides := (load_flattens .standard sharingId).2 sharingStore ends
  exact ⟨ends, (decides.loads _).mpr ⟨_, _, visits_sharingId, yields_sharingId, rfl⟩⟩

end PolicyStore

end PolicyLedger
