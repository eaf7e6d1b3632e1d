/-
**Policies that are loaded.**

A tree of blobs is loaded entry by entry: if every entry names a stored blob of its code id in a
known language (`Names`), loading adds these blobs in their order (`addTree_eq`), as if they had been
added directly. A check looks at nothing but the policies (`check_congr`), so a request is decided by
the commit that it refers to as its query is decided on the same policies at hand
(`authorize_eq_authorizeWith`).
-/

import PolicyLedger.Proofs.Decision.PolicySet
import PolicyLedger.Proofs.Object.CommitRoundTrip
import PolicyLedger.Proofs.Object.TreeRoundTrip

namespace PolicyLedger

/-! ### Entries and items -/

namespace TreeEntry

/-- An entry of a tree names a stored blob in a known language, whose code id it has. -/
structure Names (objects : Store) (known : UInt32 → UInt32 → Bool) (entry : TreeEntry)
    (item : StoreItem) : Prop where
  kind : entry.kind = .blob
  stored : ∃ object, objects.get entry.oid = .ok object ∧ object.oid = item.oid ∧
    Content.ofObject object = .ok (.blob item.blob)
  codeId : entry.codeId = item.codeId
  language : known item.blob.header.languageId item.blob.header.languageVersionId = true

/-- An entry is written for one of some objects, which holds the blob of an item in a language. -/
structure Lists (spec : Specification) (objects : List Object) (entry : TreeEntry)
    (item : StoreItem) : Prop where
  writable : entry.IsWritable
  kind : entry.kind = .blob
  oid : entry.oid = item.oid
  object : ∃ object ∈ objects, object.oid = item.oid ∧
    Content.ofObject object = .ok (.blob item.blob)
  codeId : entry.codeId = item.codeId
  language : item.blob.header.languageId = spec.backendLanguageId
  version : item.blob.header.languageVersionId = spec.languageVersionId

/-- An entry names the object that it is written for if the object is stored under its own id. -/
theorem Lists.names {spec : Specification} {objects stored : List Object} {entry : TreeEntry}
    {item : StoreItem} (lists : entry.Lists spec objects item) (within : objects ⊆ stored)
    (own : Object.HaveOwnIds stored) {known : UInt32 → UInt32 → Bool}
    (registered : known spec.backendLanguageId spec.languageVersionId = true) :
    entry.Names (Store.ofObjects stored) known item := by
  obtain ⟨object, inside, oid, content⟩ := lists.object
  have found := Store.get_of_mem (within inside) (own.distinct object (within inside))
  refine ⟨lists.kind, ⟨object, ?_, oid, content⟩, lists.codeId, ?_⟩
  · rw [lists.oid, ← oid, found]
  · rw [lists.language, lists.version, registered]

end TreeEntry

/-- A tree that accepts entries one after the other lists what they list. -/
theorem Tree.lists_of_foldlM {spec : Specification} {objects : List Object}
    {entries : List TreeEntry} {items : List StoreItem}
    (listed : List.Forall₂ (TreeEntry.Lists spec objects) entries items) {tree : Tree}
    (accepted : entries.foldlM add empty = .ok tree) :
    tree.IsWritable ∧ List.Forall₂ (TreeEntry.Lists spec objects) tree.entries items := by
  have written : ∀ entry ∈ entries, entry.IsWritable := by
    intro entry inside
    obtain ⟨_, _, lists⟩ := Steps.exists_of_mem_left listed inside
    exact lists.writable
  obtain ⟨writable, same⟩ := isWritable_of_foldlM written isWritable_empty accepted
  refine ⟨writable, ?_⟩
  rw [same]
  exact listed

namespace PolicyStore

/-- A store with one more item. -/
def addItem (store : PolicyStore) (item : StoreItem) : Except Error PolicyStore :=
  store.addBlob item.oid item.blob

variable {objects : Store} {known : UInt32 → UInt32 → Bool}

theorem addEntry_eq {store : PolicyStore} {entry : TreeEntry} {item : StoreItem} {object : Object}
    (names : entry.Names objects known item) (oid : object.oid = item.oid)
    (content : Content.ofObject object = .ok (.blob item.blob)) :
    addEntry known store entry object = store.addItem item := by
  have codeId : ¬ item.blob.header.codeId ≠ entry.codeId := not_not.mpr names.codeId.symm
  rw [addEntry_blob known store content, if_neg codeId, if_pos names.language, oid]
  rfl

theorem addLinked_eq {store : PolicyStore} {entry : TreeEntry} {item : StoreItem}
    {descend : TreeEntry → PolicyStore → Tree → Except Error PolicyStore}
    (names : entry.Names objects known item) :
    addLinked objects.get known descend store entry = store.addItem item := by
  obtain ⟨object, stored, oid, content⟩ := names.stored
  rw [addLinked_blob known descend store stored names.kind]
  exact addEntry_eq names oid content

/-- **A tree of blobs is loaded** as if its blobs had been added one after the other. -/
theorem addTree_eq {tree : Tree} {items : List StoreItem}
    (names : List.Forall₂ (TreeEntry.Names objects known) tree.entries items) (room : Nat)
    (store : PolicyStore) :
    addTree objects.get known room store tree = items.foldlM addItem store := by
  cases room with
  | zero => exact Steps.foldlM_congr (names.imp fun _ _ first _ => addLinked_eq first) store
  | succ room => exact Steps.foldlM_congr (names.imp fun _ _ first _ => addLinked_eq first) store

/-- Policies and schemas are added behind those of a store, in whatever order they come. -/
theorem foldlM_addItem {policies schemas items : List StoreItem}
    (merged : Steps.Merges policies schemas items)
    (policy : ∀ item ∈ policies, item.blob.header.artifactType? = some .policy)
    (schema : ∀ item ∈ schemas, item.blob.header.artifactType? = some .schema)
    (store : PolicyStore) :
    items.foldlM addItem store = .ok { store with
      schemas := store.schemas ++ schemas
      policies := store.policies ++ policies } := by
  induction merged generalizing store with
  | nil =>
    rw [List.append_nil, List.append_nil]
    rfl
  | @left item policies schemas items _ ih =>
    rw [List.forall_mem_cons] at policy
    have added : store.addItem item = .ok { store with policies := store.policies ++ [item] } := by
      rw [addItem, addBlob, policy.1]
    rw [List.foldlM_cons, added, List.append_cons store.policies item policies]
    exact ih policy.2 schema _
  | @right item policies schemas items _ ih =>
    rw [List.forall_mem_cons] at schema
    have added : store.addItem item = .ok { store with schemas := store.schemas ++ [item] } := by
      rw [addItem, addBlob, schema.1]
    rw [List.foldlM_cons, added, List.append_cons store.schemas item schemas]
    exact ih policy schema.2 _

/-- What is loaded for a commit that is stored with its tree. -/
theorem load_eq {id : ObjectId} {object : Object} {commit : Commit} {tree : Tree}
    {items : List StoreItem} (committed : objects.commit id = .ok commit)
    (stored : objects.get commit.tree = .ok object) (read : Tree.ofObject object = .ok tree)
    (names : List.Forall₂ (TreeEntry.Names objects known) tree.entries items) :
    load objects known id = items.foldlM addItem { version := id.text } := by
  have found : Lookup.tree objects.get commit.tree = .ok tree :=
    Steps.bind_eq_ok.mpr ⟨object, stored, read⟩
  rw [load, loadFrom, show Lookup.commit objects.get id = .ok commit from committed]
  show (Lookup.tree objects.get commit.tree >>= _) = _
  rw [found]
  exact addTree_eq names objects.size _

end PolicyStore

/-! ### Stored commits -/

/-- **A stored commit is loaded** as if the blobs that its tree lists had been added directly. -/
theorem PolicyStore.load_of_lists {spec : Specification} {objects stored : List Object}
    {tree : Tree} {commit : Commit} {treeObject commitObject : Object} {items : List StoreItem}
    (listed : List.Forall₂ (TreeEntry.Lists spec objects) tree.entries items)
    (writableTree : tree.IsWritable) (treeStored : tree.toObject = .ok treeObject)
    (writableCommit : commit.IsWritable) (names : commit.tree = treeObject.oid)
    (commitStored : commit.toObject = .ok commitObject)
    (within : objects ++ [treeObject, commitObject] ⊆ stored) (own : Object.HaveOwnIds stored)
    {known : UInt32 → UInt32 → Bool}
    (registered : known spec.backendLanguageId spec.languageVersionId = true) :
    load (Store.ofObjects stored) known commitObject.oid =
      items.foldlM addItem { version := commitObject.oid.text } := by
  obtain ⟨blobs, others⟩ := List.append_subset.mp within
  have treeInside : treeObject ∈ stored := others List.mem_cons_self
  have commitInside : commitObject ∈ stored :=
    others (List.mem_cons_of_mem _ List.mem_cons_self)
  have treeFound := Store.get_of_mem treeInside (own.distinct treeObject treeInside)
  have commitFound := Store.get_of_mem commitInside (own.distinct commitObject commitInside)
  have committed : (Store.ofObjects stored).commit commitObject.oid = .ok commit := by
    rw [Store.commit, commitFound]
    exact Commit.ofObject_of_toObject writableCommit commitStored
  refine load_eq committed (names ▸ treeFound)
    (Tree.ofObject_of_toObject writableTree treeStored) ?_
  exact listed.imp fun _ _ lists => lists.names blobs own registered

/-! ### Requests -/

/-- A check looks at the policies of a store. -/
theorem Specification.check_congr {spec : Specification} {store other : PolicyStore}
    (same : store.policies = other.policies) (requestId : String) (query : AccessQuery) :
    spec.check requestId store query = spec.check requestId other query := by
  have collected : spec.policySet store = spec.policySet other := by
    rw [policySet, policySet, same]
  rw [check, check, collected]

/-- A request refers to a commit of some ledger. -/
structure AuthorizationRequest.RefersTo (request : AuthorizationRequest) (id : ObjectId) :
    Prop where
  account : request.policyStore.accountId ≠ 0
  ledger : Text.isBlankText request.policyStore.ledgerId = false
  commit : Text.trimmed request.policyStore.commitId = id.text

theorem AuthorizationRequest.RefersTo.validate {request : AuthorizationRequest} {id : ObjectId}
    (refers : request.RefersTo id) (named : ObjectId.isName id.text = true)
    (nonzero : id.isZero = false) : request.policyStore.validate = .ok id := by
  have ledger : requireText "ledger id" request.policyStore.ledgerId = .ok () := by
    rw [requireText, refers.ledger]
    rfl
  rw [PolicyStoreRef.validate, if_neg refers.account, ledger]
  simp only [refers.commit, named, nonzero, if_true, Bool.false_eq_true, if_false]
  rfl

/-- **A request is decided by its commit** as its query is on the same policies at hand. -/
theorem DecisionPoint.authorize_eq_authorizeWith {point : DecisionPoint} {objects : Store}
    {request : AuthorizationRequest} {wording : Wording} {id : ObjectId}
    {loaded draft : PolicyStore} (valid : request.policyStore.validate = .ok id)
    (done : PolicyStore.load objects point.registry.knows id = .ok loaded)
    (same : loaded.policies = draft.policies) :
    point.authorize objects request wording =
      point.authorizeWith request.requestId draft request.query wording := by
  have decided : point.decide objects.get objects.size request =
      point.language.check request.requestId draft request.query := by
    rw [decide_of_named valid, ← PolicyStore.load, done]
    exact Specification.check_congr same _ _
  rw [authorize, authorizeFrom, authorizeWith, decided]

end PolicyLedger
