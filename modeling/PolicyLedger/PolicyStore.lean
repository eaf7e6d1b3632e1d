/-
**Policy stores.**

A policy store holds the policies and schemas that one decision is made with, in the order in which
a tree and its subtrees name them. Loading a commit checks every entry on the way and stops at the
first that does not fit.

* `loadFrom` goes through a limited number of levels of trees, wherever the objects come from;
* `load` takes them from an object store and limits the levels by the number of stored objects,
  which suffices unless a tree contains itself.
-/

import PolicyLedger.History
import PolicyLedger.Object.Content

namespace PolicyLedger

/-- A blob with its name. -/
structure StoreItem where
  oid : ObjectId
  blob : Blob
  deriving DecidableEq

/-- Policies and schemas of one version. -/
structure PolicyStore where
  version : String
  schemas : List StoreItem := []
  policies : List StoreItem := []
  deriving DecidableEq

/-- What is found under each id. -/
abbrev Lookup := ObjectId → Except Error Object

namespace Lookup

/-- The commit under an id. -/
def commit (lookup : Lookup) (id : ObjectId) : Except Error Commit := do
  let object ← lookup id
  Commit.ofObject object

/-- The tree under an id. -/
def tree (lookup : Lookup) (id : ObjectId) : Except Error Tree := do
  let object ← lookup id
  Tree.ofObject object

end Lookup

namespace PolicyStore

/-- A store with one more blob, which must be a policy or a schema. -/
def addBlob (store : PolicyStore) (oid : ObjectId) (blob : Blob) : Except Error PolicyStore :=
  match blob.header.artifactType? with
  | some .policy => .ok { store with policies := store.policies ++ [⟨oid, blob⟩] }
  | some .schema => .ok { store with schemas := store.schemas ++ [⟨oid, blob⟩] }
  | _ =>
    .error (.object (.notEvaluable blob.header.codeId blob.header.artifactTypeId.toNat))

/-- A store with what one more object stores, which must be a blob. -/
def addContent (store : PolicyStore) (oid : ObjectId) : Content → Except Error PolicyStore
  | .blob blob => store.addBlob oid blob
  | content => .error (.wrongKind .blob content.kind)

/-- A store with the blob that a tree entry names. -/
def addEntry (known : UInt32 → UInt32 → Bool) (store : PolicyStore) (entry : TreeEntry)
    (object : Object) : Except Error PolicyStore := do
  match ← Content.ofObject object with
  | .blob blob =>
    let header := blob.header
    if header.codeId ≠ entry.codeId then
      throw (.treeEntry (.codeIdMismatch entry.codeId header.codeId))
    else if known header.languageId header.languageVersionId then store.addBlob object.oid blob
    else throw (.unknownLanguage (.ids header.languageId.toNat header.languageVersionId.toNat))
  | content => throw (.wrongKind .blob content.kind)

/-- A store with what a tree entry links to; `descend` adds the entries of a subtree. -/
def addLinked (lookup : Lookup) (known : UInt32 → UInt32 → Bool)
    (descend : TreeEntry → PolicyStore → Tree → Except Error PolicyStore) (store : PolicyStore)
    (entry : TreeEntry) : Except Error PolicyStore := do
  let object ← lookup entry.oid
  match entry.kind with
  | .tree =>
    let subtree ← Tree.ofObject object
    descend entry store subtree
  | .blob => addEntry known store entry object
  | .commit => throw (.treeEntry (.commitEntry entry.name))

/-- A store with the blobs of a tree and its subtrees, at most `room` levels deep; `known` holds of
the languages that are registered. -/
def addTree (lookup : Lookup) (known : UInt32 → UInt32 → Bool) :
    Nat → PolicyStore → Tree → Except Error PolicyStore
  | 0, store, tree =>
    tree.entries.foldlM
      (addLinked lookup known fun entry _ _ => throw (.treeEntry (.endless entry.name))) store
  | room + 1, store, tree =>
    tree.entries.foldlM (addLinked lookup known fun _ => addTree lookup known room) store

/-- The policies and schemas of a commit, through `room` levels of trees. -/
def loadFrom (lookup : Lookup) (known : UInt32 → UInt32 → Bool) (room : Nat) (id : ObjectId) :
    Except Error PolicyStore := do
  let commit ← lookup.commit id
  let tree ← lookup.tree commit.tree
  addTree lookup known room { version := id.text } tree

/-- The policies and schemas of a commit. -/
def load (objects : Store) (known : UInt32 → UInt32 → Bool) (id : ObjectId) :
    Except Error PolicyStore := loadFrom objects.get known objects.size id

/-! ### Kinds of entries -/

section Kinds

variable {lookup : Lookup} {entry : TreeEntry} {object : Object}
  (known : UInt32 → UInt32 → Bool)
  (descend : TreeEntry → PolicyStore → Tree → Except Error PolicyStore) (store : PolicyStore)

/-- A blob is checked before it is added. -/
theorem addEntry_blob {blob : Blob} (content : Content.ofObject object = .ok (.blob blob)) :
    addEntry known store entry object =
      if blob.header.codeId ≠ entry.codeId then
        .error (.treeEntry (.codeIdMismatch entry.codeId blob.header.codeId))
      else if known blob.header.languageId blob.header.languageVersionId then
        store.addBlob object.oid blob
      else
        .error (.unknownLanguage
          (.ids blob.header.languageId.toNat blob.header.languageVersionId.toNat)) := by
  unfold addEntry
  rw [content]
  rfl

variable (found : lookup entry.oid = .ok object)

include found

theorem addLinked_blob (kind : entry.kind = .blob) :
    addLinked lookup known descend store entry = addEntry known store entry object := by
  unfold addLinked
  rw [found, kind]
  rfl

/-- A subtree is read, and its entries are added. -/
theorem addLinked_tree (kind : entry.kind = .tree) :
    addLinked lookup known descend store entry =
      (Tree.ofObject object >>= descend entry store) := by
  unfold addLinked
  rw [found, kind]
  rfl

/-- A commit is refused. -/
theorem addLinked_commit (kind : entry.kind = .commit) :
    addLinked lookup known descend store entry =
      .error (.treeEntry (.commitEntry entry.name)) := by
  unfold addLinked
  rw [found, kind]
  rfl

end Kinds

end PolicyStore

end PolicyLedger
