/-
**What objects store.**

An object stores a blob, a tree or a commit, as its kind says. `Content.ofObject` reads whichever it
is, and fails exactly as the reader of that kind fails.
-/

import PolicyLedger.Object.Blob
import PolicyLedger.Tree
import PolicyLedger.Commit

namespace PolicyLedger

/-- The three kinds of stored values. -/
inductive Content
  | blob (blob : Blob)
  | tree (tree : Tree)
  | commit (commit : Commit)
  deriving DecidableEq

namespace Content

/-- The value that an object stores. -/
def ofObject (object : Object) : Except Error Content :=
  match object.kind with
  | .blob => Content.blob <$> Blob.decode object.payload
  | .tree => Content.tree <$> Tree.decode object.payload
  | .commit => Content.commit <$> Commit.decode object.payload

/-- The kind of the objects that store a value. -/
def kind : Content → ObjectKind
  | blob _ => .blob
  | tree _ => .tree
  | commit _ => .commit

end Content

end PolicyLedger
