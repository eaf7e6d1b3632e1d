/-
**Unfolded trees.**

The entries of a tree and of the trees below it are listed depth first and from left to right
(`Lookup.Unfolds`). There is at most one such list (`Unfolds.unique`), and there is one just if the
unfolding ends.

* `addTree_of_unfolds` — loading a tree through enough levels visits the entries of this list one
  after the other, so the levels of the tree play no part in the result;
* `addTree_of_path` — in an object store the number of stored objects is enough: the trees on a path
  have lists of decreasing lengths, so their ids are distinct, and all of them are stored.
-/

import Mathlib.Data.List.Nodup
import Mathlib.Data.List.Perm.Subperm
import PolicyLedger.PolicyStore
import PolicyLedger.Proofs.Steps

namespace PolicyLedger

/-! ### The unfolding -/

namespace Lookup

variable {lookup : Lookup}

/-- The entries of a list, each of them in front of the entries of the tree that it links to. -/
inductive Unfolds (lookup : Lookup) : List TreeEntry → List TreeEntry → Prop
  | nil : Unfolds lookup [] []
  | subtree {entry : TreeEntry} {tree : Tree} {rest inner outer : List TreeEntry}
    (kind : entry.kind = .tree) (read : lookup.tree entry.oid = .ok tree)
    (below : Unfolds lookup tree.entries inner) (behind : Unfolds lookup rest outer) :
    Unfolds lookup (entry :: rest) (entry :: (inner ++ outer))
  | leaf {entry : TreeEntry} {rest outer : List TreeEntry}
    (ends : entry.kind = .tree → ∀ tree, lookup.tree entry.oid ≠ .ok tree)
    (behind : Unfolds lookup rest outer) : Unfolds lookup (entry :: rest) (entry :: outer)

theorem Unfolds.unique {entries visits others : List TreeEntry}
    (unfolds : lookup.Unfolds entries visits) (again : lookup.Unfolds entries others) :
    visits = others := by
  induction unfolds generalizing others with
  | nil => cases again; rfl
  | subtree kind read _ _ below behind =>
    cases again with
    | subtree _ readAgain inner outer =>
      obtain rfl := Except.ok.inj (read.symm.trans readAgain)
      rw [below inner, behind outer]
    | leaf ends _ => exact absurd read (ends kind _)
  | leaf ends _ behind =>
    cases again with
    | subtree kind read _ _ => exact absurd read (ends kind _)
    | leaf _ outer => rw [behind outer]

end Lookup

/-! ### Visits -/

namespace PolicyStore

variable {lookup : Lookup} {known : UInt32 → UInt32 → Bool} {entry : TreeEntry}
  {descend : TreeEntry → PolicyStore → Tree → Except Error PolicyStore}

/-- A store with what an entry itself adds: a subtree is read, but its entries are not added. -/
def visit (lookup : Lookup) (known : UInt32 → UInt32 → Bool) (store : PolicyStore)
    (entry : TreeEntry) : Except Error PolicyStore :=
  addLinked lookup known (fun _ store _ => .ok store) store entry

theorem addLinked_of_subtree {tree : Tree} (kind : entry.kind = .tree)
    (read : lookup.tree entry.oid = .ok tree) (store : PolicyStore) :
    addLinked lookup known descend store entry = descend entry store tree := by
  obtain ⟨object, found, decoded⟩ := Steps.bind_eq_ok.mp read
  rw [addLinked_tree known descend store found kind, decoded]
  rfl

/-- An entry without a subtree is added as it is visited. -/
theorem addLinked_of_leaf
    (ends : entry.kind = .tree → ∀ tree, lookup.tree entry.oid ≠ .ok tree) (store : PolicyStore) :
    addLinked lookup known descend store entry = visit lookup known store entry := by
  rw [visit]
  cases found : lookup entry.oid with
  | error =>
    rw [addLinked, addLinked, found]
    rfl
  | ok object =>
    cases kind : entry.kind with
    | blob => rw [addLinked_blob _ _ _ found kind, addLinked_blob _ _ _ found kind]
    | commit => rw [addLinked_commit _ _ _ found kind, addLinked_commit _ _ _ found kind]
    | tree =>
      cases read : Tree.ofObject object with
      | error =>
        rw [addLinked_tree _ _ _ found kind, addLinked_tree _ _ _ found kind, read]
        rfl
      | ok tree => exact absurd (Steps.bind_eq_ok.mpr ⟨object, found, read⟩) (ends kind tree)

/-- A commit whose tree is read is loaded as the tree is added. -/
theorem loadFrom_of_tree {id : ObjectId} {commit : Commit} {tree : Tree}
    (committed : lookup.commit id = .ok commit) (read : lookup.tree commit.tree = .ok tree)
    (known : UInt32 → UInt32 → Bool) {room : Nat} :
    loadFrom lookup known room id = addTree lookup known room { version := id.text } tree := by
  rw [loadFrom, committed]
  show (lookup.tree commit.tree >>= _) = _
  rw [read]
  rfl

theorem loadFrom_of_unread {id : ObjectId} {commit : Commit} {error : Error}
    (committed : lookup.commit id = .ok commit) (unread : lookup.tree commit.tree = .error error)
    (known : UInt32 → UInt32 → Bool) {room : Nat} :
    loadFrom lookup known room id = .error error := by
  rw [loadFrom, committed]
  show (lookup.tree commit.tree >>= _) = _
  rw [unread]
  rfl

/-! ### Levels -/

section Levels

variable {rest inner outer : List TreeEntry}

theorem foldlM_addLinked_of_subtree {tree : Tree} (kind : entry.kind = .tree)
    (read : lookup.tree entry.oid = .ok tree)
    (below : ∀ store, descend entry store tree = inner.foldlM (visit lookup known) store)
    (behind : ∀ store, rest.foldlM (addLinked lookup known descend) store =
      outer.foldlM (visit lookup known) store) (store : PolicyStore) :
    (entry :: rest).foldlM (addLinked lookup known descend) store =
      (entry :: (inner ++ outer)).foldlM (visit lookup known) store := by
  have visited : visit lookup known store entry = .ok store :=
    addLinked_of_subtree kind read store
  rw [List.foldlM_cons, List.foldlM_cons, addLinked_of_subtree kind read, below, visited]
  show _ = (inner ++ outer).foldlM (visit lookup known) store
  rw [List.foldlM_append]
  exact congrArg _ (funext behind)

theorem foldlM_addLinked_of_leaf
    (ends : entry.kind = .tree → ∀ tree, lookup.tree entry.oid ≠ .ok tree)
    (behind : ∀ store, rest.foldlM (addLinked lookup known descend) store =
      outer.foldlM (visit lookup known) store) (store : PolicyStore) :
    (entry :: rest).foldlM (addLinked lookup known descend) store =
      (entry :: outer).foldlM (visit lookup known) store := by
  rw [List.foldlM_cons, List.foldlM_cons, addLinked_of_leaf ends]
  exact congrArg _ (funext behind)

/-- **A tree is loaded as its unfolding is visited**, through enough levels. -/
theorem addTree_of_unfolds (known : UInt32 → UInt32 → Bool) {entries visits : List TreeEntry}
    (unfolds : lookup.Unfolds entries visits) :
    ∃ enough, ∀ room, enough ≤ room → ∀ store,
      addTree lookup known (room + 1) store ⟨entries⟩ =
        visits.foldlM (visit lookup known) store := by
  induction unfolds with
  | nil => exact ⟨0, fun _ _ _ => rfl⟩
  | subtree kind read _ _ below behind =>
    obtain ⟨deep, below⟩ := below
    obtain ⟨wide, behind⟩ := behind
    refine ⟨max (deep + 1) wide, fun room enough => ?_⟩
    obtain ⟨level, rfl⟩ : ∃ level, room = level + 1 := ⟨room - 1, by omega⟩
    exact foldlM_addLinked_of_subtree kind read (below level (by omega))
      (behind (level + 1) (by omega))
  | leaf ends _ behind =>
    obtain ⟨wide, behind⟩ := behind
    exact ⟨wide, fun room enough => foldlM_addLinked_of_leaf ends (behind room enough)⟩

end Levels

end PolicyStore

/-! ### Paths in an object store -/

namespace Store

variable {objects : Store}

theorem mem_keys_of_get {id : ObjectId} {object : Object} (found : objects.get id = .ok object) :
    id ∈ objects.rows.map Prod.fst := by
  rw [get] at found
  split at found
  · cases found
  next bytes there =>
    obtain ⟨before, after, rows, _⟩ := List.lookup_eq_some_iff.mp there
    rw [rows]
    simp

/-- Distinct ids of stored trees are no more than the stored objects. -/
theorem length_le_size {ids : List ObjectId} (distinct : ids.Nodup)
    (stored : ∀ id ∈ ids, ∃ tree, Lookup.tree objects.get id = .ok tree) :
    ids.length ≤ objects.size := by
  have keys : ids ⊆ objects.rows.map Prod.fst := by
    intro id inside
    obtain ⟨tree, read⟩ := stored id inside
    obtain ⟨object, found, _⟩ := Steps.bind_eq_ok.mp read
    exact mem_keys_of_get found
  have short := (distinct.subperm keys).length_le
  rwa [List.length_map] at short

end Store

namespace PolicyStore

/-- The ids of the trees on the way to some entries: they are distinct, and each tree has at least
as many entries below it as are left. -/
structure IsPath (objects : Store) (visits : List TreeEntry) (path : List ObjectId) : Prop where
  distinct : path.Nodup
  above : ∀ id ∈ path, ∃ tree others, Lookup.tree objects.get id = .ok tree ∧
    Lookup.Unfolds objects.get tree.entries others ∧ visits.length ≤ others.length

variable {objects : Store} {path : List ObjectId} {visits : List TreeEntry}

theorem IsPath.mono {fewer : List TreeEntry} (isPath : IsPath objects visits path)
    (few : fewer.length ≤ visits.length) : IsPath objects fewer path where
  distinct := isPath.distinct
  above id inside := by
    obtain ⟨tree, others, read, unfolds, long⟩ := isPath.above id inside
    exact ⟨tree, others, read, unfolds, Nat.le_trans few long⟩

/-- A tree that is linked to is on no path to the link. -/
theorem IsPath.cons {entry : TreeEntry} {tree : Tree} {inner outer : List TreeEntry}
    (isPath : IsPath objects (entry :: (inner ++ outer)) path)
    (read : Lookup.tree objects.get entry.oid = .ok tree)
    (below : Lookup.Unfolds objects.get tree.entries inner) :
    IsPath objects inner (entry.oid :: path) := by
  have fewer : inner.length < (entry :: (inner ++ outer)).length := by
    rw [List.length_cons, List.length_append]
    omega
  have fresh : entry.oid ∉ path := by
    intro inside
    obtain ⟨same, others, again, unfolds, long⟩ := isPath.above _ inside
    obtain rfl := Except.ok.inj (read.symm.trans again)
    rw [← below.unique unfolds] at long
    exact absurd fewer (Nat.not_lt_of_le long)
  refine ⟨List.nodup_cons.mpr ⟨fresh, isPath.distinct⟩, ?_⟩
  rw [List.forall_mem_cons]
  exact ⟨⟨tree, inner, read, below, Nat.le_refl _⟩, (isPath.mono (Nat.le_of_lt fewer)).above⟩

theorem IsPath.length_le (isPath : IsPath objects visits path) : path.length ≤ objects.size :=
  Store.length_le_size isPath.distinct fun id inside => by
    obtain ⟨tree, _, read, _, _⟩ := isPath.above id inside
    exact ⟨tree, read⟩

/-- **A stored tree is loaded as its unfolding is visited**, through as many levels as there are
objects beside those on the path to it. -/
theorem addTree_of_path (known : UInt32 → UInt32 → Bool) {entries : List TreeEntry}
    (unfolds : Lookup.Unfolds objects.get entries visits) (isPath : IsPath objects visits path)
    {room : Nat} (enough : objects.size ≤ path.length + room) (store : PolicyStore) :
    addTree objects.get known room store ⟨entries⟩ =
      visits.foldlM (visit objects.get known) store := by
  induction unfolds generalizing path room store with
  | nil => cases room <;> rfl
  | @subtree entry tree rest inner outer kind read unfolds _ below behind =>
    have deeper := isPath.cons read unfolds
    have bound := deeper.length_le
    rw [List.length_cons] at bound
    obtain ⟨level, rfl⟩ : ∃ level, room = level + 1 := ⟨room - 1, by omega⟩
    have fewer : outer.length ≤ (entry :: (inner ++ outer)).length := by
      rw [List.length_cons, List.length_append]
      omega
    refine foldlM_addLinked_of_subtree kind read (below deeper ?_)
      (behind (isPath.mono fewer) enough) store
    rw [List.length_cons]
    omega
  | leaf ends _ behind =>
    have rest := behind (isPath.mono (Nat.le_succ _)) enough
    cases room with
    | zero => exact foldlM_addLinked_of_leaf ends rest store
    | succ room => exact foldlM_addLinked_of_leaf ends rest store

end PolicyStore

end PolicyLedger
