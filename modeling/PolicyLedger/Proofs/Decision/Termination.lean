/-
**Loading ends.**

A run of loading adds the entries of a tree one after the other, and for an entry that links to a
tree it calls itself for that tree (`PolicyStore.Runs`). Nothing limits these calls but the trees; a
run tells how deep they are nested. Loading through a limited number of levels gives what the run
gives if the levels suffice (`PolicyStore.Runs.addTree_eq`), and stops for want of levels if they do
not (`PolicyStore.Runs.stopsWith_addTree`).

In a store where no tree reaches itself through links (`Lookup.IsAcyclic`), the trees on the way
down to a tree are all different ones (`Store.IsWay`), so there are no more of them than objects, and
every stored tree has a run: `PolicyStore.runs_of_isAcyclic`.
-/

import Mathlib.Logic.Relation
import PolicyLedger.Proofs.Decision.Flattening
import PolicyLedger.Proofs.Decision.Levels
import PolicyLedger.Proofs.Object.Frame
import PolicyLedger.Proofs.Object.Puts

namespace PolicyLedger

open Steps (StopsWith FailsWith failsWith_ok failsWith_error)

namespace PolicyStore

variable {lookup : Lookup} {known : UInt32 → UInt32 → Bool}

/-! ### Runs -/

/-- A run that adds the entries of a tree to a store: how deep the calls are nested, the first one
included, and how it ends. -/
inductive Runs (lookup : Lookup) (known : UInt32 → UInt32 → Bool) :
    PolicyStore → List TreeEntry → Nat → Except Error PolicyStore → Prop
  | done {store : PolicyStore} : Runs lookup known store [] 1 (.ok store)
  | added {store next : PolicyStore} {entry : TreeEntry} {rest : List TreeEntry} {depth : Nat}
    {result : Except Error PolicyStore}
    (leaf : entry.kind = .tree → ∀ tree, lookup.tree entry.oid ≠ .ok tree)
    (visited : visit lookup known store entry = .ok next)
    (behind : Runs lookup known next rest depth result) :
    Runs lookup known store (entry :: rest) depth result
  | refused {store : PolicyStore} {entry : TreeEntry} {rest : List TreeEntry} {error : Error}
    (leaf : entry.kind = .tree → ∀ tree, lookup.tree entry.oid ≠ .ok tree)
    (visited : visit lookup known store entry = .error error) :
    Runs lookup known store (entry :: rest) 1 (.error error)
  | called {store next : PolicyStore} {entry : TreeEntry} {tree : Tree} {rest : List TreeEntry}
    {inner outer : Nat} {result : Except Error PolicyStore} (kind : entry.kind = .tree)
    (read : lookup.tree entry.oid = .ok tree)
    (below : Runs lookup known store tree.entries inner (.ok next))
    (behind : Runs lookup known next rest outer result) :
    Runs lookup known store (entry :: rest) (max (inner + 1) outer) result
  | failed {store : PolicyStore} {entry : TreeEntry} {tree : Tree} {rest : List TreeEntry}
    {inner : Nat} {error : Error} (kind : entry.kind = .tree)
    (read : lookup.tree entry.oid = .ok tree)
    (below : Runs lookup known store tree.entries inner (.error error)) :
    Runs lookup known store (entry :: rest) (inner + 1) (.error error)

variable {store : PolicyStore} {entries : List TreeEntry} {depth : Nat}
  {result : Except Error PolicyStore}

/-- The first call counts. -/
theorem Runs.pos (runs : Runs lookup known store entries depth result) : 0 < depth := by
  induction runs with
  | done => exact Nat.one_pos
  | added _ _ _ ih => exact ih
  | refused => exact Nat.one_pos
  | called _ _ _ _ _ behind => exact Nat.lt_of_lt_of_le behind (Nat.le_max_right _ _)
  | failed => exact Nat.succ_pos _

/-! ### Levels -/

/-- What is done with a subtree if there is a number of levels below: it is added through them, or
there is none. -/
def descend (lookup : Lookup) (known : UInt32 → UInt32 → Bool) :
    Nat → TreeEntry → PolicyStore → Tree → Except Error PolicyStore
  | 0 => fun entry _ _ => .error (.treeEntry (.endless entry.name))
  | room + 1 => fun _ => addTree lookup known room

theorem addTree_eq_foldlM (room : Nat) (store : PolicyStore) (tree : Tree) :
    addTree lookup known room store tree =
      tree.entries.foldlM (addLinked lookup known (descend lookup known room)) store := by
  cases room <;> rfl

section Entries

variable {entry : TreeEntry} (rest : List TreeEntry) (room : Nat) (store : PolicyStore)

theorem addTree_of_leaf (leaf : entry.kind = .tree → ∀ tree, lookup.tree entry.oid ≠ .ok tree) :
    addTree lookup known room store ⟨entry :: rest⟩ =
      visit lookup known store entry >>= fun next => addTree lookup known room next ⟨rest⟩ := by
  rw [addTree_eq_foldlM, List.foldlM_cons, addLinked_of_leaf leaf]
  exact congrArg _ (funext fun next => (addTree_eq_foldlM room next ⟨rest⟩).symm)

theorem addTree_of_subtree {tree : Tree} (kind : entry.kind = .tree)
    (read : lookup.tree entry.oid = .ok tree) :
    addTree lookup known room store ⟨entry :: rest⟩ =
      descend lookup known room entry store tree >>= fun next =>
        addTree lookup known room next ⟨rest⟩ := by
  rw [addTree_eq_foldlM, List.foldlM_cons, addLinked_of_subtree kind read]
  exact congrArg _ (funext fun next => (addTree_eq_foldlM room next ⟨rest⟩).symm)

end Entries

/-- **Enough levels give what the run gives.** -/
theorem Runs.addTree_eq (runs : Runs lookup known store entries depth result) {room : Nat}
    (enough : depth ≤ room + 1) : addTree lookup known room store ⟨entries⟩ = result := by
  induction runs generalizing room with
  | done => cases room <;> rfl
  | added leaf visited _ behind =>
    rw [addTree_of_leaf _ _ _ leaf, visited]
    exact behind enough
  | refused leaf visited =>
    rw [addTree_of_leaf _ _ _ leaf, visited]
    rfl
  | @called store next entry tree rest inner outer result kind read runs _ below behind =>
    have positive := runs.pos
    obtain ⟨level, rfl⟩ : ∃ level, room = level + 1 := ⟨room - 1, by omega⟩
    have added : descend lookup known (level + 1) entry store tree = .ok next :=
      below (by omega)
    rw [addTree_of_subtree _ _ _ kind read, added]
    exact behind (by omega)
  | @failed store entry tree rest inner error kind read runs below =>
    have positive := runs.pos
    obtain ⟨level, rfl⟩ : ∃ level, room = level + 1 := ⟨room - 1, by omega⟩
    have stopped : descend lookup known (level + 1) entry store tree = .error error :=
      below (by omega)
    rw [addTree_of_subtree _ _ _ kind read, stopped]
    rfl

/-- A subtree for which the levels do not suffice stops the entries. -/
theorem stopsWith_descend {entry : TreeEntry} {tree : Tree}
    (below : ∀ room, room + 1 < depth →
      StopsWith Error.IsEndless (addTree lookup known room store tree)) {room : Nat}
    (short : room < depth) :
    StopsWith Error.IsEndless (descend lookup known room entry store tree) := by
  cases room with
  | zero => exact ⟨_, rfl, entry.name, rfl⟩
  | succ room => exact below room short

/-- **Fewer levels do not suffice.** -/
theorem Runs.stopsWith_addTree (runs : Runs lookup known store entries depth result) (room : Nat)
    (short : room + 1 < depth) :
    StopsWith Error.IsEndless (addTree lookup known room store ⟨entries⟩) := by
  induction runs generalizing room with
  | done => omega
  | added leaf visited _ behind =>
    rw [addTree_of_leaf _ _ _ leaf, visited]
    exact behind room short
  | refused => omega
  | @called store next entry tree rest inner outer result kind read runs _ below behind =>
    rw [addTree_of_subtree _ _ _ kind read]
    by_cases less : room < inner
    · exact (stopsWith_descend below less).bind _
    · have positive := runs.pos
      obtain ⟨level, rfl⟩ : ∃ level, room = level + 1 := ⟨room - 1, by omega⟩
      have added : descend lookup known (level + 1) entry store tree = .ok next :=
        runs.addTree_eq (by omega)
      rw [added]
      exact behind _ (by omega)
  | failed kind read _ below =>
    rw [addTree_of_subtree _ _ _ kind read]
    exact (stopsWith_descend below (by omega)).bind _

/-! ### Errors of a run -/

/-- An error that has nothing to do with levels. -/
def Passes (error : Error) : Prop := ¬ error.IsEndless

theorem passes_of_isMalformed {error : Error} (malformed : error.IsMalformed) : Passes error := by
  rintro ⟨name, rfl⟩
  obtain ⟨_, same⟩ | ⟨_, same, other⟩ := malformed
  · cases same
  · cases same
    exact other name rfl

theorem passes_object (cause : ObjectFault) : Passes (.object cause) :=
  passes_of_isMalformed (Error.isMalformed_object cause)

theorem failsWith_read (bytes : Bytes) : FailsWith Passes (Object.read bytes) := by
  rw [Object.read]
  split
  · exact failsWith_error (passes_object _)
  · split
    · exact failsWith_error (passes_object _)
    · dsimp only
      split
      · exact failsWith_error (passes_object _)
      · split
        · exact failsWith_error (passes_object _)
        · split
          · rw [Object.frame]
            split
            · exact failsWith_ok _
            · exact failsWith_error (by rintro ⟨_, ⟨⟩⟩)
          · exact failsWith_error (passes_object _)

theorem failsWith_get (objects : Store) (id : ObjectId) : FailsWith Passes (objects.get id) := by
  rw [Store.get]
  split
  · exact failsWith_error (by rintro ⟨_, ⟨⟩⟩)
  · refine (failsWith_read _).bind fun object => ?_
    split
    · exact failsWith_ok _
    · exact failsWith_error (passes_object _)

theorem failsWith_addEntry (store : PolicyStore) (entry : TreeEntry) (object : Object) :
    FailsWith Passes (addEntry known store entry object) := by
  have content : FailsWith Passes (Content.ofObject object) := fun error fails =>
    passes_of_isMalformed (Content.failsOnPayload_ofObject object error fails)
  refine content.bind fun content => ?_
  cases content with
  | tree => exact failsWith_error (by rintro ⟨_, ⟨⟩⟩)
  | commit => exact failsWith_error (by rintro ⟨_, ⟨⟩⟩)
  | blob blob =>
    dsimp only
    split
    · exact failsWith_error (by rintro ⟨_, ⟨⟩⟩)
    · split
      · rw [addBlob]
        split
        · exact failsWith_ok _
        · exact failsWith_ok _
        · exact failsWith_error (passes_object _)
      · exact failsWith_error (by rintro ⟨_, ⟨⟩⟩)

theorem failsWith_visit (found : ∀ id, FailsWith Passes (lookup id)) (store : PolicyStore)
    (entry : TreeEntry) : FailsWith Passes (visit lookup known store entry) := by
  rw [visit, addLinked]
  refine (found entry.oid).bind fun object => ?_
  cases entry.kind with
  | blob => exact failsWith_addEntry store entry object
  | commit => exact failsWith_error (by rintro ⟨_, ⟨⟩⟩)
  | tree =>
    have read : FailsWith Passes (Tree.ofObject object) := by
      rw [Tree.ofObject]
      split
      · exact fun error fails =>
          passes_of_isMalformed (Tree.failsOnPayload_decode object.payload error fails)
      · exact failsWith_error (by rintro ⟨_, ⟨⟩⟩)
    exact read.bind fun _ => failsWith_ok _

/-- A run does not end for want of levels. -/
theorem Runs.not_stopsWith (found : ∀ id, FailsWith Passes (lookup id))
    (runs : Runs lookup known store entries depth result) :
    ¬ StopsWith Error.IsEndless result := by
  induction runs with
  | done => exact Steps.not_stopsWith_ok _
  | added _ _ _ ih => exact ih
  | refused _ visited =>
    rintro ⟨_, ⟨⟩, endless⟩
    exact failsWith_visit found _ _ _ visited endless
  | called _ _ _ _ _ behind => exact behind
  | failed _ _ _ below => exact below

end PolicyStore

/-! ### Acyclic stores -/

/-- A stored tree links to another id by an entry for a tree. -/
def Lookup.Links (lookup : Lookup) (id other : ObjectId) : Prop :=
  ∃ tree, lookup.tree id = .ok tree ∧ ∃ entry ∈ tree.entries, entry.kind = .tree ∧ entry.oid = other

/-- No tree reaches itself through links. -/
def Lookup.IsAcyclic (lookup : Lookup) : Prop := ∀ id, ¬ Relation.TransGen lookup.Links id id

namespace Store

variable {objects : Store} {above : List ObjectId} {id : ObjectId}

/-- The way down to a tree: the ids of the trees above it, which all reach it and are stored, as it
is, and all of them are different. -/
structure IsWay (objects : Store) (above : List ObjectId) (id : ObjectId) : Prop where
  distinct : (id :: above).Nodup
  stored : ∀ other ∈ id :: above, ∃ tree, Lookup.tree objects.get other = .ok tree
  reaches : ∀ other ∈ above, Relation.TransGen (Lookup.Links objects.get) other id

theorem isWay_nil {tree : Tree} (read : Lookup.tree objects.get id = .ok tree) :
    objects.IsWay [] id :=
  ⟨List.nodup_singleton id, List.forall_mem_singleton.mpr ⟨tree, read⟩, nofun⟩

/-- Without cycles a link leads to a tree that is not on the way to it. -/
theorem IsWay.cons (acyclic : Lookup.IsAcyclic objects.get) (way : objects.IsWay above id)
    {next : ObjectId} {tree : Tree} (link : Lookup.Links objects.get id next)
    (read : Lookup.tree objects.get next = .ok tree) : objects.IsWay (id :: above) next := by
  have reaches : ∀ other ∈ id :: above, Relation.TransGen (Lookup.Links objects.get) other next :=
    List.forall_mem_cons.mpr ⟨.single link, fun other inside => (way.reaches other inside).tail link⟩
  exact ⟨List.nodup_cons.mpr ⟨fun inside => acyclic next (reaches next inside), way.distinct⟩,
    List.forall_mem_cons.mpr ⟨⟨tree, read⟩, way.stored⟩, reaches⟩

/-- There are no more trees on a way than objects. -/
theorem IsWay.length_lt (way : objects.IsWay above id) : above.length < objects.size :=
  length_le_size way.distinct way.stored

end Store

namespace PolicyStore

variable {lookup : Lookup} {known : UInt32 → UInt32 → Bool}

/-- Entries have a run if the trees that they link to have one. -/
theorem exists_runs {bound : Nat} {entries : List TreeEntry}
    (below : ∀ entry ∈ entries, entry.kind = .tree → ∀ tree, lookup.tree entry.oid = .ok tree →
      ∀ store, ∃ depth result, Runs lookup known store tree.entries depth result ∧ depth ≤ bound)
    (store : PolicyStore) :
    ∃ depth result, Runs lookup known store entries depth result ∧ depth ≤ bound + 1 := by
  induction entries generalizing store with
  | nil => exact ⟨1, .ok store, .done, Nat.le_add_left 1 bound⟩
  | cons entry rest ih =>
    rw [List.forall_mem_cons] at below
    by_cases subtree : entry.kind = .tree ∧ ∃ tree, lookup.tree entry.oid = .ok tree
    · obtain ⟨kind, tree, read⟩ := subtree
      obtain ⟨inner, ended, runs, within⟩ := below.1 kind tree read store
      cases ended with
      | error error => exact ⟨inner + 1, .error error, .failed kind read runs, by omega⟩
      | ok next =>
        obtain ⟨outer, result, others, fits⟩ := ih below.2 next
        exact ⟨max (inner + 1) outer, result, .called kind read runs others, by omega⟩
    · have leaf : entry.kind = .tree → ∀ tree, lookup.tree entry.oid ≠ .ok tree :=
        fun kind tree read => subtree ⟨kind, tree, read⟩
      cases visited : visit lookup known store entry with
      | error error => exact ⟨1, .error error, .refused leaf visited, Nat.le_add_left 1 bound⟩
      | ok next =>
        obtain ⟨depth, result, others, fits⟩ := ih below.2 next
        exact ⟨depth, result, .added leaf visited others, fits⟩

/-- **A tree at the end of a way has a run**, whose calls and the trees above it are together no
more than the objects. -/
theorem exists_runs_of_isWay {objects : Store} (acyclic : Lookup.IsAcyclic objects.get)
    {above : List ObjectId} {id : ObjectId} (way : objects.IsWay above id) {tree : Tree}
    (read : Lookup.tree objects.get id = .ok tree) {room : Nat}
    (enough : objects.size ≤ above.length + room) (store : PolicyStore) :
    ∃ depth result, Runs objects.get known store tree.entries depth result ∧
      above.length + depth ≤ objects.size := by
  -- by induction on the number of objects that are left for the trees below
  induction room generalizing above id tree store with
  | zero => exact absurd way.length_lt (Nat.not_lt_of_le enough)
  | succ room ih =>
    have inside := way.length_lt
    have below : ∀ entry ∈ tree.entries, entry.kind = .tree →
        ∀ subtree, Lookup.tree objects.get entry.oid = .ok subtree → ∀ store,
          ∃ depth result, Runs objects.get known store subtree.entries depth result ∧
            depth ≤ objects.size - (above.length + 1) := by
      intro entry listed kind subtree readBelow store
      have link : Lookup.Links objects.get id entry.oid := ⟨tree, read, entry, listed, kind, rfl⟩
      have deeper := way.cons acyclic link readBelow
      obtain ⟨depth, result, runs, within⟩ :=
        ih deeper readBelow (by rw [List.length_cons]; omega) store
      rw [List.length_cons] at within
      exact ⟨depth, result, runs, by omega⟩
    obtain ⟨depth, result, runs, within⟩ := exists_runs below store
    exact ⟨depth, result, runs, by omega⟩

/-- **Loading ends.** If no tree of an object store reaches itself through links, a run that adds
the entries of a stored tree ends, whatever languages are registered and whatever store it begins
with, and its calls are never nested deeper than there are objects. Loading the tree through a number
of levels stops for want of them just if the calls are nested deeper, and gives how the run ends
otherwise. -/
theorem runs_of_isAcyclic {objects : Store} (acyclic : Lookup.IsAcyclic objects.get)
    {id : ObjectId} {tree : Tree} (stored : Lookup.tree objects.get id = .ok tree)
    (registry : Registry) (store : PolicyStore) :
    ∃ depth result, Runs objects.get registry.knows store tree.entries depth result ∧
      depth ≤ objects.size ∧
      ∀ room,
        (StopsWith Error.IsEndless (addTree objects.get registry.knows room store tree) ↔
          room + 1 < depth) ∧
        (depth ≤ room + 1 → addTree objects.get registry.knows room store tree = result) := by
  have way := Store.isWay_nil stored
  obtain ⟨depth, result, runs, within⟩ :
      ∃ depth result, Runs objects.get registry.knows store tree.entries depth result ∧
        0 + depth ≤ objects.size :=
    exists_runs_of_isWay acyclic way stored (Nat.le_add_left _ _) store
  rw [Nat.zero_add] at within
  refine ⟨depth, result, runs, within, fun room => ⟨⟨fun stops => ?_, runs.stopsWith_addTree room⟩,
    runs.addTree_eq⟩⟩
  by_contra enough
  rw [runs.addTree_eq (Nat.le_of_not_lt enough)] at stops
  exact runs.not_stopsWith (failsWith_get objects) stops

/-! ### A tree in a tree -/

theorem links_sharingStore {id other : ObjectId} (link : Lookup.Links sharingStore.get id other) :
    id = sharingCommit.tree ∧ other = innerEntry.oid := by
  obtain ⟨tree, read, entry, listed, kind, rfl⟩ := link
  obtain ⟨object, found, decoded⟩ := Steps.bind_eq_ok.mp read
  obtain ⟨before, after, whole, rfl, _⟩ := Store.get_eq_ok_iff.mp found
  have inside : object ∈ [policyObject, schemaObject, innerObject, outerObject, sharingObject] :=
    whole ▸ List.mem_append_right before List.mem_cons_self
  have isTree : object.kind = .tree := by
    by_contra other
    rw [Tree.ofObject, if_neg other] at decoded
    cases decoded
  have oids := oids_sharing
  simp only [List.map_cons, List.map_nil, List.cons.injEq, and_true] at oids
  obtain ⟨-, -, inner, outer, -⟩ := oids
  simp only [List.mem_cons, List.not_mem_nil, or_false] at inside
  obtain rfl | rfl | rfl | rfl | rfl := inside
  · cases isTree
  · cases isTree
  · -- the tree of the policy has no links
    rw [inner] at read
    obtain rfl := Except.ok.inj (tree_innerEntry.symm.trans read)
    obtain rfl := List.mem_singleton.mp listed
    cases kind
  · rw [outer] at read
    obtain rfl := Except.ok.inj (tree_sharingCommit.symm.trans read)
    simp only [outerTree, List.mem_cons, List.not_mem_nil, or_false] at listed
    obtain rfl | rfl | rfl := listed
    · cases kind
    · exact ⟨outer, rfl⟩
    · cases kind
  · cases isTree

theorem isAcyclic_sharingStore : Lookup.IsAcyclic sharingStore.get := by
  intro id reaches
  obtain ⟨_, first, _⟩ := Relation.TransGen.head'_iff.mp reaches
  obtain ⟨_, _, last⟩ := Relation.TransGen.tail'_iff.mp reaches
  have same := (links_sharingStore first).1.symm.trans (links_sharingStore last).2
  exact absurd same (by decide)

/-- The tree that holds a policy twice, once in another tree. -/
theorem runs_of_sharingStore :
    Lookup.IsAcyclic sharingStore.get ∧
    Lookup.tree sharingStore.get sharingCommit.tree = .ok outerTree ∧
    ∃ depth result, Runs sharingStore.get Registry.standard.knows { version := sharingId.text }
        outerTree.entries depth result ∧ depth ≤ sharingStore.size ∧
      ∀ room, depth ≤ room + 1 →
        addTree sharingStore.get Registry.standard.knows room { version := sharingId.text }
          outerTree = result := by
  obtain ⟨depth, result, runs, within, levels⟩ := runs_of_isAcyclic isAcyclic_sharingStore
    tree_sharingCommit .standard { version := sharingId.text }
  exact ⟨isAcyclic_sharingStore, tree_sharingCommit, depth, result, runs, within,
    fun room => (levels room).2⟩

end PolicyStore

end PolicyLedger
