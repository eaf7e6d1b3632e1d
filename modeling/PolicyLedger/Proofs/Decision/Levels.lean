/-
**Levels of trees.**

Loading stops with the error of an endless tree if the levels it may go through do not suffice. More
levels change no other result (`PolicyStore.keeps_addTree`), so there is a least number of levels
that a tree needs, if any number is enough (`PolicyStore.Needs`).

A tree that needs a level more than none links to a tree that needs exactly one level less
(`PolicyStore.Needs.exists_below`). The trees on such a chain need different numbers of levels, so
they have different ids, and in an object store there are no more of them than there are objects.
Therefore `PolicyStore.load_eq_of_ends`: loading from an object store gives what loading through any
number of levels gives, and if it stops for want of levels, no number of them is enough
(`PolicyStore.neverEnds_iff`).
-/

import Mathlib.Data.Nat.Find
import PolicyLedger.Proofs.Decision.Unfolding

namespace PolicyLedger

open Steps (StopsWith Keeps)

/-- The error of a tree with more levels than may be gone through. -/
def Error.IsEndless (error : Error) : Prop := ∃ name, error = .treeEntry (.endless name)

namespace PolicyStore

variable {lookup later : Lookup} {known : UInt32 → UInt32 → Bool} {P : Error → Prop}

/-! ### Other objects and more levels -/

/-- An entry is added as it is with other objects and other subtrees, if these change nothing. -/
theorem keeps_addLinked (grows : ∀ id, Keeps P (lookup id) (later id))
    {descend deeper : TreeEntry → PolicyStore → Tree → Except Error PolicyStore}
    (below : ∀ entry store tree, Keeps P (descend entry store tree) (deeper entry store tree))
    (store : PolicyStore) (entry : TreeEntry) :
    Keeps P (addLinked lookup known descend store entry)
      (addLinked later known deeper store entry) := by
  rw [addLinked, addLinked]
  refine (grows entry.oid).bind fun object => ?_
  cases entry.kind with
  | tree => exact (Keeps.refl _).bind fun tree => below entry store tree
  | blob => exact .refl _
  | commit => exact .refl _

/-- A tree is added as it is with other objects and more levels, unless it stops because of them. -/
theorem keeps_addTree (grows : ∀ id, Keeps P (lookup id) (later id)) {fewer more : Nat}
    (le : fewer ≤ more) (endless : fewer < more → ∀ error, error.IsEndless → P error)
    (store : PolicyStore) (tree : Tree) :
    Keeps P (addTree lookup known fewer store tree) (addTree later known more store tree) := by
  induction fewer generalizing more store tree with
  | zero =>
    cases more with
    | zero => exact Keeps.foldlM (keeps_addLinked grows fun _ _ _ => .refl _) store
    | succ more =>
      refine Keeps.foldlM (keeps_addLinked grows fun entry _ _ => .inl ⟨_, rfl, ?_⟩) store
      exact endless (Nat.zero_lt_succ more) _ ⟨entry.name, rfl⟩
  | succ fewer ih =>
    obtain ⟨more, rfl⟩ : ∃ level, more = level + 1 := ⟨more - 1, by omega⟩
    refine Keeps.foldlM (keeps_addLinked grows fun _ store tree => ?_) store
    exact ih (Nat.le_of_succ_le_succ le) (fun lt => endless (Nat.succ_lt_succ lt)) store tree

theorem keeps_loadFrom (grows : ∀ id, Keeps P (lookup id) (later id)) {fewer more : Nat}
    (le : fewer ≤ more) (endless : fewer < more → ∀ error, error.IsEndless → P error)
    (id : ObjectId) :
    Keeps P (loadFrom lookup known fewer id) (loadFrom later known more id) := by
  rw [loadFrom, loadFrom]
  have commit : Keeps P (lookup.commit id) (later.commit id) := (grows id).bind fun _ => .refl _
  refine commit.bind fun commit => ?_
  have tree : Keeps P (lookup.tree commit.tree) (later.tree commit.tree) :=
    (grows commit.tree).bind fun _ => .refl _
  exact tree.bind fun tree => keeps_addTree grows le endless _ tree

/-! ### Stores play no part -/

/-- A step fails with an error whatever store it begins with. -/
def IsUniform (step : PolicyStore → Except Error PolicyStore) : Prop :=
  ∀ store other error, step store = .error error → step other = .error error

theorem isUniform_error (error : Error) : IsUniform fun _ => .error error :=
  fun _ _ _ stops => stops

theorem IsUniform.bind {α : Type} {read : Except Error α}
    {next : α → PolicyStore → Except Error PolicyStore} (each : ∀ value, IsUniform (next value)) :
    IsUniform fun store => read >>= fun value => next value store := by
  cases read with
  | error error => exact isUniform_error error
  | ok value => exact each value

theorem IsUniform.foldlM {step : PolicyStore → TreeEntry → Except Error PolicyStore}
    (each : ∀ entry, IsUniform fun store => step store entry) (entries : List TreeEntry) :
    IsUniform fun store => entries.foldlM step store := by
  induction entries with
  | nil => exact fun _ _ _ => nofun
  | cons entry rest ih =>
    intro store other error stops
    simp only [List.foldlM_cons] at stops ⊢
    cases first : step store entry with
    | error cause =>
      have second : step other entry = .error cause := each entry store other cause first
      rw [first] at stops
      rw [second]
      exact stops
    | ok next =>
      cases second : step other entry with
      | error cause => cases first.symm.trans (each entry other store cause second)
      | ok another =>
        rw [first] at stops
        exact ih next another error stops

theorem isUniform_addBlob (oid : ObjectId) (blob : Blob) :
    IsUniform fun store => store.addBlob oid blob := by
  intro store other error stops
  simp only [addBlob] at stops ⊢
  split at stops
  · cases stops
  · cases stops
  · exact stops

theorem isUniform_addEntry (entry : TreeEntry) (object : Object) :
    IsUniform fun store => addEntry known store entry object := by
  refine IsUniform.bind fun content => ?_
  cases content with
  | tree tree => exact isUniform_error _
  | commit commit => exact isUniform_error _
  | blob blob =>
    dsimp only
    split
    · exact isUniform_error _
    · split
      · exact isUniform_addBlob object.oid blob
      · exact isUniform_error _

theorem isUniform_addLinked
    {descend : TreeEntry → PolicyStore → Tree → Except Error PolicyStore}
    (below : ∀ entry tree, IsUniform fun store => descend entry store tree) (entry : TreeEntry) :
    IsUniform fun store => addLinked lookup known descend store entry := by
  refine IsUniform.bind fun object => ?_
  cases entry.kind with
  | tree => exact IsUniform.bind fun tree => below entry tree
  | blob => exact isUniform_addEntry entry object
  | commit => exact isUniform_error _

theorem isUniform_addTree (room : Nat) (tree : Tree) :
    IsUniform fun store => addTree lookup known room store tree := by
  induction room generalizing tree with
  | zero =>
    exact IsUniform.foldlM (isUniform_addLinked fun _ _ => isUniform_error _) tree.entries
  | succ room ih => exact IsUniform.foldlM (isUniform_addLinked fun _ => ih) tree.entries

/-! ### The levels that a tree needs -/

/-- A number of levels is enough for a tree. -/
def Ends (lookup : Lookup) (known : UInt32 → UInt32 → Bool) (room : Nat) (tree : Tree) : Prop :=
  ∀ store, ¬ StopsWith Error.IsEndless (addTree lookup known room store tree)

/-- A number of levels is enough for every store if it is for one. -/
theorem ends_iff {room : Nat} {tree : Tree} (store : PolicyStore) :
    Ends lookup known room tree ↔
      ¬ StopsWith Error.IsEndless (addTree lookup known room store tree) := by
  refine ⟨fun ends => ends store, fun ends other => ?_⟩
  rintro ⟨error, stops, endless⟩
  exact ends ⟨error, isUniform_addTree room tree other store error stops, endless⟩

theorem addTree_of_ends {fewer more : Nat} {tree : Tree} (ends : Ends lookup known fewer tree)
    (le : fewer ≤ more) (store : PolicyStore) :
    addTree lookup known more store tree = addTree lookup known fewer store tree :=
  (keeps_addTree (fun _ => .refl _) le (fun _ _ => id) store tree).eq (ends store)

theorem Ends.mono {fewer more : Nat} {tree : Tree} (ends : Ends lookup known fewer tree)
    (le : fewer ≤ more) : Ends lookup known more tree := fun store => by
  rw [addTree_of_ends ends le]
  exact ends store

/-- The least number of levels that is enough for a tree. -/
structure Needs (lookup : Lookup) (known : UInt32 → UInt32 → Bool) (level : Nat) (tree : Tree) :
    Prop where
  ends : Ends lookup known level tree
  least : ∀ fewer, fewer < level → ¬ Ends lookup known fewer tree

theorem Needs.unique {level other : Nat} {tree : Tree} (needs : Needs lookup known level tree)
    (again : Needs lookup known other tree) : level = other :=
  Nat.le_antisymm (Nat.le_of_not_lt fun less => needs.least other less again.ends)
    (Nat.le_of_not_lt fun less => again.least level less needs.ends)

theorem exists_needs {room : Nat} {tree : Tree} (ends : Ends lookup known room tree) :
    ∃ level, Needs lookup known level tree := by
  classical
  have bounded : ∃ level, Ends lookup known level tree := ⟨room, ends⟩
  exact ⟨Nat.find bounded, Nat.find_spec bounded, fun _ less => Nat.find_min bounded less⟩

/-- Only a subtree makes a difference to whether the levels suffice. -/
theorem exists_subtree_of_stops
    {descend deeper : TreeEntry → PolicyStore → Tree → Except Error PolicyStore}
    {store : PolicyStore} {entry : TreeEntry}
    (stops : StopsWith Error.IsEndless (addLinked lookup known descend store entry))
    (passes : ¬ StopsWith Error.IsEndless (addLinked lookup known deeper store entry)) :
    ∃ tree, lookup.tree entry.oid = .ok tree ∧
      StopsWith Error.IsEndless (descend entry store tree) ∧
      ¬ StopsWith Error.IsEndless (deeper entry store tree) := by
  by_cases subtree : entry.kind = .tree ∧ ∃ tree, lookup.tree entry.oid = .ok tree
  · obtain ⟨kind, tree, read⟩ := subtree
    rw [addLinked_of_subtree kind read] at stops passes
    exact ⟨tree, read, stops, passes⟩
  · have ends : entry.kind = .tree → ∀ tree, lookup.tree entry.oid ≠ .ok tree :=
      fun kind tree read => subtree ⟨kind, tree, read⟩
    rw [addLinked_of_leaf ends] at stops passes
    exact absurd stops passes

/-- **A tree that needs levels links to one that needs one level less.** -/
theorem Needs.exists_below {level : Nat} {tree : Tree}
    (needs : Needs lookup known (level + 1) tree) :
    ∃ id below, lookup.tree id = .ok below ∧ Needs lookup known level below := by
  have start : PolicyStore := { version := "" }
  have passes := needs.ends start
  have stops := not_not.mp fun ends => needs.least level (Nat.lt_succ_self level)
    ((ends_iff start).mpr ends)
  -- The first entry that stops with one level less links to the subtree: its run stops with two
  -- levels less and ends with one. If there is one level in all, every subtree stops without any.
  cases level with
  | zero =>
    obtain ⟨entry, _, reached, first, second⟩ := Steps.exists_stop
      (keeps_addLinked (fun _ => .refl _) fun entry _ _ => .inl ⟨_, rfl, entry.name, rfl⟩)
      stops passes
    obtain ⟨below, read, -, ends⟩ := exists_subtree_of_stops first second
    have least : ∀ fewer, fewer < 0 → ¬ Ends lookup known fewer below := nofun
    exact ⟨entry.oid, below, read, (ends_iff reached).mpr ends, least⟩
  | succ level =>
    obtain ⟨entry, _, reached, first, second⟩ := Steps.exists_stop
      (keeps_addLinked (fun _ => .refl _) fun _ =>
        keeps_addTree (fun _ => .refl _) (Nat.le_succ level) fun _ _ => id)
      stops passes
    obtain ⟨below, read, endless, ends⟩ := exists_subtree_of_stops first second
    refine ⟨entry.oid, below, read, (ends_iff reached).mpr ends, fun fewer less enough => ?_⟩
    exact enough.mono (Nat.le_of_lt_succ less) reached endless

/-- Below a tree are trees that need every smaller number of levels. -/
theorem Needs.exists_ids {level : Nat} {tree : Tree} {id : ObjectId}
    (needs : Needs lookup known level tree) (read : lookup.tree id = .ok tree) :
    ∃ ids : List ObjectId, ids.length = level + 1 ∧ ids.Nodup ∧
      ∀ other ∈ ids, ∃ below fewer, lookup.tree other = .ok below ∧
        Needs lookup known fewer below ∧ fewer ≤ level := by
  induction level generalizing tree id with
  | zero =>
    refine ⟨[id], rfl, List.nodup_singleton id, List.forall_mem_singleton.mpr ?_⟩
    exact ⟨tree, 0, read, needs, Nat.le_refl 0⟩
  | succ level ih =>
    obtain ⟨next, below, readBelow, needsBelow⟩ := needs.exists_below
    obtain ⟨ids, count, distinct, all⟩ := ih needsBelow readBelow
    have fresh : id ∉ ids := by
      intro inside
      obtain ⟨same, fewer, again, needsFewer, le⟩ := all id inside
      obtain rfl := Except.ok.inj (read.symm.trans again)
      have equal := needs.unique needsFewer
      omega
    refine ⟨id :: ids, by rw [List.length_cons, count], List.nodup_cons.mpr ⟨fresh, distinct⟩, ?_⟩
    rw [List.forall_mem_cons]
    refine ⟨⟨tree, level + 1, read, needs, Nat.le_refl _⟩, fun other inside => ?_⟩
    obtain ⟨found, fewer, readOther, needsOther, le⟩ := all other inside
    exact ⟨found, fewer, readOther, needsOther, Nat.le_succ_of_le le⟩

/-! ### Object stores -/

variable {objects : Store} {id : ObjectId}

/-- **A stored tree needs fewer levels than there are objects.** -/
theorem Needs.lt_size {level : Nat} {tree : Tree} (needs : Needs objects.get known level tree)
    (read : Lookup.tree objects.get id = .ok tree) : level < objects.size := by
  obtain ⟨ids, count, distinct, all⟩ := needs.exists_ids read
  have short := Store.length_le_size distinct fun other inside => by
    obtain ⟨below, _, readOther, _⟩ := all other inside
    exact ⟨below, readOther⟩
  omega

/-- **Loading from a store gives what any number of levels gives**, if it is enough. -/
theorem load_eq_of_ends {room : Nat}
    (ends : ¬ StopsWith Error.IsEndless (loadFrom objects.get known room id)) :
    load objects known id = loadFrom objects.get known room id := by
  rw [load]
  cases committed : Lookup.commit objects.get id with
  | error error => rw [loadFrom, loadFrom, committed]; rfl
  | ok commit =>
    cases read : Lookup.tree objects.get commit.tree with
    | error error =>
      rw [loadFrom_of_unread committed read, loadFrom_of_unread committed read]
    | ok tree =>
      rw [loadFrom_of_tree committed read] at ends
      rw [loadFrom_of_tree committed read, loadFrom_of_tree committed read]
      -- Both numbers of levels are enough, as neither is less than the number that is needed.
      have enough : Ends objects.get known room tree := (ends_iff _).mpr ends
      obtain ⟨level, needs⟩ := exists_needs enough
      have fewer : level ≤ room := Nat.le_of_not_lt fun less => needs.least room less enough
      rw [addTree_of_ends needs.ends (Nat.le_of_lt (needs.lt_size read)),
        addTree_of_ends needs.ends fewer]

/-- No number of levels is enough to load a commit. -/
def NeverEnds (objects : Store) (known : UInt32 → UInt32 → Bool) (id : ObjectId) : Prop :=
  ∀ room, StopsWith Error.IsEndless (loadFrom objects.get known room id)

/-- Loading from a store stops for want of levels just if no number of them is enough. -/
theorem neverEnds_iff :
    NeverEnds objects known id ↔ StopsWith Error.IsEndless (load objects known id) := by
  refine ⟨fun never => never objects.size, fun stops room => ?_⟩
  by_contra ends
  rw [load_eq_of_ends ends] at stops
  exact ends stops

end PolicyStore

end PolicyLedger
