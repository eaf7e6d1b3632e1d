/-
**Histories down to the first commit.**

The commits from an id down to the first one, whose parent is none or the zero id, are a descent
(`Walk.Descends`). A walk along parents does not know that the zero id stands for no commit, so it
ends with the first commit only if that has no parent:

* `Walk.ends_of_descends` — then it finds all commits of the descent;
* `Walk.visit?_of_descends` — otherwise it goes on to the zero id behind them.

`Walk.history_toRoot_iff` says what becomes of the history, whatever is got under the ids.
-/

import PolicyLedger.Proofs.Object.Walk

namespace PolicyLedger

namespace Walk

variable {get : ObjectId → Except Error Object} {source : ObjectId} {commits : List Commit}

/-- The commits from an id along the parents down to the first one, whose parent is none or the zero
id. -/
inductive Descends (get : ObjectId → Except Error Object) : ObjectId → List Commit → Prop
  | first {id : ObjectId} {commit : Commit} (found : find get id = .ok commit)
    (root : ∀ parent, commit.parent = some parent → parent = .zero) : Descends get id [commit]
  | later {id parent : ObjectId} {commit : Commit} {older : List Commit}
    (found : find get id = .ok commit) (named : commit.parent = some parent)
    (nonzero : parent ≠ .zero) (rest : Descends get parent older) :
    Descends get id (commit :: older)

/-- From a commit under another id than the target, the walk goes to its parent. -/
theorem next?_of_ne {target id : ObjectId} {commit : Commit} (found : find get id = .ok commit)
    (other : id ≠ target) : next? get target id = commit.parent := by
  rw [next?_of_ok found, onward?, if_neg other]

/-- A walk ends with the first commit if no commit has the zero id for its parent. -/
theorem ends_of_descends (descends : Descends get source commits) (nonzero : source ≠ .zero)
    (rooted : ∀ commit ∈ commits, commit.parent ≠ some .zero) :
    Ends get .zero source commits := by
  induction descends with
  | @first id commit found root =>
    have orphan : commit.parent = none := by
      rw [Option.eq_none_iff_forall_ne_some]
      intro parent named
      exact rooted commit List.mem_cons_self (root parent named ▸ named)
    exact (ends_of_last found ((next?_of_ne found nonzero).trans orphan)).mpr rfl
  | later found named other _ ih =>
    rw [List.forall_mem_cons] at rooted
    have goes := (next?_of_ne found nonzero).trans named
    exact (ends_of_next found goes).mpr ⟨_, rfl, ih other rooted.2⟩

/-- A walk goes on to the zero id if a commit has it for its parent. -/
theorem visit?_of_descends (descends : Descends get source commits) (nonzero : source ≠ .zero)
    (unrooted : ∃ commit ∈ commits, commit.parent = some .zero) :
    visit? get .zero source commits.length = some .zero := by
  induction descends with
  | first found root =>
    obtain ⟨_, inside, zero⟩ := unrooted
    obtain rfl := List.mem_singleton.mp inside
    rw [List.length_singleton, visit?_succ, next?_of_ne found nonzero, zero]
    rfl
  | later found named other _ ih =>
    obtain ⟨commit, inside, zero⟩ := unrooted
    obtain rfl | inside := List.mem_cons.mp inside
    · exact absurd (Option.some.inj (named.symm.trans zero)) other
    · rw [List.length_cons, visit?_succ, next?_of_ne found nonzero, named]
      exact ih other ⟨commit, inside, zero⟩

/-- Nothing is found under the zero id in a store that has no object there. -/
theorem find_zero {store : Store} (absent : store.bytes? .zero = none) :
    find store.get .zero = .error (.missingObject ObjectId.zero.text) := by
  rw [Store.find_get, Store.commit, Store.get, absent]
  rfl

/-- **Histories down to the first commit.** A commit that is made has no zero parent, and one that
is read has it just if its last parent line names the zero id. Whatever is got under the ids, the
history of a commit down to the first one gives all of its commits if there is room for them and none
has a zero parent. With one that has, and no commit under the zero id, it fails as nothing is found
there, or has no room to look. This holds of every store. -/
theorem history_toRoot_iff (get : ObjectId → Except Error Object) (source : ObjectId)
    (commits : List Commit) (reversed : Bool) (limit : Nat) :
    (∀ (tree : ObjectId) (parent : Option ObjectId) (author committer message : String)
        (authored committed : Time.Instant) (commit : Commit),
      Commit.make tree parent author authored committer committed message = .ok commit →
      commit.parent ≠ some .zero) ∧
    (∀ (object : Object) (commit : Commit), Commit.ofObject object = .ok commit →
      (commit.parent = some .zero ↔
        ∃ lines, Commit.HasHead object.payload lines ∧ Commit.LastParent lines .zero)) ∧
    (Descends get source commits → source ≠ .zero → commits.length ≤ limit →
      ((∀ commit ∈ commits, commit.parent ≠ some .zero) →
        history get source .zero reversed limit =
          .ok (true, if reversed then commits.reverse else commits)) ∧
      ∀ failure, (∃ commit ∈ commits, commit.parent = some .zero) →
        find get .zero = .error failure →
        history get source .zero reversed limit =
          .error (if commits.length < limit then failure else .request (.historyLength limit))) ∧
    ∀ store : Store,
      store.history source .zero reversed limit =
        history store.get source .zero reversed limit ∧
      (store.bytes? .zero = none →
        find store.get .zero = .error (.missingObject ObjectId.zero.text)) := by
  refine ⟨fun _ _ _ _ _ _ _ _ => Commit.parent_ne_zero_of_make, fun _ _ read =>
    Commit.parent_eq_some_iff read, fun descends nonzero enough =>
    ⟨fun rooted => ?_, fun failure unrooted failed => ?_⟩,
    fun store => ⟨store.history_eq source .zero reversed limit, find_zero⟩⟩
  · have ends := ends_of_descends descends nonzero rooted
    exact (history_eq_ok_iff nonzero).mpr ⟨commits, ends, enough, iff_of_true rfl (.inr rfl), rfl⟩
  · have visited := visit?_of_descends descends nonzero unrooted
    refine (history_eq_error_iff nonzero).mpr ?_
    by_cases inside : commits.length < limit
    · rw [if_pos inside]
      exact .inl ⟨commits.length, inside, .zero, visited, failed⟩
    · have full : commits.length = limit := Nat.le_antisymm enough (Nat.le_of_not_lt inside)
      rw [if_neg inside, ← full, visited]
      exact .inr ⟨rfl, rfl⟩

end Walk

/-! ### Three commits in a store -/

namespace Store

/-- The store of the three. -/
def lineage : Store := .ofObjects [rootObject, nextObject, orphanObject]

theorem oids_lineage :
    [rootObject, nextObject, orphanObject].map Object.oid = [rootId, nextId, orphanId] := by
  simp only [List.map_cons, List.map_nil, List.cons.injEq, and_true]
  refine ⟨?_, ?_, ?_⟩ <;> decide +kernel

/-- What is read from one of the objects is found under its id. -/
theorem commit_lineage {object : Object} {commit : Commit}
    (inside : object ∈ [rootObject, nextObject, orphanObject])
    (read : Commit.ofObject object = .ok commit) : lineage.commit object.oid = .ok commit := by
  have own : Object.HaveOwnIds [rootObject, nextObject, orphanObject] := by
    refine Object.haveOwnIds_of_nodup ?_ ?_
    · rw [oids_lineage]
      decide
    · rw [oids_lineage]
      decide
  exact Steps.bind_eq_ok.mpr ⟨object, get_of_mem inside (own.distinct object inside), read⟩

theorem commits_lineage : lineage.commit rootId = .ok (commitAfter none "root") ∧
    lineage.commit nextId = .ok (commitAfter (some rootId) "next") ∧
    lineage.commit orphanId = .ok (commitAfter (some .zero) "root") := by
  have oids := oids_lineage
  simp only [List.map_cons, List.map_nil, List.cons.injEq, and_true] at oids
  obtain ⟨root, next, orphan⟩ := oids
  have foundNext := commit_lineage (by simp) ofObject_nextObject
  have foundOrphan := commit_lineage (by simp) ofObject_orphanObject
  rw [next] at foundNext
  rw [orphan] at foundOrphan
  exact ⟨root ▸ commit_lineage (by simp) ofObject_rootObject, foundNext, foundOrphan⟩

/-- Nothing is stored under the zero id. -/
theorem bytes?_zero_lineage : lineage.bytes? .zero = none := by
  rw [lineage, bytes?_ofObjects, Option.map_eq_none_iff, List.find?_eq_none]
  intro object inside zero
  have listed := List.mem_map_of_mem inside (f := Object.oid)
  rw [oids_lineage, of_decide_eq_true zero] at listed
  exact absurd listed (by decide)

theorem finds_lineage : Walk.find lineage.get rootId = .ok (commitAfter none "root") ∧
    Walk.find lineage.get nextId = .ok (commitAfter (some rootId) "next") ∧
    Walk.find lineage.get orphanId = .ok (commitAfter (some .zero) "root") := by
  rw [find_get, find_get, find_get]
  exact commits_lineage

/-- The history of the second commit has both commits, and a commit with a zero parent has none. -/
theorem history_nextObject :
    Walk.Descends lineage.get nextId
      [commitAfter (some rootId) "next", commitAfter none "root"] ∧
    nextId ≠ .zero ∧
    lineage.history nextId .zero true 2 =
      .ok (true, [commitAfter none "root", commitAfter (some rootId) "next"]) ∧
    Walk.Descends lineage.get orphanId [commitAfter (some .zero) "root"] ∧
    lineage.history orphanId .zero true 1 = .error (.request (.historyLength 1)) := by
  obtain ⟨foundRoot, found, foundOrphan⟩ := finds_lineage
  have descends : Walk.Descends lineage.get nextId
      [commitAfter (some rootId) "next", commitAfter none "root"] :=
    .later found rfl (by decide) (.first foundRoot nofun)
  have nonzero : nextId ≠ .zero := by decide
  have rooted : ∀ commit ∈ [commitAfter (some rootId) "next", commitAfter none "root"],
      commit.parent ≠ some .zero := by
    rw [List.forall_mem_cons, List.forall_mem_singleton]
    exact ⟨by decide, nofun⟩
  have orphaned : Walk.Descends lineage.get orphanId [commitAfter (some .zero) "root"] :=
    .first foundOrphan fun _ same => (Option.some.inj same).symm
  obtain ⟨-, -, told, stored⟩ := Walk.history_toRoot_iff lineage.get nextId
    [commitAfter (some rootId) "next", commitAfter none "root"] true 2
  obtain ⟨-, -, untold, storedOrphan⟩ := Walk.history_toRoot_iff lineage.get orphanId
    [commitAfter (some .zero) "root"] true 1
  refine ⟨descends, nonzero, ?_, orphaned, ?_⟩
  · rw [(stored lineage).1]
    exact (told descends nonzero le_rfl).1 rooted
  · rw [(storedOrphan lineage).1]
    exact (untold orphaned (by decide) le_rfl).2 _ ⟨_, List.mem_singleton.mpr rfl, rfl⟩
      ((storedOrphan lineage).2 bytes?_zero_lineage)

/-- A commit is read with the zero id for its parent, and its history cannot be told. -/
theorem history_orphanObject :
    Commit.ofObject orphanObject = .ok (commitAfter (some .zero) "root") ∧
    Walk.Descends lineage.get orphanId [commitAfter (some .zero) "root"] ∧ orphanId ≠ .zero ∧
    lineage.history orphanId .zero true 2 = .error (.missingObject ObjectId.zero.text) := by
  obtain ⟨-, -, found⟩ := finds_lineage
  have nonzero : orphanId ≠ .zero := by decide
  have descends : Walk.Descends lineage.get orphanId [commitAfter (some .zero) "root"] :=
    .first found fun _ same => (Option.some.inj same).symm
  have visited := Walk.visit?_of_descends descends nonzero ⟨_, List.mem_singleton.mpr rfl, rfl⟩
  refine ⟨ofObject_orphanObject, descends, nonzero, ?_⟩
  rw [history_eq]
  exact (Walk.history_eq_error_iff nonzero).mpr
    (.inl ⟨1, by decide, .zero, visited, Walk.find_zero bytes?_zero_lineage⟩)

end Store

end PolicyLedger
