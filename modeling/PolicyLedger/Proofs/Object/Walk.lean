/-
**The walk along parents.**

A history is found by a walk from a commit to its parent, to the parent of that one and so on
(`Walk.visit?`), which ends with the commit that is looked for or with one without parent.
`Walk.history` does this with any way of getting objects, that of a store (`Store.history_eq`) or one
that writes down what is asked for (`Walk.logged`). Nothing is assumed about what is got: parents may
form a cycle.

* `Walk.run_eq_ok_iff`, `Walk.run_eq_error_iff` — what a walk gives;
* `Walk.result_run` — what it asks for;
* `Walk.history_visits` — a history is told if the walk ends in time and finds all of its commits;
  otherwise the first commit that is not found is reported, or that the walk is too long. The walk
  asks for the ids that it visits, as many as the limit allows.
-/

import PolicyLedger.Proofs.Object.Ancestry

namespace PolicyLedger

namespace Walk

/-! ### Walks with any way of getting objects -/

/-- Where a walk goes from a commit: to its parent, unless the commit is the target. -/
def onward? (target id : ObjectId) (commit : Commit) : Option ObjectId :=
  if id = target then none else commit.parent

section General

variable {m : Type → Type} [Monad m] [MonadExceptOf Error m]

/-- The commit under an id. -/
def find (get : ObjectId → m Object) (id : ObjectId) : m Commit := do
  let object ← get id
  MonadExcept.ofExcept (Commit.ofObject object)

/-- A commit in front of those of the walk that goes on from it. -/
def proceed (target id : ObjectId) (commit : Commit)
    (walk : ObjectId → m (Bool × List Commit)) : m (Bool × List Commit) :=
  match onward? target id commit with
  | none => return (decide (id = target), [commit])
  | some parent => do
    let (met, older) ← walk parent
    return (met, commit :: older)

/-- The walk from an id to a target, with room for some commits of a limit. -/
def run (get : ObjectId → m Object) (target : ObjectId) (limit : Nat) :
    Nat → ObjectId → m (Bool × List Commit)
  | 0, _ => throw (.request (.historyLength limit))
  | room + 1, id => do
    let commit ← find get id
    proceed target id commit (run get target limit room)

/-- Whether a commit has another one in its history, and the commits from one to the other. -/
def history (get : ObjectId → m Object) (source target : ObjectId) (reversed : Bool)
    (limit : Nat) : m (Bool × List Commit) :=
  if source.isZero then
    if target.isZero then return (true, []) else throw (.request .historyStart)
  else do
    let (met, commits) ← run get target limit limit source
    return (met || target.isZero, if reversed then commits.reverse else commits)

omit [MonadExceptOf Error m]

theorem proceed_of_none {target id : ObjectId} {commit : Commit}
    (stops : onward? target id commit = none) (walk : ObjectId → m (Bool × List Commit)) :
    proceed target id commit walk = pure (decide (id = target), [commit]) := by
  rw [proceed, stops]

theorem proceed_of_some {target id parent : ObjectId} {commit : Commit}
    (goes : onward? target id commit = some parent) (walk : ObjectId → m (Bool × List Commit)) :
    proceed target id commit walk =
      walk parent >>= fun (met, older) => pure (met, commit :: older) := by
  rw [proceed, goes]

end General

/-! ### The ids that are visited -/

/-- Where a walk goes from an id, nowhere from one without a commit. -/
def next? (get : ObjectId → Except Error Object) (target id : ObjectId) : Option ObjectId :=
  (find get id).toOption.bind (onward? target id)

/-- The id that is visited after some steps: the first one is the source, and each of the others is
the parent of the one before. -/
def visit? (get : ObjectId → Except Error Object) (target source : ObjectId) :
    Nat → Option ObjectId
  | 0 => some source
  | steps + 1 => (visit? get target source steps).bind (next? get target)

/-- The commits of a walk: every id that is visited has one, and then the walk is over. -/
structure Ends (get : ObjectId → Except Error Object) (target source : ObjectId)
    (commits : List Commit) : Prop where
  ended : visit? get target source commits.length = none
  found : ∀ steps (inside : steps < commits.length), ∃ id,
    visit? get target source steps = some id ∧ find get id = .ok commits[steps]

variable {get : ObjectId → Except Error Object} {target source parent id : ObjectId}
  {commit : Commit} {commits : List Commit} {error : Error}

theorem next?_of_ok (found : find get id = .ok commit) :
    next? get target id = onward? target id commit := by
  rw [next?, found]
  rfl

theorem next?_of_error (failed : find get id = .error error) : next? get target id = none := by
  rw [next?, failed]
  rfl

/-- The ids behind the source are those that are visited from the next one. -/
theorem visit?_succ (get : ObjectId → Except Error Object) (target source : ObjectId)
    (steps : Nat) : visit? get target source (steps + 1) =
      (next? get target source).bind (visit? get target · steps) := by
  induction steps with
  | zero =>
    rw [visit?, visit?, Option.bind_some]
    exact (Option.bind_fun_some _).symm
  | succ steps ih =>
    rw [visit?, ih, Option.bind_assoc]
    rfl

/-- The commits of a walk are that of its source and those of the walk that goes on. -/
theorem ends_iff : Ends get target source commits ↔
    ∃ commit older, commits = commit :: older ∧ find get source = .ok commit ∧
      (next? get target source = none ∧ older = [] ∨
        ∃ parent, next? get target source = some parent ∧ Ends get target parent older) := by
  constructor
  · rintro ⟨ended, found⟩
    cases commits with
    | nil => cases ended
    | cons commit older =>
      obtain ⟨_, here, first⟩ := found 0 (Nat.succ_pos _)
      obtain rfl := Option.some.inj here
      refine ⟨commit, older, rfl, first, ?_⟩
      have later : ∀ steps (inside : steps < older.length), ∃ id,
          (next? get target source).bind (visit? get target · steps) = some id ∧
            find get id = .ok older[steps] := fun steps inside => by
        rw [← visit?_succ]
        exact found (steps + 1) (Nat.succ_lt_succ inside)
      rw [List.length_cons, visit?_succ] at ended
      cases goes : next? get target source with
      | none =>
        rw [goes] at later
        refine .inl ⟨rfl, List.eq_nil_of_length_eq_zero (Nat.eq_zero_of_not_pos fun filled => ?_)⟩
        obtain ⟨_, impossible, _⟩ := later 0 filled
        cases impossible
      | some parent =>
        rw [goes] at ended later
        exact .inr ⟨parent, rfl, ended, later⟩
  · rintro ⟨commit, older, rfl, first, ⟨stops, rfl⟩ | ⟨parent, goes, rest⟩⟩
    · refine ⟨by rw [List.length_singleton, visit?_succ, stops]; rfl, fun steps inside => ?_⟩
      obtain rfl := Nat.lt_one_iff.mp inside
      exact ⟨source, rfl, first⟩
    · refine ⟨by rw [List.length_cons, visit?_succ, goes]; exact rest.ended,
        fun steps inside => ?_⟩
      cases steps with
      | zero => exact ⟨source, rfl, first⟩
      | succ steps =>
        rw [visit?_succ, goes]
        exact rest.found steps (Nat.lt_of_succ_lt_succ inside)

theorem ends_of_last (found : find get source = .ok commit)
    (stops : next? get target source = none) :
    Ends get target source commits ↔ commits = [commit] := by
  rw [ends_iff, found, stops]
  simp

theorem ends_of_next (found : find get source = .ok commit)
    (goes : next? get target source = some parent) :
    Ends get target source commits ↔
      ∃ older, commits = commit :: older ∧ Ends get target parent older := by
  rw [ends_iff, found, goes]
  simp

/-- An id is visited with a property if it is the source or visited from the next id. -/
theorem exists_visit?_iff {P : Nat → ObjectId → Prop} :
    (∃ steps id, visit? get target source steps = some id ∧ P steps id) ↔
      P 0 source ∨ ∃ parent, next? get target source = some parent ∧
        ∃ steps id, visit? get target parent steps = some id ∧ P (steps + 1) id := by
  constructor
  · rintro ⟨steps, id, visited, holds⟩
    cases steps with
    | zero => exact .inl (Option.some.inj visited ▸ holds)
    | succ steps =>
      rw [visit?_succ] at visited
      obtain ⟨parent, goes, visited⟩ := Option.bind_eq_some_iff.mp visited
      exact .inr ⟨parent, goes, steps, id, visited, holds⟩
  · rintro (holds | ⟨parent, goes, steps, id, visited, holds⟩)
    · exact ⟨0, source, rfl, holds⟩
    · exact ⟨steps + 1, id, by rw [visit?_succ, goes]; exact visited, holds⟩

theorem exists_visit?_target : (∃ steps, visit? get target source steps = some target) ↔
    source = target ∨ ∃ parent, next? get target source = some parent ∧
      ∃ steps, visit? get target parent steps = some target := by
  simpa using @exists_visit?_iff get target source fun _ id => id = target

/-! ### What a walk gives -/

/-- A walk gives the commits that it visits if it ends before it runs out of room. -/
theorem run_eq_ok_iff {limit room : Nat} {met : Bool} :
    run get target limit room source = .ok (met, commits) ↔
      Ends get target source commits ∧ commits.length ≤ room ∧
        (met = true ↔ ∃ steps, visit? get target source steps = some target) := by
  induction room generalizing source met commits with
  | zero =>
    refine ⟨nofun, fun ⟨ends, small, _⟩ => ?_⟩
    obtain rfl := List.eq_nil_of_length_eq_zero (Nat.le_zero.mp small)
    exact absurd ends.ended (Option.some_ne_none _)
  | succ room ih =>
    rw [run, exists_visit?_target]
    cases found : find get source with
    | error error =>
      refine ⟨nofun, fun ⟨ends, _⟩ => ?_⟩
      obtain ⟨_, _, _, impossible, _⟩ := ends_iff.mp ends
      exact nomatch found.symm.trans impossible
    | ok commit =>
      show proceed target source commit (run get target limit room) = _ ↔ _
      have goes := @next?_of_ok _ target _ _ found
      cases parent : onward? target source commit with
      | none =>
        rw [parent] at goes
        rw [proceed_of_none parent, ends_of_last found goes, goes]
        constructor
        · intro same
          obtain ⟨rfl, rfl⟩ := Prod.mk.inj (Except.ok.inj same)
          simp
        · rintro ⟨rfl, -, reached⟩
          have decided : met = decide (source = target) := by
            rw [Bool.eq_iff_iff, reached, decide_eq_true_iff]
            simp
          rw [decided]
          rfl
      | some next =>
        rw [parent] at goes
        have other : source ≠ target := fun same => by simp [onward?, same] at parent
        rw [proceed_of_some parent, Steps.bind_eq_ok, ends_of_next found goes, goes]
        constructor
        · rintro ⟨⟨_, older⟩, rest, same⟩
          obtain ⟨rfl, rfl⟩ := Prod.mk.inj (Except.ok.inj same)
          obtain ⟨ends, small, reached⟩ := ih.mp rest
          exact ⟨⟨older, rfl, ends⟩, Nat.succ_le_succ small, by simpa [other] using reached⟩
        · rintro ⟨⟨older, rfl, ends⟩, small, reached⟩
          refine ⟨(met, older), ih.mpr ⟨ends, Nat.le_of_succ_le_succ small, ?_⟩, rfl⟩
          simpa [other] using reached

/-- A walk fails with the first id that has no commit, or as it has no room for an id. -/
theorem run_eq_error_iff {limit room : Nat} :
    run get target limit room source = .error error ↔
      (∃ steps id, visit? get target source steps = some id ∧
        steps < room ∧ find get id = .error error) ∨
      (visit? get target source room).isSome ∧ error = .request (.historyLength limit) := by
  induction room generalizing source with
  | zero =>
    show Except.error _ = _ ↔ _
    simp [visit?, eq_comm]
  | succ room ih =>
    rw [run, exists_visit?_iff, visit?_succ]
    cases found : find get source with
    | error failure =>
      show Except.error _ = _ ↔ _
      rw [next?_of_error found]
      simp
    | ok commit =>
      show proceed target source commit (run get target limit room) = _ ↔ _
      rw [next?_of_ok found]
      cases goes : onward? target source commit with
      | none =>
        rw [proceed_of_none goes]
        simp [pure, Except.pure]
      | some parent =>
        have fails : (run get target limit room parent >>=
            fun (met, older) => (pure (met, commit :: older) : Except Error _)) = .error error ↔
              run get target limit room parent = .error error := by
          cases run get target limit room parent <;> simp [bind, Except.bind, pure, Except.pure]
        rw [proceed_of_some goes, fails, ih]
        simp

/-- A history is told if the walk ends within the limit and finds all of its commits. -/
theorem history_eq_ok_iff (nonzero : source ≠ .zero) {reversed met : Bool} {limit : Nat}
    {told : List Commit} :
    history get source target reversed limit = .ok (met, told) ↔
      ∃ commits, Ends get target source commits ∧ commits.length ≤ limit ∧
        (met = true ↔ (∃ steps, visit? get target source steps = some target) ∨
          target = .zero) ∧
        told = if reversed then commits.reverse else commits := by
  have start : ¬ source.isZero = true := by simpa [ObjectId.isZero] using nonzero
  rw [history, if_neg start, Steps.bind_eq_ok]
  constructor
  · rintro ⟨⟨reached, commits⟩, walked, same⟩
    obtain ⟨rfl, rfl⟩ := Prod.mk.inj (Except.ok.inj same)
    obtain ⟨ends, small, visited⟩ := run_eq_ok_iff.mp walked
    refine ⟨commits, ends, small, ?_, rfl⟩
    rw [Bool.or_eq_true, visited, ObjectId.isZero, decide_eq_true_iff]
  · classical
    rintro ⟨commits, ends, small, visited, rfl⟩
    have walked := (@run_eq_ok_iff get target source commits limit limit _).mpr
      ⟨ends, small, decide_eq_true_iff⟩
    refine ⟨_, walked, congrArg Except.ok (Prod.ext ?_ rfl)⟩
    rw [Bool.eq_iff_iff, visited, Bool.or_eq_true, decide_eq_true_iff, ObjectId.isZero,
      decide_eq_true_iff]

/-- Otherwise the first commit is reported that is not found, or that the walk is too long. -/
theorem history_eq_error_iff (nonzero : source ≠ .zero) {reversed : Bool} {limit : Nat} :
    history get source target reversed limit = .error error ↔
      (∃ steps < limit, ∃ id, visit? get target source steps = some id ∧
        find get id = .error error) ∨
      (visit? get target source limit).isSome ∧ error = .request (.historyLength limit) := by
  have start : ¬ source.isZero = true := by simpa [ObjectId.isZero] using nonzero
  have fails : history get source target reversed limit = .error error ↔
      run get target limit limit source = .error error := by
    rw [history, if_neg start]
    cases run get target limit limit source <;> simp [bind, Except.bind, pure, Except.pure]
  rw [fails, run_eq_error_iff]
  refine or_congr_left ⟨?_, ?_⟩
  · rintro ⟨steps, id, visited, inside, failed⟩
    exact ⟨steps, inside, id, visited, failed⟩
  · rintro ⟨steps, inside, id, visited, failed⟩
    exact ⟨steps, id, visited, inside, failed⟩

/-! ### What a walk asks for -/

/-- Steps that may fail and write down what they ask for. -/
abbrev Logging := ExceptT Error (StateM (List ObjectId))

/-- What is given, and what is written down behind a log. -/
def Logging.result {α : Type} (step : Logging α) (log : List ObjectId) :
    Except Error α × List ObjectId :=
  step.run.run log

/-- Gets objects and writes down their ids. -/
def logged (get : ObjectId → Except Error Object) (id : ObjectId) : Logging Object := do
  modify (· ++ [id])
  MonadExcept.ofExcept (get id)

/-- The ids that are visited, as far as there is room. -/
def asked (get : ObjectId → Except Error Object) (target : ObjectId) :
    Nat → ObjectId → List ObjectId
  | 0, _ => []
  | room + 1, source =>
    source :: ((next? get target source).map (asked get target room)).getD []

/-- A step fails and leaves its log, or the next step goes on with it. -/
theorem result_bind {α β : Type} (first : Logging α) (next : α → Logging β)
    (log : List ObjectId) :
    Logging.result (first >>= next) log = match Logging.result first log with
      | (.ok value, log) => Logging.result (next value) log
      | (.error error, log) => (.error error, log) := by
  rw [Logging.result, ExceptT.run_bind, StateT.run_bind]
  rw [← Logging.result.eq_def]
  obtain ⟨_ | _, _⟩ := Logging.result first log <;> rfl

theorem result_ofExcept {α : Type} (step : Except Error α) (log : List ObjectId) :
    Logging.result (MonadExcept.ofExcept step) log = (step, log) := by
  cases step <;> rfl

theorem ofExcept_eq {α : Type} (step : Except Error α) :
    (MonadExcept.ofExcept step : Except Error α) = step := by
  cases step <;> rfl

theorem find_of_ok {object : Object} (got : get id = .ok object) :
    find get id = Commit.ofObject object := by
  rw [find, got]
  exact ofExcept_eq _

theorem result_find (get : ObjectId → Except Error Object) (id : ObjectId)
    (log : List ObjectId) :
    Logging.result (find (logged get) id) log = (find get id, log ++ [id]) := by
  have got : Logging.result (logged get id) log = (get id, log ++ [id]) := by
    rw [logged, result_bind]
    exact result_ofExcept _ _
  rw [find, result_bind, got]
  cases given : get id with
  | error error =>
    rw [find, given]
    rfl
  | ok object =>
    rw [find_of_ok given]
    exact result_ofExcept _ _

/-- A walk gives the same whether it is written down or not, and the ids that it visits are written
down. -/
theorem result_run (get : ObjectId → Except Error Object) (target : ObjectId) (limit room : Nat)
    (source : ObjectId) (log : List ObjectId) :
    Logging.result (run (logged get) target limit room source) log =
      (run get target limit room source, log ++ asked get target room source) := by
  induction room generalizing source log with
  | zero =>
    rw [asked, List.append_nil]
    rfl
  | succ room ih =>
    rw [run, run, asked, result_bind, result_find]
    cases found : find get source with
    | error error =>
      rw [next?_of_error found]
      rfl
    | ok commit =>
      rw [next?_of_ok found]
      show Logging.result (proceed target source commit _) _ =
        (proceed target source commit _, _)
      cases goes : onward? target source commit with
      | none =>
        rw [proceed_of_none goes, proceed_of_none goes]
        rfl
      | some parent =>
        rw [proceed_of_some goes, proceed_of_some goes, result_bind, ih, List.append_assoc]
        cases run get target limit room parent <;> rfl

theorem getElem?_asked (get : ObjectId → Except Error Object) (target source : ObjectId)
    (room steps : Nat) : (asked get target room source)[steps]? =
      if steps < room then visit? get target source steps else none := by
  induction room generalizing source steps with
  | zero => rfl
  | succ room ih =>
    rw [asked]
    cases steps with
    | zero => rfl
    | succ steps =>
      rw [List.getElem?_cons_succ, visit?_succ]
      cases next? get target source with
      | none => simp
      | some parent =>
        show (asked get target room parent)[steps]? = _
        rw [ih, Option.bind_some]
        exact if_congr (Nat.succ_lt_succ_iff).symm rfl rfl

theorem length_asked_le (get : ObjectId → Except Error Object) (target source : ObjectId)
    (room : Nat) : (asked get target room source).length ≤ room := by
  have beyond := getElem?_asked get target source room room
  rw [if_neg (Nat.lt_irrefl _)] at beyond
  exact List.getElem?_eq_none_iff.mp beyond

end Walk

/-! ### Histories -/

namespace Store

open Walk (proceed proceed_of_none proceed_of_some onward?)

theorem find_get (store : Store) (id : ObjectId) : Walk.find store.get id = store.commit id := by
  rw [Walk.find, commit]
  exact bind_congr fun object => Walk.ofExcept_eq _

theorem walk_eq (store : Store) (target : ObjectId) (limit room : Nat) (id : ObjectId) :
    store.walk target limit room id = Walk.run store.get target limit room id := by
  induction room generalizing id with
  | zero => rfl
  | succ room ih =>
    rw [walk, Walk.run, find_get]
    refine bind_congr fun commit => ?_
    by_cases met : id = target
    · rw [proceed_of_none (if_pos met), if_pos met, decide_eq_true met]
    · rw [if_neg met]
      cases named : commit.parent with
      | none => rw [proceed_of_none ((if_neg met).trans named), decide_eq_false met]
      | some parent => rw [proceed_of_some ((if_neg met).trans named), ← ih]

/-- The history of a store is the one that is found by its way of getting objects. -/
theorem history_eq (store : Store) (source target : ObjectId) (reversed : Bool) (limit : Nat) :
    store.history source target reversed limit =
      Walk.history store.get source target reversed limit := by
  rw [history, Walk.history, walk_eq]
  rfl

end Store

namespace Walk

/-- **The history of a commit.** Whatever is got under the ids, a history from a commit is told if
the walk ends within the limit and finds all of its commits; it consists of these, and the target was
met if it was visited or is the zero id. Otherwise the first id without commit is reported if it is
visited within the limit, or else that the walk is too long. The ids that are asked for are those
that are visited, at most as many as the limit. -/
theorem history_visits (get : ObjectId → Except Error Object) {source : ObjectId}
    (nonzero : source ≠ .zero) (target : ObjectId) (reversed : Bool) (limit : Nat) :
    (∀ met told, history get source target reversed limit = .ok (met, told) ↔
      ∃ commits, Ends get target source commits ∧ commits.length ≤ limit ∧
        (met = true ↔ (∃ steps, visit? get target source steps = some target) ∨
          target = .zero) ∧
        told = if reversed then commits.reverse else commits) ∧
    (∀ error, history get source target reversed limit = .error error ↔
      (∃ steps < limit, ∃ id, visit? get target source steps = some id ∧
        find get id = .error error) ∨
      (visit? get target source limit).isSome ∧ error = .request (.historyLength limit)) ∧
    (∃ ids, Logging.result (history (logged get) source target reversed limit) [] =
        (history get source target reversed limit, ids) ∧ ids.length ≤ limit ∧
      ∀ steps, ids[steps]? = if steps < limit then visit? get target source steps else none) ∧
    ∀ store : Store, store.history source target reversed limit =
      history store.get source target reversed limit := by
  have start : ¬ source.isZero = true := by simpa [ObjectId.isZero] using nonzero
  refine ⟨fun met told => history_eq_ok_iff nonzero, fun error => history_eq_error_iff nonzero,
    ⟨asked get target limit source, ?_, length_asked_le get target source limit,
      getElem?_asked get target source limit⟩,
    fun store => store.history_eq source target reversed limit⟩
  rw [history, history, if_neg start, if_neg start, result_bind, result_run]
  cases run get target limit limit source <;> rfl

/-- One commit under every id, so that it has itself for its parent. -/
def everywhere (_ : ObjectId) : Except Error Object := .ok Store.nextObject

/-- Around the cycle, a walk that ends at the limit is told and a longer one is refused. -/
theorem history_visits_of_cycle :
    let commit := Store.commitAfter (some Store.rootId) "next"
    Store.nextId ≠ .zero ∧
    history everywhere Store.nextId Store.rootId true 2 = .ok (true, [commit, commit]) ∧
    history everywhere Store.nextId .zero true 2 = .error (.request (.historyLength 2)) := by
  intro commit
  have nonzero : Store.nextId ≠ .zero := by decide
  have found : ∀ id, find everywhere id = .ok commit := fun id => by
    rw [find_of_ok (show everywhere id = .ok Store.nextObject from rfl),
      Store.ofObject_nextObject]
  have goes : ∀ target id, next? everywhere target id =
      if id = target then none else some Store.rootId := fun target id => next?_of_ok (found id)
  have first : next? everywhere Store.rootId Store.nextId = some Store.rootId := by
    rw [goes, if_neg (by decide)]
  refine ⟨nonzero, ?_, ?_⟩
  · have last : next? everywhere Store.rootId Store.rootId = none := by rw [goes, if_pos rfl]
    have ends : Ends everywhere Store.rootId Store.nextId [commit, commit] :=
      (ends_of_next (found _) first).mpr ⟨_, rfl, (ends_of_last (found _) last).mpr rfl⟩
    have visited : visit? everywhere Store.rootId Store.nextId 1 = some Store.rootId := by
      rw [visit?_succ, first, Option.bind_some, visit?]
    exact ((history_visits everywhere nonzero Store.rootId true 2).1 true _).mpr
      ⟨_, ends, le_rfl, iff_of_true rfl (.inl ⟨1, visited⟩), rfl⟩
  · have visited : visit? everywhere .zero Store.nextId 2 = some Store.rootId := by
      rw [visit?_succ, goes, if_neg nonzero]
      rw [Option.bind_some, visit?_succ, goes, if_neg (by decide), Option.bind_some, visit?]
    refine ((history_visits everywhere nonzero .zero true 2).2.1 _).mpr (.inr ⟨?_, rfl⟩)
    rw [visited, Option.isSome_some]

end Walk

end PolicyLedger
