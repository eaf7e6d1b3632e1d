/-
**Stores that are written to later.**

A store is reached from another by puts (`Store.Reaches`). What is stored stays, so a store that is
reached gives the same under every id but those that had no object (`Store.keeps_get`). Loading a
commit, its history and a decision look at a store through its ids only, so they come out the same
unless an object was missing:

* `Store.history_of_reaches` for a history;
* `PolicyStore.load_of_reaches` for a load — or it never ends, in either store;
* `DecisionPoint.authorize_of_reaches` for a decision whose policies are loaded without a miss.

`Store.Reaches.changes_nothing` is the three of them.
-/

import PolicyLedger.DecisionPoint
import PolicyLedger.Proofs.Decision.Flattening
import PolicyLedger.Proofs.Decision.Levels
import PolicyLedger.Proofs.Decision.Loading
import PolicyLedger.Proofs.Object.Puts

namespace PolicyLedger

open Steps (StopsWith Keeps)

/-- The error of an object that is not stored. -/
def Error.IsMissing (error : Error) : Prop := ∃ id, error = .missingObject id

/-! ### Puts -/

namespace Store

/-- A store is reached from another by putting objects into it. -/
inductive Reaches (objects : Store) : Store → Prop
  | here : Reaches objects objects
  | put {later : Store} (reached : Reaches objects later) (object : Object) :
    Reaches objects (later.put object)

variable {objects later : Store}

/-- What is stored stays. -/
theorem bytes?_of_reaches (reached : objects.Reaches later) {id : ObjectId} {bytes : Bytes}
    (there : objects.bytes? id = some bytes) : later.bytes? id = some bytes := by
  induction reached with
  | here => exact there
  | put _ object ih => rw [bytes?_put, ih, Option.some_or]

/-- A store gives what it gave before, unless there was no object. -/
theorem keeps_get (reached : objects.Reaches later) (id : ObjectId) :
    Keeps Error.IsMissing (objects.get id) (later.get id) := by
  cases there : objects.bytes? id with
  | none =>
    have missing : objects.get id = .error (.missingObject id.text) := by
      rw [get, there]
    exact .inl ⟨_, missing, id.text, rfl⟩
  | some bytes => exact .inr (by rw [get, get, there, bytes?_of_reaches reached there])

theorem keeps_commit (reached : objects.Reaches later) (id : ObjectId) :
    Keeps Error.IsMissing (objects.commit id) (later.commit id) :=
  (keeps_get reached id).bind fun _ => .refl _

/-! ### Histories -/

theorem keeps_walk (reached : objects.Reaches later) (target : ObjectId) (limit room : Nat)
    (id : ObjectId) :
    Keeps Error.IsMissing (objects.walk target limit room id)
      (later.walk target limit room id) := by
  induction room generalizing id with
  | zero => exact .refl _
  | succ room ih =>
    rw [walk, walk]
    refine (keeps_commit reached id).bind fun commit => ?_
    split
    · exact .refl _
    · cases commit.parent with
      | none => exact .refl _
      | some parent => exact (ih parent).bind fun _ => .refl _

/-- **A history stays the same** unless a commit was missing. -/
theorem history_of_reaches (reached : objects.Reaches later) {source target : ObjectId}
    {reversed : Bool} {limit : Nat}
    (present : ¬ StopsWith Error.IsMissing (objects.history source target reversed limit)) :
    later.history source target reversed limit = objects.history source target reversed limit := by
  refine Keeps.eq ?_ present
  rw [history, history]
  split
  · exact .refl _
  · exact (keeps_walk reached target limit limit source).bind fun _ => .refl _

end Store

/-! ### Loads and decisions -/

section Loads

variable {objects later : Store} {known : UInt32 → UInt32 → Bool} {id : ObjectId}

theorem PolicyStore.keeps_loadFrom_of_reaches (reached : objects.Reaches later) (room : Nat) :
    Keeps Error.IsMissing (loadFrom objects.get known room id) (loadFrom later.get known room id) :=
  keeps_loadFrom (Store.keeps_get reached) (Nat.le_refl room)
    (fun less => absurd less (Nat.lt_irrefl room)) id

/-- **A load stays the same** unless an object was missing, and it keeps on if it never ended. -/
theorem PolicyStore.load_of_reaches (reached : objects.Reaches later)
    (present : ¬ StopsWith Error.IsMissing (load objects known id)) :
    load later known id = load objects known id ∨
      NeverEnds objects known id ∧ NeverEnds later known id := by
  -- The two stores may allow for different numbers of levels, so the runs are compared through the
  -- same number of them: every number if none is enough, and otherwise one that is.
  by_cases never : NeverEnds objects known id
  · refine .inr ⟨never, fun room => ?_⟩
    obtain ⟨error, stops, endless⟩ := never room
    have keeps : Keeps Error.IsMissing (loadFrom objects.get known room id)
        (loadFrom later.get known room id) := keeps_loadFrom_of_reaches reached room
    obtain ⟨cause, missing, absent⟩ | same := keeps
    · obtain rfl := Except.error.inj (stops.symm.trans missing)
      obtain ⟨_, rfl⟩ := endless
      obtain ⟨_, other⟩ := absent
      cases other
    · exact ⟨error, same.trans stops, endless⟩
  · have ends : ∃ room, ¬ StopsWith Error.IsEndless (loadFrom objects.get known room id) :=
      not_forall.mp never
    obtain ⟨room, ends⟩ := ends
    have loaded := load_eq_of_ends ends
    have same := (keeps_loadFrom_of_reaches reached room).eq (loaded ▸ present)
    rw [← same] at ends
    exact .inl ((load_eq_of_ends ends).trans (same.trans loaded.symm))

variable {point : DecisionPoint} {request : AuthorizationRequest}

/-- **A decision stays the same** unless an object was missing when its policies were loaded. -/
theorem DecisionPoint.authorize_of_reaches (reached : objects.Reaches later)
    (present : ∀ id, request.policyStore.validate = .ok id →
      ¬ StopsWith Error.IsMissing (PolicyStore.load objects point.registry.knows id))
    (wording : Wording) :
    point.authorize later request wording = point.authorize objects request wording ∨
      ∃ id, request.policyStore.validate = .ok id ∧
        PolicyStore.NeverEnds objects point.registry.knows id ∧
        PolicyStore.NeverEnds later point.registry.knows id := by
  cases valid : request.policyStore.validate with
  | error error =>
    refine .inl ?_
    rw [authorize, authorize, authorizeFrom, authorizeFrom, decide, decide, valid]
    rfl
  | ok id =>
    obtain same | never := PolicyStore.load_of_reaches reached (present id valid)
    · refine .inl ?_
      have decided : point.decide later.get later.size request =
          point.decide objects.get objects.size request := by
        rw [decide_of_named valid, decide_of_named valid, ← PolicyStore.load, ← PolicyStore.load,
          same]
      rw [authorize, authorize, authorizeFrom, authorizeFrom, decided]
    · exact .inr ⟨id, rfl, never⟩

/-- **Later writes change nothing.** Whatever is put into a store, a commit is loaded from it, a
history is listed and a request is decided as before, be the result a value or an error, unless an
object was missing then; only a load that never ended has no result, and it still never ends. -/
theorem Store.Reaches.changes_nothing (reached : objects.Reaches later) :
    (∀ (registry : Registry) (id : ObjectId),
      ¬ StopsWith Error.IsMissing (PolicyStore.load objects registry.knows id) →
        PolicyStore.load later registry.knows id = PolicyStore.load objects registry.knows id ∨
        PolicyStore.NeverEnds objects registry.knows id ∧
          PolicyStore.NeverEnds later registry.knows id) ∧
    (∀ (source target : ObjectId) (reversed : Bool) (limit : Nat),
      ¬ StopsWith Error.IsMissing (objects.history source target reversed limit) →
        later.history source target reversed limit =
          objects.history source target reversed limit) ∧
    ∀ (point : DecisionPoint) (request : AuthorizationRequest) (wording : Wording),
      (∀ id, request.policyStore.validate = .ok id →
        ¬ StopsWith Error.IsMissing (PolicyStore.load objects point.registry.knows id)) →
      point.authorize later request wording = point.authorize objects request wording ∨
      ∃ id, request.policyStore.validate = .ok id ∧
        PolicyStore.NeverEnds objects point.registry.knows id ∧
        PolicyStore.NeverEnds later point.registry.knows id :=
  ⟨fun _ _ present => PolicyStore.load_of_reaches reached present,
    fun _ _ _ _ present => history_of_reaches reached present,
    fun _ _ wording present => DecisionPoint.authorize_of_reaches reached present wording⟩

end Loads

/-! ### A store with one more object -/

namespace PolicyStore

/-- A request on the policies of the commit whose tree holds a policy twice. -/
def sharingRequest : AuthorizationRequest where
  requestId := "request"
  policyStore := ⟨1, "ledger", sharingId.text⟩
  query := { subject := .user "alice"
             resource := { kind := "Document", id := "42" }
             action := { name := "Document::Read" } }

/-- A decision point of the standard languages. -/
def standardPoint : DecisionPoint := ⟨{}, .standard, .cedar⟩

theorem exists_load_sharingStore :
    ∃ store, load sharingStore Registry.standard.knows sharingId = .ok store := by
  have decides := decides_loadFrom visits_sharingId.ends
    (reaches_size sharingStore .standard sharingId)
  exact ⟨_, (decides.loads _).mpr ⟨_, _, visits_sharingId, yields_sharingId, rfl⟩⟩

theorem history_sharingStore :
    sharingStore.history sharingId .zero true 1 = .ok (true, [sharingCommit]) := by
  have committed : sharingStore.commit sharingId = .ok sharingCommit := commit_sharingId
  have walked : sharingStore.walk .zero 1 1 sharingId = .ok (false, [sharingCommit]) := by
    rw [Store.walk, committed]
    rfl
  rw [Store.history, if_neg (by decide), walked]
  rfl

theorem validate_sharingRequest : sharingRequest.policyStore.validate = .ok sharingId :=
  AuthorizationRequest.RefersTo.validate ⟨by decide, by decide, by decide⟩ (by decide) (by decide)

/-- One more object changes neither the load of a commit nor its history nor a decision by it. -/
theorem changes_nothing_of_emptyObject :
    sharingStore.Reaches (sharingStore.put Store.emptyObject) ∧
    (∃ store, load sharingStore Registry.standard.knows sharingId = .ok store ∧
      load (sharingStore.put Store.emptyObject) Registry.standard.knows sharingId = .ok store) ∧
    (sharingStore.put Store.emptyObject).history sharingId .zero true 1 =
      .ok (true, [sharingCommit]) ∧
    standardPoint.authorize (sharingStore.put Store.emptyObject) sharingRequest =
      standardPoint.authorize sharingStore sharingRequest := by
  have reached : sharingStore.Reaches (sharingStore.put Store.emptyObject) := .put .here _
  obtain ⟨store, loaded⟩ := exists_load_sharingStore
  have present :
      ¬ StopsWith Error.IsMissing (load sharingStore Registry.standard.knows sharingId) := by
    rw [loaded]
    exact Steps.not_stopsWith_ok store
  have ends : ¬ NeverEnds sharingStore Registry.standard.knows sharingId := by
    rw [neverEnds_iff, loaded]
    exact Steps.not_stopsWith_ok store
  obtain ⟨loads, histories, decisions⟩ := reached.changes_nothing
  refine ⟨reached, ⟨store, loaded, ?_⟩, ?_, ?_⟩
  · exact ((loads .standard sharingId present).resolve_right fun never => ends never.1).trans loaded
  · rw [histories _ _ _ _ (by rw [history_sharingStore]; exact Steps.not_stopsWith_ok _)]
    exact history_sharingStore
  · refine (decisions standardPoint sharingRequest {} ?_).resolve_right ?_
    · intro id valid
      obtain rfl := Except.ok.inj (validate_sharingRequest.symm.trans valid)
      exact present
    · rintro ⟨id, valid, never, -⟩
      obtain rfl := Except.ok.inj (validate_sharingRequest.symm.trans valid)
      exact ends never

end PolicyStore

end PolicyLedger
