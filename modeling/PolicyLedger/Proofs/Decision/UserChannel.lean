/-
**What the subject of a request is told.**

A denial has one of three origins: the policies, an error of the ledger's own, or an error in what
was handed in. Unless the administrators' message is shared, the subject is told the origin and
nothing else:

* `userReason?_of_comesFrom`: the reason for the subject is a function of the origin;
* `userReason?_eq`: so two runs with denials of one origin tell their subjects the same, whatever
  objects, policies, requests and errors they are about and whatever words the libraries use; a
  denial by the policies does so even if the message is shared, and otherwise the shared message is
  the one for administrators.
-/

import PolicyLedger.Proofs.Decision.FailClosed

namespace PolicyLedger

/-- Where a denial comes from, as far as the subject of the request may know. -/
inductive Origin
  | policies
  | ledger
  | caller
  deriving DecidableEq, Repr

namespace Origin

/-- The origin of a denial because of an error. -/
def ofError (error : Error) : Origin := if error.errorClass = .internal then ledger else caller

/-- What is told about a denial of an origin. -/
def reason : Origin → Reason
  | policies => ⟨"403", "Forbidden"⟩
  | ledger => ⟨"500", "Internal Server Error"⟩
  | caller => ⟨"400", "Bad Request"⟩

/-- The generic reason of an error is that of its origin. -/
theorem reason_ofError (error : Error) :
    (ofError error).reason = Decision.classReason error.errorClass := by
  unfold ofError
  cases error.errorClass <;> rfl

end Origin

/-- A use of a decision point by one of its two entry points: on the policies of a commit, with what
is found under each id and a number of levels of trees, or on policies at hand. -/
inductive Run
  | onCommit (lookup : Lookup) (room : Nat) (request : AuthorizationRequest)
  | onStore (requestId : String) (store : PolicyStore) (query : AccessQuery)

namespace Run

variable (point : DecisionPoint)

/-- The id of the request. -/
def requestId : Run → String
  | onCommit _ _ request => request.requestId
  | onStore requestId _ _ => requestId

/-- The decision of a run in which the libraries speak in a wording. -/
def decision (wording : Wording) : Run → Decision
  | onCommit lookup room request => point.authorizeFrom lookup room request wording
  | onStore requestId store query => point.authorizeWith requestId store query wording

/-- The policies grant what is asked. -/
def IsGranted : Run → Prop
  | onCommit lookup room request => point.Grants lookup room request
  | onStore _ store query => point.language.Grants store query

/-- The policies do not grant what is asked. -/
def IsDenied : Run → Prop
  | onCommit lookup room request => point.Denies lookup room request
  | onStore _ store query => point.language.Denies store query

/-- A step of the run fails with an error. -/
def Fails : Run → Error → Prop
  | onCommit lookup room request => point.Fails lookup room request
  | onStore _ store query => point.language.Fails store query

/-- A denial by the policies, or because of an error, has its origin. -/
inductive ComesFrom (run : Run) : Origin → Prop
  | denial (denied : run.IsDenied point) : ComesFrom run .policies
  | failure {error : Error} (failed : run.Fails point error) : ComesFrom run (.ofError error)

variable {point} {wording : Wording}

/-- A run is granted, denied or fails. -/
theorem granted_or_comesFrom (run : Run) :
    run.IsGranted point ∨ ∃ origin, run.ComesFrom point origin := by
  have total : run.IsGranted point ∨ run.IsDenied point ∨ ∃ error, run.Fails point error := by
    cases run with
    | onCommit lookup room request => exact point.grants_or_denies_or_fails lookup room request
    | onStore _ store query => exact point.language.grants_or_denies_or_fails store query
  obtain granted | denied | ⟨error, failed⟩ := total
  · exact .inl granted
  · exact .inr ⟨.policies, .denial denied⟩
  · exact .inr ⟨_, .failure failed⟩

/-- What is granted is permitted. -/
theorem decision_of_isGranted {run : Run} (granted : run.IsGranted point) :
    run.decision point wording = .permit run.requestId := by
  cases run with
  | onCommit lookup room request =>
    rw [decision, DecisionPoint.authorizeFrom, DecisionPoint.decide_of_grants granted]
    rfl
  | onStore requestId store query =>
    rw [decision, DecisionPoint.authorizeWith, Specification.check_of_grants granted]
    rfl

/-- What the policies deny is forbidden. -/
theorem decision_of_isDenied {run : Run} (denied : run.IsDenied point) :
    ∃ message, run.decision point wording = .forbidden run.requestId message := by
  cases run with
  | onCommit lookup room request =>
    obtain ⟨message, decided⟩ := DecisionPoint.decide_of_denies denied
    refine ⟨message, ?_⟩
    rw [decision, DecisionPoint.authorizeFrom, decided]
    rfl
  | onStore requestId store query =>
    obtain ⟨message, checked⟩ := Specification.check_of_denies denied requestId
    refine ⟨message, ?_⟩
    rw [decision, DecisionPoint.authorizeWith, checked]
    rfl

/-- What fails is denied with the error. -/
theorem decision_of_fails {run : Run} {error : Error} (failed : run.Fails point error) :
    run.decision point wording =
      .ofError run.requestId error point.config.shareAdminReason wording := by
  cases run with
  | onCommit lookup room request =>
    rw [decision, DecisionPoint.authorizeFrom, DecisionPoint.decide_of_fails failed]
    rfl
  | onStore requestId store query =>
    rw [decision, DecisionPoint.authorizeWith, Specification.check_of_fails failed]
    rfl

/-- A run is denied just if its denial has an origin. -/
theorem allows_eq_false_iff {run : Run} :
    (run.decision point wording).allows = false ↔ ∃ origin, run.ComesFrom point origin := by
  constructor
  · intro refused
    obtain granted | found := @granted_or_comesFrom point run
    · rw [decision_of_isGranted granted] at refused
      cases refused
    · exact found
  · rintro ⟨_, denied | failed⟩
    · obtain ⟨message, same⟩ := decision_of_isDenied denied
      rw [same]
      rfl
    · rw [decision_of_fails failed]
      rfl

/-- The subject is told the origin of a denial by the policies, and that of any denial unless the
administrators' message is shared. -/
theorem userReason?_of_comesFrom {run : Run} {origin : Origin}
    (source : run.ComesFrom point origin)
    (unshared : point.config.shareAdminReason = false ∨ origin = .policies) :
    (run.decision point wording).userReason? = some origin.reason := by
  cases source with
  | denial denied =>
    obtain ⟨message, same⟩ := decision_of_isDenied denied
    rw [same]
    rfl
  | @failure error failed =>
    rw [decision_of_fails failed, Origin.reason_ofError]
    obtain unshared | policies := unshared
    · rw [unshared]
      rfl
    · rw [Origin.ofError] at policies
      split at policies <;> cases policies

/-- **The subject's reason tells the origin only.** A run is denied just if its denial has an
origin. Denials of one origin, in any two runs and in whatever words of the libraries, tell their
subjects the same if the administrators' message is not shared, and denials by the policies always
do. A shared message of an error is the one for administrators, with all of these words. -/
theorem userReason?_eq (point : DecisionPoint) (first second : Run)
    (firstWords secondWords : Wording) :
    ((first.decision point firstWords).allows = false ↔
      ∃ origin, first.ComesFrom point origin) ∧
    (∀ origin, first.ComesFrom point origin → second.ComesFrom point origin →
      point.config.shareAdminReason = false ∨ origin = .policies →
      (first.decision point firstWords).userReason? =
        (second.decision point secondWords).userReason?) ∧
    ∀ error, first.Fails point error → point.config.shareAdminReason = true →
      ∃ admin user, (first.decision point firstWords).adminReason? = some admin ∧
        (first.decision point firstWords).userReason? = some user ∧
        admin.message = error.message firstWords ∧ user.message = admin.message := by
  refine ⟨allows_eq_false_iff, fun origin source other unshared => ?_, fun error failed shared => ?_⟩
  · rw [userReason?_of_comesFrom source unshared, userReason?_of_comesFrom other unshared]
  · rw [decision_of_fails failed, shared]
    exact ⟨_, _, rfl, rfl, rfl, rfl⟩

/-- A question of a subject about a document. -/
def documentQuestion (kind id : String) : AccessQuery where
  subject := { kind := kind, id := id }
  resource := { kind := "Document", id := "42" }
  action := { name := "Document::Read" }

/-- Without policies, every query that passes the guard and is resolved is denied. -/
theorem denies_of_resolved {spec : Specification} {query : AccessQuery} {env : Policy.Environment}
    (guarded : Guard.verify query = .ok ()) (resolved : Resolution.environment query = .ok env)
    (version : String) : spec.Denies { version := version } query := by
  refine ⟨env, ⟨[]⟩, ⟨guarded, resolved, .nil, List.nodup_nil, ?_⟩, ?_⟩
  · exact fun _ inside => absurd inside List.not_mem_nil
  · rintro ⟨⟨_, inside, -⟩, -⟩
    exact absurd inside List.not_mem_nil

/-- Two denials by the policies are told alike. So are an object in a file that cannot be read and one
that is not stored, whatever is said of the file, and so are a subject in the reserved namespace and
a request without an account. With a shared message the subject is told of the file. -/
theorem userReason?_of_runs :
    let point (share : Bool) : DecisionPoint := ⟨{ shareAdminReason := share }, .standard, .cedar⟩
    let unread : Run := onCommit DecisionPoint.unreadable 0 DecisionPoint.documentRequest
    let unstored : Run := onCommit Store.empty.get 0 DecisionPoint.documentRequest
    let reserved : Run := onStore "a" { version := "1" } (documentQuestion "ZTAuth" "mallory")
    let unaccounted : Run := onCommit Store.empty.get 0
      { requestId := "b", policyStore := ⟨0, "ledger", ""⟩, query := documentQuestion "USER" "b" }
    let words : Wording := { file := "/var/ledger: disk failure" }
    ((onStore "a" { version := "1" } (documentQuestion "USER" "a")).decision
        (point true) words).userReason? =
      ((onStore "b" { version := "2" } (documentQuestion "USER" "b")).decision
        (point true) {}).userReason? ∧
    (unread.decision (point false) words).userReason? =
      (unstored.decision (point false) {}).userReason? ∧
    (reserved.decision (point false) words).userReason? =
      (unaccounted.decision (point false) {}).userReason? ∧
    ∃ admin user, (unread.decision (point true) words).adminReason? = some admin ∧
      (unread.decision (point true) words).userReason? = some user ∧
      admin.message = "I/O error: /var/ledger: disk failure" ∧ user.message = admin.message := by
  intro point unread unstored reserved unaccounted words
  have unreadable (share : Bool) : unread.Fails (point share) .unreadableFile := .loading rfl rfl
  have missing : unstored.Fails (point false) (.missingObject
      "b29c747e7ea79684bdc1e29d159ead1fa3268e5ba672c782aef3fa133962bddb") := .loading rfl rfl
  have refused : reserved.Fails (point false) (.reserved "subject type" "ZTAuth") := .guard rfl
  have unnamed : unaccounted.Fails (point false) (.request (.missing "account id")) :=
    .reference rfl
  refine ⟨?_, ?_, ?_, ?_⟩
  · exact (userReason?_eq (point true) _ _ words {}).2.1 .policies
      (.denial (denies_of_resolved rfl rfl "1")) (.denial (denies_of_resolved rfl rfl "2"))
      (.inr rfl)
  · exact (userReason?_eq (point false) _ _ words {}).2.1 .ledger (.failure (unreadable false))
      (.failure missing) (.inl rfl)
  · exact (userReason?_eq (point false) _ _ words {}).2.1 .caller (.failure refused)
      (.failure unnamed) (.inl rfl)
  · exact (userReason?_eq (point true) unread unstored words {}).2.2 _ (unreadable true) rfl

end Run

end PolicyLedger
