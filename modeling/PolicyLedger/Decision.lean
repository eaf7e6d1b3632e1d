/-
**Decisions.**

A request is permitted, or it is denied for a reason. A denial tells the reason twice: in full for
administrators, and as far as the subject of the request may know it.

* `ofError` turns an error into a denial; only its class decides what the subject sees, unless the
  administrators' message is shared.
-/

import PolicyLedger.Error
import PolicyLedger.Json.Basic

namespace PolicyLedger

/-- A code with a message. -/
structure Reason where
  code : String
  message : String
  deriving DecidableEq, Repr

/-- The outcome of a request. -/
inductive Verdict
  | permit
  | deny (admin user : Reason)
  deriving DecidableEq, Repr

/-- The answer to a request, under its id. -/
structure Decision where
  id : String
  verdict : Verdict
  deriving DecidableEq, Repr

namespace Decision

/-- Holds if the request is permitted. -/
def allows (decision : Decision) : Bool := decision.verdict = .permit

/-- The reason of a denial, in full. -/
def adminReason? (decision : Decision) : Option Reason :=
  match decision.verdict with
  | .permit => none
  | .deny admin _ => some admin

/-- The reason of a denial, for the subject. -/
def userReason? (decision : Decision) : Option Reason :=
  match decision.verdict with
  | .permit => none
  | .deny _ user => some user

/-- The answer that permits a request. -/
def permit (id : String) : Decision := ⟨id, .permit⟩

/-- An answer that denies a request for given reasons. -/
def deny (id : String) (admin user : Reason) : Decision := ⟨id, .deny admin user⟩

/-- An answer that denies a request because of the policies. -/
def forbidden (id message : String) : Decision :=
  deny id ⟨"403", message⟩ ⟨"403", "Forbidden"⟩

/-- The code of an error of a class and what the subject sees of it. -/
def classReason : ErrorClass → Reason
  | .internal => ⟨"500", "Internal Server Error"⟩
  | .malformedInput | .contractViolation | .security => ⟨"400", "Bad Request"⟩

/-- The answer that denies a request because of an error, which is told in a wording. -/
def ofError (id : String) (error : Error) (share : Bool) (wording : Wording := {}) : Decision :=
  let generic := classReason error.errorClass
  let admin : Reason := ⟨generic.code, error.message wording⟩
  deny id admin (if share then admin else generic)

/-! ### JSON -/

/-- The object for a reason. -/
def reasonJson (reason : Reason) : Json :=
  .object [("code", .text reason.code), ("message", .text reason.message)]

/-- The object for an answer; a permission has no reasons. -/
def toJson (decision : Decision) : Json :=
  .object ([("id", .text decision.id), ("decision", .bool decision.allows)] ++
    (decision.adminReason?.map fun reason => ("admin_error", reasonJson reason)).toList ++
    (decision.userReason?.map fun reason => ("user_error", reasonJson reason)).toList)

end Decision

end PolicyLedger
