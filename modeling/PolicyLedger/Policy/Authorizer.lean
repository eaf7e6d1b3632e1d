/-
**Deciding a request.**

Every policy of a set is evaluated for a request. A request is allowed if a policy permits it and
none forbids it; the policies that decide are the forbidding ones or else the permitting ones. A
policy whose evaluation fails decides nothing, but it is reported.

* `Response.allows` and `Response.reasons` say the rule.
-/

import PolicyLedger.Policy.Eval

namespace PolicyLedger.Policy

/-- Policies under distinct ids, in the order they were added. -/
structure PolicySet where
  rows : List (String × Policy)

namespace PolicySet

/-- The set without policies. -/
def empty : PolicySet := ⟨[]⟩

/-- Holds of the ids of a set. -/
def contains (set : PolicySet) (id : String) : Bool := set.rows.any fun row => row.1 = id

/-- A set with one more policy, whose id must be new. -/
def add? (set : PolicySet) (id : String) (policy : Policy) : Option PolicySet :=
  if set.contains id then none else some ⟨set.rows ++ [(id, policy)]⟩

end PolicySet

/-- What the policies of a set say about a request. -/
structure Response where
  permits : List String
  forbids : List String
  errors : List String
  deriving DecidableEq, Repr

namespace Response

/-- Holds if a policy permits the request and none forbids it. -/
def allows (response : Response) : Bool :=
  !response.permits.isEmpty && response.forbids.isEmpty

/-- The policies that decide. -/
def reasons (response : Response) : List String :=
  if response.forbids.isEmpty then response.permits else response.forbids

end Response

namespace PolicySet

/-- The ids of the policies with an outcome for a request. -/
def idsWhere (set : PolicySet) (test : Policy → Bool) : List String :=
  (set.rows.filter fun row => test row.2).map Prod.fst

/-- What the policies say about a request. -/
def evaluate (set : PolicySet) (env : Environment) : Response :=
  { permits := set.idsWhere fun policy =>
      policy.effect = .permit && policy.applies? env = some true
    forbids := set.idsWhere fun policy =>
      policy.effect = .forbid && policy.applies? env = some true
    errors := set.idsWhere fun policy => (policy.applies? env).isNone }

end PolicySet

end PolicyLedger.Policy
