/-
**The order of the policies.**

Two stores whose policies are the same in another order decide alike:

* `Evaluates.exists_of_perm`: if all steps of a check succeed for one of them, so they do for the
  other, whose set has the same rows in another order;
* `Response.Reorders`: then what the policies say about a request names the same policies;
* `denialMessage_of_perm`: the message of a denial sorts their ids.

A store with an unusable policy (`Unusable`) is never decided on, wherever that policy is.
`check_of_perm` says both.
-/

import Mathlib.Data.List.Perm.Basic
import Mathlib.Data.List.Sort
import Mathlib.Data.String.Basic
import PolicyLedger.Proofs.Authoring.Slots
import PolicyLedger.Proofs.Decision.UserChannel

namespace PolicyLedger

open Policy (PolicySet Response Environment)

namespace Policy

/-- Another response names the same policies, in another order. -/
structure Response.Reorders (first second : Response) : Prop where
  permits : first.permits.Perm second.permits
  forbids : first.forbids.Perm second.forbids
  errors : first.errors.Perm second.errors

namespace Response.Reorders

variable {first second : Response}

theorem allows_eq (reorders : first.Reorders second) : first.allows = second.allows := by
  rw [allows, allows, reorders.permits.isEmpty_eq, reorders.forbids.isEmpty_eq]

theorem reasons (reorders : first.Reorders second) : first.reasons.Perm second.reasons := by
  unfold Response.reasons
  rw [reorders.forbids.isEmpty_eq]
  split
  · exact reorders.permits
  · exact reorders.forbids

end Response.Reorders

/-- Sets with the same rows, in another order, say the same about a request. -/
theorem PolicySet.evaluate_of_perm {first second : PolicySet}
    (reordered : first.rows.Perm second.rows) (env : Environment) :
    (first.evaluate env).Reorders (second.evaluate env) where
  permits := (reordered.filter _).map _
  forbids := (reordered.filter _).map _
  errors := (reordered.filter _).map _

end Policy

namespace Specification

/-! ### Messages -/

theorem sortedIds_of_perm {first second : List String} (reordered : first.Perm second) :
    sortedIds first = sortedIds second := by
  have sorted (ids : List String) : (sortedIds ids).Pairwise (· ≤ ·) := List.pairwise_mergeSort' _ _
  have kept : (sortedIds first).Perm (sortedIds second) := calc
    (sortedIds first).Perm first := List.mergeSort_perm _ _
    first.Perm second := reordered
    second.Perm (sortedIds second) := (List.mergeSort_perm _ _).symm
  exact kept.eq_of_pairwise' (sorted first) (sorted second)

/-- The message of a denial does not tell the order of the policies. -/
theorem denialMessage_of_perm {first second : List String} (reordered : first.Perm second) :
    denialMessage first = denialMessage second := by
  rw [denialMessage, denialMessage, reordered.isEmpty_eq, sortedIds_of_perm reordered]

/-! ### Steps -/

variable {spec : Specification} {first second : PolicyStore} {query : AccessQuery}

/-- If all steps of a check succeed, they do so with the policies in another order. -/
theorem Evaluates.exists_of_perm {env : Environment} {set : PolicySet}
    (evaluates : spec.Evaluates first query env set)
    (reordered : first.policies.Perm second.policies) :
    ∃ other, spec.Evaluates second query env other ∧ set.rows.Perm other.rows := by
  obtain ⟨rows, collected, moved⟩ :=
    List.perm_comp_forall₂ reordered.symm evaluates.collected
  refine ⟨⟨rows⟩, ?_, moved.symm⟩
  exact
    { guarded := evaluates.guarded
      resolved := evaluates.resolved
      collected := collected
      distinct := (reordered.map StoreItem.codeId).nodup_iff.mp evaluates.distinct
      faultless := fun row inside => evaluates.faultless row (moved.subset inside) }

/-- A check whose steps all succeed decides the same with the policies in another order. -/
theorem Evaluates.check_eq {env : Environment} {set : PolicySet}
    (evaluates : spec.Evaluates first query env set)
    (reordered : first.policies.Perm second.policies) (requestId : String) :
    spec.check requestId second query = spec.check requestId first query := by
  obtain ⟨other, again, moved⟩ := evaluates.exists_of_perm reordered
  have reorders := PolicySet.evaluate_of_perm moved env
  rw [check_of_evaluates evaluates, check_of_evaluates again, reorders.allows_eq,
    denialMessage_of_perm reorders.reasons]

/-- A check that fails does so with the policies in another order. -/
theorem exists_fails_of_perm (reordered : first.policies.Perm second.policies) {error : Error}
    (failed : spec.Fails first query error) : ∃ other, spec.Fails second query other := by
  rcases spec.evaluates_or_fails second query with ⟨env, set, evaluates⟩ | failed'
  · obtain ⟨_, again, -⟩ := evaluates.exists_of_perm reordered.symm
    have decided := check_of_evaluates again ""
    rw [check_of_fails failed] at decided
    cases decided
  · exact failed'

/-! ### Unusable policies -/

/-- Two policies of the store have one code id, or one of them is not in the language, or it is not
the JSON form of a policy. -/
inductive Unusable (spec : Specification) (store : PolicyStore) : Prop
  | shared (i j : Nat) (before : i < j) {earlier later : StoreItem}
    (inside : store.policies[i]? = some earlier) (also : store.policies[j]? = some later)
    (same : earlier.codeId = later.codeId)
  | foreign {item : StoreItem} (inside : item ∈ store.policies)
    (other : item.blob.header.languageId ≠ spec.backendLanguageId ∨
      item.blob.header.languageVersionId ≠ spec.languageVersionId)
  | unreadable {item : StoreItem} (inside : item ∈ store.policies)
    (unread : Authoring.readStored? item.blob.data = none)

/-- A store with an unusable policy is not evaluated. -/
theorem Unusable.not_evaluates {store : PolicyStore} (unusable : spec.Unusable store)
    {env : Environment} {set : PolicySet} : ¬ spec.Evaluates store query env set := by
  intro evaluates
  cases unusable with
  | shared i j before inside also same =>
    have apart := List.pairwise_iff_getElem.mp evaluates.distinct
    obtain ⟨_, rfl⟩ := List.getElem?_eq_some_iff.mp inside
    obtain ⟨within, rfl⟩ := List.getElem?_eq_some_iff.mp also
    refine apart i j (by simp; omega) (by simpa using within) before ?_
    simpa using same
  | foreign inside other =>
    obtain ⟨row, -, -, accepted⟩ := Steps.exists_of_mem_left evaluates.collected inside
    obtain language | version := other
    · exact language accepted.language
    · exact version accepted.version
  | unreadable inside unread =>
    obtain ⟨row, -, -, accepted⟩ := Steps.exists_of_mem_left evaluates.collected inside
    cases unread.symm.trans accepted.read

/-- **Decisions do not depend on the order of the policies.** Checks with the same policies in
another order give the same decision, or both fail; a check with an unusable policy fails. -/
theorem check_of_perm (spec : Specification) (requestId : String) (query : AccessQuery) :
    (∀ first second : PolicyStore, first.policies.Perm second.policies →
      (∃ decision, spec.check requestId first query = .ok decision ∧
        spec.check requestId second query = .ok decision) ∨
      ((∃ error, spec.check requestId first query = .error error) ∧
        ∃ error, spec.check requestId second query = .error error)) ∧
    ∀ store : PolicyStore, spec.Unusable store →
      ∃ error, spec.check requestId store query = .error error := by
  refine ⟨fun first second reordered => ?_, fun store unusable => ?_⟩
  · rcases spec.evaluates_or_fails first query with ⟨env, set, evaluates⟩ | ⟨error, failed⟩
    · have same := evaluates.check_eq reordered requestId
      rw [check_of_evaluates evaluates] at same
      exact .inl ⟨_, check_of_evaluates evaluates requestId, same⟩
    · obtain ⟨other, again⟩ := exists_fails_of_perm reordered failed
      exact .inr ⟨⟨error, check_of_fails failed requestId⟩, other, check_of_fails again requestId⟩
  · rcases spec.evaluates_or_fails store query with ⟨env, set, evaluates⟩ | ⟨error, failed⟩
    · exact absurd evaluates unusable.not_evaluates
    · exact ⟨error, check_of_fails failed requestId⟩

/-- A stored policy that forbids every request. -/
def forbidding (codeId : String) : StoreItem :=
  ⟨.zero, Authoring.NamedPolicy.blob .cedar ⟨Authoring.openPolicy .forbid .empty, codeId⟩⟩

/-- A store of policies that forbid every request. -/
def forbiddingStore (codeIds : List String) : PolicyStore :=
  { version := "1", policies := codeIds.map forbidding }

/-- A stored policy that forbids every request is accepted. -/
theorem collects_forbidding (codeId : String) : ∃ policy, (∀ env, policy.applies? env = some true) ∧
    Specification.cedar.Collects (forbidding codeId) (codeId, policy) := by
  let named : Authoring.NamedPolicy := ⟨Authoring.openPolicy .forbid .empty, codeId⟩
  have proper : named.IsProper :=
    ⟨⟨trivial, trivial, rfl, trivial, nofun, nofun⟩, .inl rfl⟩
  refine ⟨named.carried, fun _ => rfl, rfl, rfl, rfl, ?_⟩
  have shallow : named.policy.IsShallow := nofun
  have read := Authoring.readStored?_storedBytes proper
  rw [if_pos shallow, ← Authoring.NamedPolicy.data_blob .cedar named] at read
  exact read

theorem evaluates_forbiddingStore : ∃ env set, Specification.cedar.Evaluates
    (forbiddingStore ["p", "q"]) (Run.documentQuestion "USER" "alice") env set := by
  obtain ⟨p, appliesP, collectsP⟩ := collects_forbidding "p"
  obtain ⟨q, appliesQ, collectsQ⟩ := collects_forbidding "q"
  refine ⟨_, ⟨[("p", p), ("q", q)]⟩, rfl, rfl, .cons collectsP (.cons collectsQ .nil), ?_, ?_⟩
  · decide
  · simp [appliesP, appliesQ]

/-- Two policies that forbid every request deny one in either order, and two with one code id are
not evaluated. -/
theorem check_of_perm_forbiddingStore :
    (∃ decision,
      Specification.cedar.check "1" (forbiddingStore ["p", "q"])
        (Run.documentQuestion "USER" "alice") = .ok decision ∧
      Specification.cedar.check "1" (forbiddingStore ["q", "p"])
        (Run.documentQuestion "USER" "alice") = .ok decision) ∧
    ∃ error, Specification.cedar.check "1" (forbiddingStore ["p", "p"])
      (Run.documentQuestion "USER" "alice") = .error error := by
  obtain ⟨orders, unusable⟩ := check_of_perm .cedar "1" (Run.documentQuestion "USER" "alice")
  refine ⟨?_, unusable _ (.shared 0 1 (by decide) rfl rfl rfl)⟩
  obtain same | ⟨⟨error, failed⟩, -⟩ := orders (forbiddingStore ["p", "q"])
    (forbiddingStore ["q", "p"]) (.swap _ _ _)
  · exact same
  · obtain ⟨env, set, evaluates⟩ := evaluates_forbiddingStore
    cases failed.symm.trans (check_of_evaluates evaluates "1")

end Specification

end PolicyLedger
