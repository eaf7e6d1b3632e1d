/-
**The policies of a store as one set.**

Before a request is evaluated, every stored policy is read and collected under its code id. The
statement `policySet_eq_ok_iff` says when this succeeds, and with what: each stored policy is in the
language and is the JSON form of a policy, and no two have one code id; then the set has one row for
each of them, in their order.
-/

import PolicyLedger.DecisionPoint
import PolicyLedger.Proofs.Steps

namespace PolicyLedger

open Policy (PolicySet)

/-- The code id of a stored blob. -/
def StoreItem.codeId (item : StoreItem) : String := item.blob.header.codeId

namespace Specification

/-- A stored blob is in the language, and its data is the JSON form of a policy. -/
structure Accepts (spec : Specification) (item : StoreItem) (policy : Policy) : Prop where
  language : item.blob.header.languageId = spec.backendLanguageId
  version : item.blob.header.languageVersionId = spec.languageVersionId
  read : Authoring.readStored? item.blob.data = some policy

/-- A row of a set holds the policy of a stored blob under its code id. -/
def Collects (spec : Specification) (item : StoreItem) (row : String × Policy) : Prop :=
  row.1 = item.codeId ∧ spec.Accepts item row.2

variable {spec : Specification}

/-- One stored policy is added if it is accepted and its code id is new. -/
theorem addPolicy_eq_ok_iff {set next : PolicySet} {item : StoreItem} :
    spec.addPolicy set item = .ok next ↔
      ∃ policy, spec.Accepts item policy ∧ set.contains item.codeId = false ∧
        next = ⟨set.rows ++ [(item.codeId, policy)]⟩ := by
  constructor
  · intro added
    unfold addPolicy at added
    simp only at added
    split at added
    · cases added
    · next inLanguage =>
      rw [not_or, not_not, not_not] at inLanguage
      split at added
      · cases added
      · next value parsed =>
        split at added
        · cases added
        · next grown found =>
          cases added
          obtain ⟨policy, read, placed⟩ := Option.bind_eq_some_iff.mp found
          unfold PolicySet.add? at placed
          split at placed
          · cases placed
          · next fresh =>
            refine ⟨policy, ⟨inLanguage.1, inLanguage.2, ?_⟩, ?_, (Option.some.inj placed).symm⟩
            · rw [Authoring.readStored?, parsed]
              exact read
            · exact Bool.not_eq_true _ ▸ fresh
  · rintro ⟨policy, ⟨language, version, read⟩, fresh, rfl⟩
    obtain ⟨value, parsed, read⟩ := Option.bind_eq_some_iff.mp read
    have placed : (Policy.ofJson? value).bind (set.add? item.blob.header.codeId) =
        some ⟨set.rows ++ [(item.codeId, policy)]⟩ := by
      rw [read, Option.bind_some, PolicySet.add?,
        if_neg (by rw [← StoreItem.codeId, fresh]; decide)]
      rfl
    simp only [addPolicy, language, version, ne_eq, not_true_eq_false, or_self, if_false, parsed,
      placed]

/-- An id is in a grown set if it was there or is the new one. -/
theorem contains_append (set : PolicySet) (id other : String) (policy : Policy) :
    PolicySet.contains ⟨set.rows ++ [(id, policy)]⟩ other = false ↔
      set.contains other = false ∧ id ≠ other := by
  simp [PolicySet.contains]

/-- Stored policies are added to a set if each is accepted, and the code ids are new and
distinct. -/
theorem foldlM_addPolicy_eq_ok_iff {items : List StoreItem} {set next : PolicySet} :
    items.foldlM spec.addPolicy set = .ok next ↔
      ∃ rows, next = ⟨set.rows ++ rows⟩ ∧ List.Forall₂ spec.Collects items rows ∧
        (items.map StoreItem.codeId).Nodup ∧
        ∀ item ∈ items, set.contains item.codeId = false := by
  induction items generalizing set with
  | nil =>
    constructor
    · intro done
      cases done
      exact ⟨[], by simp, .nil, by simp, by simp⟩
    · rintro ⟨rows, rfl, collected, -⟩
      cases collected
      simp [pure, Except.pure]
  | cons item rest ih =>
    simp only [List.foldlM_cons, Steps.bind_eq_ok, addPolicy_eq_ok_iff, ih, List.map_cons,
      List.nodup_cons, List.mem_map, not_exists, not_and]
    constructor
    · rintro ⟨_, ⟨policy, accepted, fresh, rfl⟩, rows, rfl, collected, distinct, others⟩
      have apart : ∀ other ∈ rest, item.codeId ≠ other.codeId := fun other inside =>
        ((contains_append _ _ _ _).mp (others other inside)).2
      refine ⟨(item.codeId, policy) :: rows, by simp, .cons ⟨rfl, accepted⟩ collected,
        ⟨fun other inside same => apart other inside same.symm, distinct⟩, ?_⟩
      refine List.forall_mem_cons.mpr ⟨fresh, fun other inside => ?_⟩
      exact ((contains_append _ _ _ _).mp (others other inside)).1
    · rintro ⟨rows, rfl, collected, ⟨apart, distinct⟩, fresh⟩
      obtain ⟨row, rows, ⟨name, accepted⟩, others, rfl⟩ :=
        List.forall₂_cons_left_iff.mp collected
      obtain ⟨id, policy⟩ := row
      obtain rfl : id = item.codeId := name
      rw [List.forall_mem_cons] at fresh
      refine ⟨_, ⟨policy, accepted, fresh.1, rfl⟩, rows, by simp, others, distinct, ?_⟩
      intro other inside
      exact (contains_append _ _ _ _).mpr
        ⟨fresh.2 other inside, fun same => apart other inside same.symm⟩

/-- **When the policies of a store are collected**: each is accepted and no two share a code id;
then the set holds them in order. -/
theorem policySet_eq_ok_iff {store : PolicyStore} {set : PolicySet} :
    spec.policySet store = .ok set ↔
      List.Forall₂ spec.Collects store.policies set.rows ∧
        (store.policies.map StoreItem.codeId).Nodup := by
  rw [policySet, foldlM_addPolicy_eq_ok_iff]
  constructor
  · rintro ⟨rows, rfl, collected, distinct, -⟩
    exact ⟨by simpa [PolicySet.empty] using collected, distinct⟩
  · rintro ⟨collected, distinct⟩
    exact ⟨set.rows, by simp [PolicySet.empty], collected, distinct,
      fun _ _ => by simp [PolicySet.contains, PolicySet.empty]⟩

end Specification

end PolicyLedger
