/-
**Values up to the order of members.**

Two values are the same up to the order of members if they are the same with the members of all
objects in the order of their keys (`arranged`). If no object repeats a key, they are then written
with the same characters (`perm_write_of_arranged`), and so in as many bytes.
-/

import PolicyLedger.Json.Writer
import PolicyLedger.Proofs.Json.DistinctKeys
import PolicyLedger.Proofs.KeyMap

namespace PolicyLedger.Json

mutual

/-- A value with the members of its objects in the order of their keys. -/
def arranged : Json → Json
  | list items => list (arrangedItems items)
  | object members => object (KeyMap.ofRows (arrangedMembers members)).rows
  | value => value

/-- Some values with the members of their objects in the order of their keys. -/
def arrangedItems : List Json → List Json
  | [] => []
  | item :: rest => arranged item :: arrangedItems rest

/-- Some members whose values have their members in the order of the keys. -/
def arrangedMembers : List (String × Json) → List (String × Json)
  | [] => []
  | (key, value) :: rest => (key, arranged value) :: arrangedMembers rest

end

theorem arrangedMembers_eq_map (members : List (String × Json)) :
    arrangedMembers members = members.map fun member => (member.1, member.2.arranged) := by
  induction members with
  | nil => rfl
  | cons member rest ih => rw [arrangedMembers, ih, List.map_cons]

theorem keys_arrangedMembers (members : List (String × Json)) :
    (arrangedMembers members).map Prod.fst = members.map Prod.fst := by
  rw [arrangedMembers_eq_map, List.map_map]
  rfl

/-- The order of the members of an object does not matter if no key is repeated. -/
theorem arranged_object_of_perm {members others : List (String × Json)}
    (distinct : (members.map Prod.fst).Nodup) (permuted : members.Perm others) :
    (object members).arranged = (object others).arranged := by
  have keys : ((arrangedMembers members).map Prod.fst).Nodup :=
    (keys_arrangedMembers members).symm ▸ distinct
  have moved : (arrangedMembers members).Perm (arrangedMembers others) := by
    rw [arrangedMembers_eq_map, arrangedMembers_eq_map]
    exact permuted.map _
  rw [arranged, arranged, KeyMap.ofRows_eq_of_perm keys moved]

/-! ### Written values -/

/-- A member as it is written, with a comma in front. -/
def writeMember (member : String × Json) : List Char :=
  ',' :: (writeText member.1 ++ ':' :: write member.2)

/-- An item as it is written, with a comma in front. -/
def writeItem (item : Json) : List Char := ',' :: write item

theorem comma_writeMembers {members : List (String × Json)} (nonempty : members ≠ []) :
    ',' :: writeMembers members = members.flatMap writeMember := by
  induction members with
  | nil => exact absurd rfl nonempty
  | cons member rest ih =>
    obtain ⟨key, value⟩ := member
    cases rest with
    | nil => simp [writeMembers, writeMember]
    | cons other others =>
      rw [writeMembers, List.flatMap_cons, ← ih (List.cons_ne_nil _ _)]
      rfl

theorem comma_writeItems {items : List Json} (nonempty : items ≠ []) :
    ',' :: writeItems items = items.flatMap writeItem := by
  induction items with
  | nil => exact absurd rfl nonempty
  | cons item rest ih =>
    cases rest with
    | nil => simp [writeItems, writeItem]
    | cons other others =>
      rw [writeItems, List.flatMap_cons, ← ih (List.cons_ne_nil _ _)]
      rfl

/-- Members are written with the characters of each of them. -/
theorem perm_write_object {members others : List (String × Json)}
    (same : (members.flatMap writeMember).Perm (others.flatMap writeMember))
    (length : members.length = others.length) :
    (write (object members)).Perm (write (object others)) := by
  suffices inner : (writeMembers members).Perm (writeMembers others) by
    rw [write, write]
    exact (inner.append_right _).cons _
  cases members with
  | nil =>
    obtain rfl : others = [] := List.length_eq_zero_iff.mp length.symm
    exact .refl _
  | cons member rest =>
    have nonempty : others ≠ [] := by
      rintro rfl
      cases length
    rw [← comma_writeMembers (List.cons_ne_nil _ _), ← comma_writeMembers nonempty] at same
    exact same.cons_inv

mutual

/-- A value that repeats no key is written with the same characters when it is arranged. -/
theorem perm_write_arranged : (value : Json) → value.hasDistinctKeys = true →
    (write value.arranged).Perm (write value)
  | null, _ | bool _, _ | number _, _ | text _, _ => .refl _
  | list items, distinct => by
    rw [arranged, write, write]
    refine .cons _ (.append_right _ ?_)
    cases items with
    | nil => exact .refl _
    | cons item rest =>
      have same := perm_writeItems_arranged (item :: rest) (hasDistinctKeys_list.mp distinct)
      rw [← comma_writeItems (List.cons_ne_nil _ _), ← comma_writeItems (by simp [arrangedItems])]
        at same
      exact same.cons_inv
  | object members, distinct => by
    have whole := hasDistinctKeys_object.mp distinct
    have keys : ((arrangedMembers members).map Prod.fst).Nodup :=
      (keys_arrangedMembers members).symm ▸ whole.1
    have placed := KeyMap.perm_ofRows keys
    refine perm_write_object ?_ ?_
    · exact (placed.flatMap_right _).trans (perm_writeMembers_arranged members whole.2)
    · rw [placed.length_eq, arrangedMembers_eq_map, List.length_map]

/-- The same of the items of a list. -/
theorem perm_writeItems_arranged : (items : List Json) →
    (∀ item ∈ items, item.hasDistinctKeys = true) →
    ((arrangedItems items).flatMap writeItem).Perm (items.flatMap writeItem)
  | [], _ => .refl _
  | item :: rest, distinct => by
    rw [List.forall_mem_cons] at distinct
    rw [arrangedItems, List.flatMap_cons, List.flatMap_cons]
    exact .append ((perm_write_arranged item distinct.1).cons _)
      (perm_writeItems_arranged rest distinct.2)

/-- The same of the members of an object. -/
theorem perm_writeMembers_arranged : (members : List (String × Json)) →
    (∀ member ∈ members, member.2.hasDistinctKeys = true) →
    ((arrangedMembers members).flatMap writeMember).Perm (members.flatMap writeMember)
  | [], _ => .refl _
  | (key, value) :: rest, distinct => by
    rw [List.forall_mem_cons] at distinct
    rw [arrangedMembers, List.flatMap_cons, List.flatMap_cons]
    have first : (write value.arranged).Perm (write value) := perm_write_arranged value distinct.1
    exact .append (((first.cons _).append_left _).cons _)
      (perm_writeMembers_arranged rest distinct.2)

end

/-- Values that are the same up to the order of members are written with the same characters. -/
theorem perm_write_of_arranged {value other : Json} (distinct : value.hasDistinctKeys = true)
    (distinctOther : other.hasDistinctKeys = true) (same : value.arranged = other.arranged) :
    (write value).Perm (write other) := by
  have first := perm_write_arranged value distinct
  rw [same] at first
  exact first.symm.trans (perm_write_arranged other distinctOther)

end PolicyLedger.Json
