/-
**Entries that are offered to a tree.**

An entry that is offered to a tree is taken just if it clashes with no entry present
(`Tree.offer_cases`); a tree that refuses an entry stays as it was. So no two entries of a tree clash:
adding keeps this (`isUnique_add`), hence so do any number of offers. The entries taken are listed
behind those present in the order in which they were offered (`entries_offers`).

A tree is read from a payload by offering the entries in the lines to the empty tree, which takes all
of them (`offers_of_decode`). Therefore `Tree.offers_keep_unique` holds for new trees and for those
that were read.
-/

import PolicyLedger.Proofs.Object.TreePayload

namespace PolicyLedger

namespace TreeEntry

variable {entry present : TreeEntry}

/-- Two entries have the same name, or the same code id and code type. -/
def Clashes (entry present : TreeEntry) : Prop :=
  present.name = entry.name ∨ (present.codeId, present.codeType) = (entry.codeId, entry.codeType)

theorem checkBeside_eq_ok_iff : entry.checkBeside present = .ok () ↔ ¬ entry.Clashes present := by
  rw [checkBeside, Clashes, Prod.mk.injEq]
  by_cases name : present.name = entry.name
  · simp [name]
  · by_cases code : present.codeId = entry.codeId ∧ present.codeType = entry.codeType <;>
      simp [name, code]

end TreeEntry

namespace Tree

variable {tree : Tree} {entry : TreeEntry}

/-! ### One offer -/

/-- An entry that clashes with none is listed last, any other is refused. -/
theorem offer_cases (tree : Tree) (entry : TreeEntry) :
    ((∀ present ∈ tree.entries, ¬ entry.Clashes present) ∧
      Steps.attempt add tree entry = (⟨tree.entries ++ [entry]⟩, .ok ())) ∨
    ((∃ present ∈ tree.entries, entry.Clashes present) ∧
      ∃ error, Steps.attempt add tree entry = (tree, .error error)) := by
  cases added : tree.add entry with
  | ok grown =>
    obtain ⟨beside, rfl⟩ := add_eq_ok_iff.mp added
    exact .inl ⟨fun present inside => TreeEntry.checkBeside_eq_ok_iff.mp (beside present inside),
      Steps.attempt_of_ok added⟩
  | error error =>
    refine .inr ⟨?_, error, Steps.attempt_of_error added⟩
    by_contra free
    push Not at free
    have taken : tree.add entry = .ok ⟨tree.entries ++ [entry]⟩ := add_eq_ok_iff.mpr
      ⟨fun present inside => TreeEntry.checkBeside_eq_ok_iff.mpr (free present inside), rfl⟩
    cases added.symm.trans taken

/-- No two entries have the same name, and no two the same code id and code type. -/
structure IsUnique (tree : Tree) : Prop where
  names : (tree.entries.map (·.name)).Nodup
  codes : (tree.entries.map fun entry => (entry.codeId, entry.codeType)).Nodup

theorem isUnique_iff :
    tree.IsUnique ↔ tree.entries.Pairwise fun present entry => ¬ entry.Clashes present := by
  have both : tree.IsUnique ↔ (tree.entries.map (·.name)).Nodup ∧
      (tree.entries.map fun entry => (entry.codeId, entry.codeType)).Nodup :=
    ⟨fun unique => ⟨unique.names, unique.codes⟩, fun ⟨names, codes⟩ => ⟨names, codes⟩⟩
  rw [both, List.Nodup, List.Nodup, List.pairwise_map, List.pairwise_map, ← List.pairwise_and_iff]
  simp only [TreeEntry.Clashes, not_or, ne_eq]

theorem isUnique_empty : empty.IsUnique := ⟨.nil, .nil⟩

theorem isUnique_add {next : Tree} (unique : tree.IsUnique) (added : tree.add entry = .ok next) :
    next.IsUnique := by
  obtain ⟨beside, rfl⟩ := add_eq_ok_iff.mp added
  rw [isUnique_iff] at unique ⊢
  refine List.pairwise_append.mpr ⟨unique, List.pairwise_singleton _ _, ?_⟩
  intro present inside other last
  rw [List.mem_singleton.mp last]
  exact TreeEntry.checkBeside_eq_ok_iff.mp (beside present inside)

/-! ### Any number of offers -/

/-- The entries whose offers ended well. -/
def taken (offers : List TreeEntry) (outcomes : List (Except Error Unit)) : List TreeEntry :=
  ((offers.zip outcomes).filter fun (_, outcome) => outcome.isOk).map Prod.fst

theorem taken_of_ok (offers : List TreeEntry) :
    taken offers (offers.map fun _ => .ok ()) = offers := by
  induction offers with
  | nil => rfl
  | cons entry offers ih => exact congrArg (entry :: ·) ih

theorem isUnique_offers (unique : tree.IsUnique) (offers : List TreeEntry) :
    (Steps.attempts add tree offers).1.IsUnique :=
  Steps.attempts_keep (fun _ _ _ => isUnique_add) unique offers

/-- The entries taken are listed in the order in which they were offered. -/
theorem entries_offers (tree : Tree) (offers : List TreeEntry) :
    (Steps.attempts add tree offers).1.entries =
      tree.entries ++ taken offers (Steps.attempts add tree offers).2 := by
  induction offers generalizing tree with
  | nil => exact (List.append_nil _).symm
  | cons entry offers ih =>
    rw [Steps.attempts]
    obtain ⟨_, first⟩ | ⟨_, error, first⟩ := tree.offer_cases entry
    · rw [first]
      exact (ih _).trans (List.append_assoc _ _ _)
    · rw [first]
      exact ih tree

/-- **A tree is read** by offering the entries in the lines to the empty tree, which takes them all. -/
theorem offers_of_decode {payload : Bytes} (read : decode payload = .ok tree) :
    ∃ text, Bytes.toText? payload = some text ∧
      List.Forall₂ (fun line entry => TreeEntry.decode line = .ok entry)
        (Text.pieces '\n' text.toList) tree.entries ∧
      Steps.attempts add empty tree.entries = (tree, tree.entries.map fun _ => .ok ()) := by
  rw [decode] at read
  split at read
  · cases read
  next text decoded =>
    obtain ⟨entries, lines, added⟩ := exists_entries read
    have offered := Steps.attempts_of_foldlM added
    have listed := entries_offers empty entries
    rw [offered, taken_of_ok] at listed
    obtain rfl : tree.entries = entries := listed
    exact ⟨text, decoded, lines, offered⟩

/-- **Entries stay unique.** Entries are offered to a new tree or to one that was read. Then no two
entries have the same name or the same code id and code type. The entries are those the tree began
with and those taken, in the order in which they were offered; a tree that was read has the entries
of its lines, as if they had all been taken. Another entry is taken, and listed last, just if it
clashes with none; otherwise the tree stays as it is. -/
theorem offers_keep_unique {start : Tree}
    (begins : start = empty ∨ ∃ payload, decode payload = .ok start) (offers : List TreeEntry) :
    let ended := Steps.attempts add start offers
    ended.1.IsUnique ∧
    ended.1.entries = start.entries ++ taken offers ended.2 ∧
    (∀ payload, decode payload = .ok start →
      ∃ text, Bytes.toText? payload = some text ∧
        List.Forall₂ (fun line entry => TreeEntry.decode line = .ok entry)
          (Text.pieces '\n' text.toList) start.entries ∧
        Steps.attempts add empty start.entries = (start, start.entries.map fun _ => .ok ())) ∧
    ∀ entry : TreeEntry,
      let offer := Steps.attempt add ended.1 entry
      (offer.2 = .ok () ↔ ∀ present ∈ ended.1.entries, ¬ entry.Clashes present) ∧
      offer.1 = if offer.2.isOk then ⟨ended.1.entries ++ [entry]⟩ else ended.1 := by
  intro ended
  have unique : start.IsUnique := by
    obtain rfl | ⟨payload, read⟩ := begins
    · exact isUnique_empty
    · obtain ⟨_, _, _, offered⟩ := offers_of_decode read
      have read := isUnique_offers isUnique_empty start.entries
      rwa [offered] at read
  refine ⟨isUnique_offers unique offers, entries_offers start offers, fun _ => offers_of_decode,
    fun entry => ?_⟩
  obtain ⟨free, taken⟩ | ⟨⟨present, inside, clashes⟩, error, refused⟩ := ended.1.offer_cases entry
  · dsimp only
    rw [taken]
    exact ⟨iff_of_true rfl free, rfl⟩
  · dsimp only
    rw [refused]
    exact ⟨iff_of_false nofun fun free => free present inside clashes, rfl⟩

/-- A tree that was read refuses an entry with a name it has and one with a code it has, and takes an
entry with another name and another code id. -/
theorem offers_keep_unique_of_rootTree :
    let offers := [{ rootEntry with codeId := "d" }, { rootEntry with name := "m" },
      { rootEntry with name := "m", codeId := "d" }]
    decode rootTree.payload = .ok rootTree ∧ (Steps.attempts add rootTree offers).1.IsUnique ∧
      (Steps.attempts add rootTree offers).1.entries =
        [rootEntry, { rootEntry with name := "m", codeId := "d" }] := by
  intro offers
  have read := decode_payload isWritable_rootTree (List.cons_ne_nil _ _)
  obtain ⟨unique, listed, _, _⟩ := offers_keep_unique (.inr ⟨_, read⟩) offers
  exact ⟨read, unique, listed⟩

end Tree

end PolicyLedger
