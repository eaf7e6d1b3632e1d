/-
**The parents of commits.**

A root commit has no parent. A commit that is made has none for a zero parent
(`Commit.parent_ne_zero_of_make`), but one that is read has the parent that its last parent line
names, be it the zero id (`Commit.parent_eq_some_iff`, `Store.ofObject_orphanObject`).
-/

import PolicyLedger.History
import PolicyLedger.Proofs.Object.CommitMaking

namespace PolicyLedger

namespace Commit

/-! ### Parent lines -/

/-- The line for a parent. -/
def parentLine (id : ObjectId) : List Char := "parent ".toList ++ id.text.toList

/-- No line is for a parent. -/
def NoParent (lines : List (List Char)) : Prop := ∀ line ∈ lines, ¬ "parent ".toList <+: line

/-- An id is named by the last line for a parent. -/
def LastParent (lines : List (List Char)) (id : ObjectId) : Prop :=
  ∃ before after, lines = before ++ parentLine id :: after ∧ NoParent after

/-- A payload has lines, none of them empty, in front of an empty line. -/
structure HasHead (payload : Bytes) (lines : List (List Char)) : Prop where
  text : ∃ message, Bytes.toText? payload =
    some (String.ofList (Text.join '\n' lines ++ '\n' :: '\n' :: message))
  nonempty : lines ≠ []
  filled : ∀ line ∈ lines, '\n' ∉ line ∧ line ≠ []

theorem parentLine_injective {id other : ObjectId} (same : parentLine id = parentLine other) :
    id = other := by
  obtain ⟨text⟩ := id
  obtain ⟨otherText⟩ := other
  exact congrArg ObjectId.mk (String.toList_inj.mp (List.append_cancel_left same))

theorem lastParent_cons {line : List Char} {lines : List (List Char)} {id : ObjectId} :
    LastParent (line :: lines) id ↔
      LastParent lines id ∨ line = parentLine id ∧ NoParent lines := by
  constructor
  · rintro ⟨before, after, whole, last⟩
    cases before with
    | nil =>
      obtain ⟨rfl, rfl⟩ := List.cons.inj whole
      exact .inr ⟨rfl, last⟩
    | cons _ before => exact .inl ⟨before, after, (List.cons.inj whole).2, last⟩
  · rintro (⟨before, after, rfl, last⟩ | ⟨rfl, last⟩)
    · exact ⟨line :: before, after, rfl, last⟩
    · exact ⟨[], lines, rfl, last⟩

variable {draft next : Draft}

theorem ne_nil_of_addLine {line : List Char} (added : draft.addLine line = .ok next) :
    line ≠ [] := by
  rintro rfl
  have refused : draft.addLine [] = .error (.object (.unexpectedLine "")) := rfl
  cases refused.symm.trans added

/-- A line that is read is for a parent and sets it, or it is another one and keeps it. -/
theorem parent_addLine {line : List Char} (added : draft.addLine line = .ok next) :
    (∃ id, line = parentLine id ∧ next.parent = some id) ∨
      ¬ "parent ".toList <+: line ∧ next.parent = draft.parent := by
  rw [Draft.addLine] at added
  split at added
  next value tree =>
    obtain rfl := Text.eq_append_of_stripStart? tree
    obtain ⟨id, -, same⟩ := Steps.bind_eq_ok.mp added
    cases same
    refine .inr ⟨?_, rfl⟩
    rintro ⟨rest, same⟩
    have first : some 'p' = some 't' := congrArg List.head? same
    cases first
  next =>
    split at added
    next value parent =>
      have begins := Text.eq_append_of_stripStart? parent
      obtain ⟨id, parsed, same⟩ := Steps.bind_eq_ok.mp added
      have named : id.text.toList = value := by
        rw [(ObjectId.parse_eq_ok parsed).1, String.toList_ofList]
      have whole : line = parentLine id := begins.trans (congrArg _ named.symm)
      exact .inl ⟨id, whole, (congrArg Draft.parent (Except.ok.inj same)).symm⟩
    next noParent =>
      have other : ¬ "parent ".toList <+: line := by
        rintro ⟨value, rfl⟩
        rw [Text.stripStart?_append] at noParent
        cases noParent
      split at added
      next value author =>
        obtain ⟨signature, -, same⟩ := Steps.bind_eq_ok.mp added
        cases same
        exact .inr ⟨other, rfl⟩
      next =>
        split at added
        next value committer =>
          obtain ⟨signature, -, same⟩ := Steps.bind_eq_ok.mp added
          cases same
          exact .inr ⟨other, rfl⟩
        next => cases added

/-- Lines that are read leave the parent of the last line for one, or the one before them. -/
theorem parent_foldlM_addLine {lines : List (List Char)}
    (added : lines.foldlM Draft.addLine draft = .ok next) : (∀ line ∈ lines, line ≠ []) ∧
    ∀ id, next.parent = some id ↔
      LastParent lines id ∨ draft.parent = some id ∧ NoParent lines := by
  induction lines generalizing draft with
  | nil =>
    cases added
    simp [LastParent, NoParent]
  | cons line lines ih =>
    rw [List.foldlM_cons] at added
    obtain ⟨between, first, rest⟩ := Steps.bind_eq_ok.mp added
    obtain ⟨filled, parents⟩ := ih rest
    refine ⟨List.forall_mem_cons.mpr ⟨ne_nil_of_addLine first, filled⟩, fun id => ?_⟩
    rw [parents id, lastParent_cons, or_assoc]
    refine or_congr_right ?_
    obtain ⟨named, rfl, set⟩ | ⟨other, kept⟩ := parent_addLine first
    · have notFree : ¬ NoParent (parentLine named :: lines) := fun free =>
        free _ List.mem_cons_self (List.prefix_append _ _)
      rw [set, Option.some.injEq]
      constructor
      · rintro ⟨rfl, last⟩
        exact .inl ⟨rfl, last⟩
      · rintro (⟨same, last⟩ | ⟨-, free⟩)
        · exact ⟨parentLine_injective same, last⟩
        · exact absurd free notFree
    · rw [kept]
      constructor
      · rintro ⟨before, last⟩
        exact .inr ⟨before, List.forall_mem_cons.mpr ⟨other, last⟩⟩
      · rintro (⟨rfl, -⟩ | ⟨before, free⟩)
        · exact absurd (List.prefix_append _ _) other
        · exact ⟨before, (List.forall_mem_cons.mp free).2⟩

/-! ### The parent of a commit that is read -/

theorem HasHead.unique {payload : Bytes} {lines others : List (List Char)}
    (head : HasHead payload lines) (again : HasHead payload others) : lines = others := by
  obtain ⟨message, text⟩ := head.text
  obtain ⟨other, same⟩ := again.text
  have equal := String.ofList_injective (Option.some.inj (text.symm.trans same))
  have free := fun line inside => (head.filled line inside).1
  have freeAgain := fun line inside => (again.filled line inside).1
  have cut := Text.splitFirst?_join head.nonempty free
    (fun line inside => (head.filled line inside).2) message
  rw [equal, Text.splitFirst?_join again.nonempty freeAgain
    fun line inside => (again.filled line inside).2] at cut
  have joined : Text.join '\n' others = Text.join '\n' lines :=
    congrArg Prod.fst (Option.some.inj cut)
  rw [← Text.pieces_join head.nonempty free, ← joined, Text.pieces_join again.nonempty freeAgain]

/-- A payload that is read has a head, whose last parent line names the parent. -/
theorem exists_hasHead {payload : Bytes} {commit : Commit} (read : decode payload = .ok commit) :
    ∃ lines, HasHead payload lines ∧ ∀ id, commit.parent = some id ↔ LastParent lines id := by
  rw [decode] at read
  split at read
  · cases read
  next text decoded =>
    rw [decodeText] at read
    split at read
    · cases read
    next head message cut =>
      obtain ⟨draft, added, finished⟩ := Steps.bind_eq_ok.mp read
      obtain ⟨filled, parents⟩ := parent_foldlM_addLine added
      have kept : commit.parent = draft.parent := by
        rw [Draft.finish] at finished
        split at finished
        · cases finished
        split at finished
        · cases finished
        split at finished
        · cases finished
        cases finished
        rfl
      refine ⟨Text.pieces '\n' head, ⟨⟨message, ?_⟩, Text.pieces_ne_nil _ _, fun line inside =>
        ⟨Text.not_mem_of_mem_pieces inside, filled line inside⟩⟩, fun id => ?_⟩
      · rw [decoded, Text.join_pieces, ← String.ofList_toList (s := text),
          Text.eq_append_of_splitFirst? cut, List.append_assoc]
        rfl
      · rw [kept, parents id]
        simp

/-- **The parent of a commit that is read** is the one that the last parent line names. -/
theorem parent_eq_some_iff {object : Object} {commit : Commit} {id : ObjectId}
    (read : ofObject object = .ok commit) :
    commit.parent = some id ↔ ∃ lines, HasHead object.payload lines ∧ LastParent lines id := by
  have decoded : decode object.payload = .ok commit := by
    rw [ofObject] at read
    split at read
    · exact read
    · cases read
  obtain ⟨lines, head, parents⟩ := exists_hasHead decoded
  rw [parents id]
  constructor
  · exact fun last => ⟨lines, head, last⟩
  · rintro ⟨others, again, last⟩
    exact head.unique again ▸ last

/-- A commit that is made has no zero parent. -/
theorem parent_ne_zero_of_make {tree : ObjectId} {parent : Option ObjectId}
    {author committer message : String} {authored committed : Time.Instant} {commit : Commit}
    (made : make tree parent author authored committer committed message = .ok commit) :
    commit.parent ≠ some .zero := fun zero =>
  (((make_eq_ok_iff.mp made).2.parent .zero).mp zero).2 rfl

end Commit

/-! ### Three commits -/

namespace Store

/-- The name that is on all of them, and the first second. -/
def firstSignature : Signature := ⟨"a", ⟨0, 0⟩⟩

/-- A commit with some parent. -/
def commitAfter (parent : Option ObjectId) (message : String) : Commit where
  tree := ⟨"e3b0c44298fc1c149afbf4c8996fb92427ae41e4649b934ca495991b7852b855"⟩
  parent := parent
  author := firstSignature
  committer := firstSignature
  message := message

/-- The id of the first commit. -/
def rootId : ObjectId := ⟨"158f5e2c138a5fbdfa62575195fafea5f50ee152a23671065bce3dffb484e03c"⟩

/-- The id of the commit after the first. -/
def nextId : ObjectId := ⟨"039bf387f89fa0fd8efa73d3695a38e81c6b5f4060b1eb53bf3ce29fc6856d8a"⟩

/-- The id of the commit with a zero parent. -/
def orphanId : ObjectId := ⟨"63ce3703fb652abe7ff4bfce56190cf57e5f6f0e7c19299183627af014d902d7"⟩

/-- A commit without parent. -/
def rootObject : Object := ⟨.commit, (commitAfter none "root").encode, by decide +kernel⟩

/-- The commit after it. -/
def nextObject : Object := ⟨.commit, (commitAfter (some rootId) "next").encode, by decide +kernel⟩

/-- A commit whose parent line names the zero id. -/
def orphanObject : Object := ⟨.commit, (commitAfter (some .zero) "root").encode, by decide +kernel⟩

theorem ofObject_commitAfter {object : Object} {parent : Option ObjectId} {message : String}
    (kind : object.kind = .commit) (payload : object.payload = (commitAfter parent message).encode)
    (named : ∀ id ∈ parent, ObjectId.isName id.text = true) :
    Commit.ofObject object = .ok (commitAfter parent message) := by
  have signed : firstSignature.IsWritable := ⟨by decide, .inl rfl, by decide⟩
  have tree : ObjectId.isName (commitAfter none "").tree.text = true := by decide
  rw [Commit.ofObject, if_pos kind, payload]
  exact Commit.decode_encode ⟨tree, named, signed, signed⟩

theorem ofObject_rootObject : Commit.ofObject rootObject = .ok (commitAfter none "root") := by
  refine ofObject_commitAfter ?_ ?_ fun _ named => nomatch named
  · rw [rootObject]
  · rw [rootObject]

theorem ofObject_nextObject :
    Commit.ofObject nextObject = .ok (commitAfter (some rootId) "next") := by
  refine ofObject_commitAfter ?_ ?_ fun _ same => Option.some.inj same ▸ by decide
  · rw [nextObject]
  · rw [nextObject]

theorem ofObject_orphanObject :
    Commit.ofObject orphanObject = .ok (commitAfter (some .zero) "root") := by
  refine ofObject_commitAfter ?_ ?_ fun _ same => Option.some.inj same ▸ by decide
  · rw [orphanObject]
  · rw [orphanObject]

end Store

end PolicyLedger
