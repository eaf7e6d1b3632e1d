/-
**Commits that were stored.**

A commit is written as one line for each field, and none of the lines is empty. If the ids are names
and the names are on one line (`Commit.IsOnLines`) the message begins behind the first empty line, so
the lines are read one by one (`Commit.decode_encode_eq`). Every line is read back as the field that
it was written for if, besides, the moments have no fraction and years of four digits
(`Commit.IsWritable`). `Commit.make` gives such commits (`isWritable_of_make`).
-/

import PolicyLedger.Commit
import PolicyLedger.Proofs.Object.Store
import PolicyLedger.Proofs.Text.Blank
import PolicyLedger.Proofs.Text.Split
import PolicyLedger.Proofs.Time.Seconds

namespace PolicyLedger

open Time (Instant)

/-! ### Signatures -/

namespace Signature

/-- A signature that is read back from its line. -/
structure IsWritable (signature : Signature) : Prop where
  oneLine : '\n' ∉ signature.name.toList
  whole : signature.moment.IsWhole
  year : 0 ≤ signature.moment.year ∧ signature.moment.year ≤ 9999

variable {signature : Signature}

/-- A line is cut where the moment ends. -/
theorem splitFirst?_encode (signature : Signature) :
    Text.splitFirst? [' '] signature.encode =
      some (signature.moment.rfc3339Seconds, signature.name.toList) :=
  Text.splitFirst?_append (signature.moment.not_mem_rfc3339Seconds rfl (by decide)) _

/-- A signature is read back from its line if its moment is. -/
theorem decode_encode_eq_ok_iff : decode signature.encode = .ok signature ↔
    Instant.readStrict signature.moment.rfc3339Seconds = some signature.moment := by
  rw [decode, splitFirst?_encode]
  dsimp only
  cases Instant.readStrict signature.moment.rfc3339Seconds with
  | none => exact ⟨nofun, nofun⟩
  | some moment =>
    rw [String.ofList_toList]
    exact ⟨fun same => congrArg (fun read => some read.moment) (Except.ok.inj same),
      fun same => by rw [Option.some.inj same]⟩

theorem decode_encode (writable : signature.IsWritable) :
    decode signature.encode = .ok signature :=
  decode_encode_eq_ok_iff.mpr (Instant.readStrict_rfc3339Seconds writable.whole writable.year)

theorem lineFeed_not_mem_encode (oneLine : '\n' ∉ signature.name.toList) :
    '\n' ∉ signature.encode := by
  rw [encode, List.mem_append, List.mem_cons]
  rintro (inside | blank | inside)
  · exact signature.moment.not_mem_rfc3339Seconds rfl (by decide) inside
  · cases blank
  · exact oneLine inside

/-- A name that is accepted is on one line. -/
theorem lineFeed_not_mem_of_checkName {name checked : String}
    (accepted : checkName name = .ok checked) : '\n' ∉ checked.toList := by
  rw [checkName] at accepted
  split at accepted
  · cases accepted
  next oneLine =>
    split at accepted
    · obtain rfl := Except.ok.inj accepted
      decide
    · obtain rfl := Except.ok.inj accepted
      rw [Text.trimmed, String.toList_ofList]
      intro inside
      refine oneLine (List.any_eq_true.mpr ⟨'\n', Text.mem_of_mem_trim inside, by decide⟩)

/-- A signature that was made is writable. -/
theorem isWritable_of_make {name : String} {moment : Instant}
    (made : make name moment = .ok signature) : signature.IsWritable := by
  obtain ⟨checkedName, accepted, rest⟩ := Steps.bind_eq_ok.mp made
  obtain ⟨checkedMoment, inRange, same⟩ := Steps.bind_eq_ok.mp rest
  obtain rfl := Except.ok.inj same
  rw [checkMoment] at inRange
  split at inRange
  next year =>
    obtain rfl := Except.ok.inj inRange
    exact ⟨lineFeed_not_mem_of_checkName accepted, .inl rfl, year⟩
  · cases inRange

end Signature

/-! ### Commits -/

/-- An id that names an object has no line feed. -/
theorem ObjectId.lineFeed_not_mem {text : String} (named : isName text = true) :
    '\n' ∉ text.toList := by
  rw [isName, Bool.and_eq_true, List.all_eq_true] at named
  intro inside
  exact absurd (named.2 _ inside) (by decide)

theorem ObjectId.parse_toList {id : ObjectId} (named : isName id.text = true) :
    parse (String.ofList id.text.toList) = .ok id := by
  rw [String.ofList_toList, parse, if_pos named]

namespace Commit

/-- A commit that is read back from its payload. -/
structure IsWritable (commit : Commit) : Prop where
  tree : ObjectId.isName commit.tree.text = true
  parent : ∀ id, commit.parent = some id → ObjectId.isName id.text = true
  author : commit.author.IsWritable
  committer : commit.committer.IsWritable

/-- A commit each of whose fields is on the one line that is written for it. -/
structure IsOnLines (commit : Commit) : Prop where
  tree : ObjectId.isName commit.tree.text = true
  parent : ∀ id, commit.parent = some id → ObjectId.isName id.text = true
  author : '\n' ∉ commit.author.name.toList
  committer : '\n' ∉ commit.committer.name.toList

theorem IsWritable.isOnLines {commit : Commit} (writable : commit.IsWritable) :
    commit.IsOnLines :=
  ⟨writable.tree, writable.parent, writable.author.oneLine, writable.committer.oneLine⟩

namespace Draft

variable (draft : Draft)

theorem addLine_tree {id : ObjectId} (named : ObjectId.isName id.text = true) :
    draft.addLine ("tree ".toList ++ id.text.toList) = .ok { draft with tree := some id } := by
  rw [addLine, Text.stripStart?_append]
  simp only [ObjectId.parse_toList named]
  rfl

theorem addLine_parent {id : ObjectId} (named : ObjectId.isName id.text = true) :
    draft.addLine ("parent ".toList ++ id.text.toList) = .ok { draft with parent := some id } := by
  have other : Text.stripStart? "tree ".toList ("parent ".toList ++ id.text.toList) = none := rfl
  rw [addLine, other, Text.stripStart?_append]
  simp only [ObjectId.parse_toList named]
  rfl

theorem addLine_author (line : List Char) :
    draft.addLine ("author ".toList ++ line) =
      (Signature.decode line).map fun signature => { draft with author := some signature } := by
  have tree : Text.stripStart? "tree ".toList ("author ".toList ++ line) = none := rfl
  have parent : Text.stripStart? "parent ".toList ("author ".toList ++ line) = none := rfl
  rw [addLine, tree, parent, Text.stripStart?_append]
  dsimp only
  cases Signature.decode line <;> rfl

theorem addLine_committer (line : List Char) :
    draft.addLine ("committer ".toList ++ line) =
      (Signature.decode line).map fun signature => { draft with committer := some signature } := by
  have tree : Text.stripStart? "tree ".toList ("committer ".toList ++ line) = none := rfl
  have parent : Text.stripStart? "parent ".toList ("committer ".toList ++ line) = none := rfl
  have author : Text.stripStart? "author ".toList ("committer ".toList ++ line) = none := rfl
  rw [addLine, tree, parent, author, Text.stripStart?_append]
  dsimp only
  cases Signature.decode line <;> rfl

end Draft

/-- The commit that the lines of a commit are read as has the same ids. -/
theorem foldlM_headLines {commit : Commit} (onLines : commit.IsOnLines) :
    (commit.headLines.foldlM Draft.addLine {} >>= (·.finish commit.message)) = (do
      let author ← Signature.decode commit.author.encode
      let committer ← Signature.decode commit.committer.encode
      return { commit with author, committer }) := by
  rw [headLines]
  cases parent : commit.parent with
  | none =>
    simp only [List.append_nil, List.cons_append, List.nil_append, List.foldlM_cons,
      List.foldlM_nil, Draft.addLine_tree _ onLines.tree, Draft.addLine_author,
      Draft.addLine_committer]
    cases Signature.decode commit.author.encode <;>
      cases Signature.decode commit.committer.encode <;> rfl
  | some id =>
    simp only [List.cons_append, List.nil_append, List.foldlM_cons, List.foldlM_nil,
      Draft.addLine_tree _ onLines.tree, Draft.addLine_parent _ (onLines.parent id parent),
      Draft.addLine_author, Draft.addLine_committer]
    cases Signature.decode commit.author.encode <;>
      cases Signature.decode commit.committer.encode <;> rfl

/-- None of the lines of a commit is empty or has a line feed. -/
theorem headLines_filled {commit : Commit} (onLines : commit.IsOnLines) :
    ∀ line ∈ commit.headLines, '\n' ∉ line ∧ line ≠ [] := by
  have ofWord : ∀ {word : String} {rest : List Char}, '\n' ∉ word.toList → word.toList ≠ [] →
      '\n' ∉ rest → '\n' ∉ word.toList ++ rest ∧ word.toList ++ rest ≠ [] :=
    fun free filled others => ⟨by simp [free, others], by simp [filled]⟩
  have tree := ObjectId.lineFeed_not_mem onLines.tree
  have author := Signature.lineFeed_not_mem_encode onLines.author
  have committer := Signature.lineFeed_not_mem_encode onLines.committer
  intro line inside
  rw [headLines, List.append_assoc, List.mem_append, List.mem_append] at inside
  obtain first | second | others := inside
  · rw [List.mem_singleton.mp first]
    exact ofWord (by decide) (by decide) tree
  · cases parent : commit.parent with
    | none =>
      rw [parent] at second
      cases second
    | some id =>
      rw [parent] at second
      rw [List.mem_singleton.mp second]
      exact ofWord (by decide) (by decide)
        (ObjectId.lineFeed_not_mem (onLines.parent id parent))
  · rw [List.mem_cons, List.mem_singleton] at others
    obtain rfl | rfl := others
    · exact ofWord (by decide) (by decide) author
    · exact ofWord (by decide) (by decide) committer

/-- Only the signatures decide what a commit on lines is read back as. -/
theorem decode_encode_eq {commit : Commit} (onLines : commit.IsOnLines) :
    decode commit.encode = (do
      let author ← Signature.decode commit.author.encode
      let committer ← Signature.decode commit.committer.encode
      return { commit with author, committer }) := by
  have filled := headLines_filled onLines
  have nonempty : commit.headLines ≠ [] := by
    rw [headLines]
    exact List.cons_ne_nil _ _
  have whole : commit.encodeText =
      Text.join '\n' commit.headLines ++ '\n' :: '\n' :: commit.message.toList := by
    rw [encodeText, Text.flatMap_eq_join nonempty, List.append_assoc]
    rfl
  have cut := Text.splitFirst?_join nonempty (fun line inside => (filled line inside).1)
    (fun line inside => (filled line inside).2) commit.message.toList
  have lines := Text.pieces_join nonempty fun line inside => (filled line inside).1
  rw [decode, encode, Bytes.toText?_ofText]
  simp only [String.toList_ofList, decodeText, whole, cut, lines, String.ofList_toList]
  exact foldlM_headLines onLines

/-- **A writable commit is read back from its payload.** -/
theorem decode_encode {commit : Commit} (writable : commit.IsWritable) :
    decode commit.encode = .ok commit := by
  rw [decode_encode_eq writable.isOnLines, Signature.decode_encode writable.author,
    Signature.decode_encode writable.committer]
  rfl

/-- A commit that was made of ids that name objects is writable. -/
theorem isWritable_of_make {tree : ObjectId} {parent : Option ObjectId} {author committer : String}
    {authored committed : Instant} {message : String} {commit : Commit}
    (made : make tree parent author authored committer committed message = .ok commit)
    (treeNamed : ObjectId.isName tree.text = true)
    (parentNamed : ∀ id, parent = some id → ObjectId.isName id.text = true) :
    commit.IsWritable ∧ commit.tree = tree := by
  obtain ⟨authorSignature, authorMade, rest⟩ := Steps.bind_eq_ok.mp made
  obtain ⟨committerSignature, committerMade, same⟩ := Steps.bind_eq_ok.mp rest
  obtain rfl := Except.ok.inj same
  refine ⟨⟨treeNamed, fun id kept => ?_, Signature.isWritable_of_make authorMade,
    Signature.isWritable_of_make committerMade⟩, rfl⟩
  exact parentNamed id (Option.mem_filter_iff.mp kept).1

/-- A commit that fits a frame is stored, and a writable one is read back. -/
theorem exists_toObject {commit : Commit} (fits : commit.encode.length < 4294967296) :
    ∃ object, commit.toObject = .ok object := Object.exists_frame .commit fits

theorem ofObject_of_toObject {commit : Commit} {object : Object} (writable : commit.IsWritable)
    (stored : commit.toObject = .ok object) : ofObject object = .ok commit := by
  obtain ⟨kind, payload⟩ := Object.frame_eq_ok_iff.mp stored
  rw [ofObject, if_pos kind, payload, decode_encode writable]

end Commit

end PolicyLedger
