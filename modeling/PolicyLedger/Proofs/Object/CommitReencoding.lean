/-
**Commits that are written again.**

A commit is made, read from a payload, or read from its JSON form, which skips all checks
(`Commit.Arises`). Its moments are on the clock in each case (`Commit.Arises.isOnClock`).

What is read from a payload has ids that are names and names on one line (`isOnLines_of_decode`), so
only such a commit can be what is read from the payload written for it. Its signatures are read one
by one, and each is read back just if its moment is. Hence a commit survives being written and read
just if it is writable (`decode_encode_eq_ok_iff_isWritable`), that is, if its ids are names, its
names are on one line and its moments are seconds in years of four digits (`decode_encode_iff`).
-/

import PolicyLedger.Object.Format
import PolicyLedger.Proofs.Object.CommitRoundTrip

namespace PolicyLedger

open Time (Instant)

/-- An id of 64 lowercase hexadecimal digits. -/
def ObjectId.IsHex (id : ObjectId) : Prop :=
  id.text.toList.length = 64 ∧
    ∀ c ∈ id.text.toList, ('0' ≤ c ∧ c ≤ '9') ∨ ('a' ≤ c ∧ c ≤ 'f')

theorem ObjectId.isHex_iff {id : ObjectId} : id.IsHex ↔ isName id.text = true := by
  simp [IsHex, isName, isDigit]

namespace Signature

variable {signature : Signature}

/-- A name without line feeds, and a second without a fraction, in a year of four digits. A leap
second has a billion nanoseconds. -/
structure IsExact (signature : Signature) : Prop where
  name : '\n' ∉ signature.name.toList
  year : 0 ≤ signature.moment.year ∧ signature.moment.year ≤ 9999
  fraction : signature.moment.nanoseconds = 0 ∨ signature.moment.nanoseconds = 1000000000

theorem isExact_iff (onClock : signature.moment.IsOnClock) :
    signature.IsExact ↔ signature.IsWritable :=
  ⟨fun exact => ⟨exact.name, (Instant.isWhole_iff onClock).mpr exact.fraction, exact.year⟩,
    fun writable => ⟨writable.oneLine, writable.year,
      (Instant.isWhole_iff onClock).mp writable.whole⟩⟩

/-- What is read from one line. -/
structure IsRead (signature : Signature) : Prop where
  oneLine : '\n' ∉ signature.name.toList
  onClock : signature.moment.IsOnClock

theorem isRead_of_decode {line : List Char} (oneLine : '\n' ∉ line)
    (read : decode line = .ok signature) : signature.IsRead := by
  rw [decode] at read
  split at read
  · cases read
  next date name cut =>
    split at read
    · cases read
    next moment found =>
      obtain rfl := Except.ok.inj read
      refine ⟨fun inside => oneLine ?_, Instant.isOnClock_of_readStrict found⟩
      rw [String.toList_ofList] at inside
      rw [Text.eq_append_of_splitFirst? cut]
      exact List.mem_append_right _ inside

end Signature

namespace Commit

variable {commit : Commit}

/-! ### What is read from a payload -/

namespace Draft

/-- The fields that are found on lines. -/
structure IsRead (draft : Draft) : Prop where
  tree : ∀ id, draft.tree = some id → ObjectId.isName id.text = true
  parent : ∀ id, draft.parent = some id → ObjectId.isName id.text = true
  author : ∀ signature, draft.author = some signature → signature.IsRead
  committer : ∀ signature, draft.committer = some signature → signature.IsRead

variable {draft next : Draft} {line : List Char}

theorem isRead_empty : ({} : Draft).IsRead := ⟨nofun, nofun, nofun, nofun⟩

/-- One more line is read into one of the fields. -/
theorem isRead_addLine (oneLine : '\n' ∉ line) (read : draft.IsRead)
    (added : draft.addLine line = .ok next) : next.IsRead := by
  have ofRest : ∀ {word rest : List Char}, Text.stripStart? word line = some rest → '\n' ∉ rest :=
    fun stripped inside => oneLine
      (Text.eq_append_of_stripStart? stripped ▸ List.mem_append_right _ inside)
  have named : ∀ {text : String} {id : ObjectId}, ObjectId.parse text = .ok id →
      ∀ other, some id = some other → ObjectId.isName other.text = true := by
    intro text id parsed other same
    obtain ⟨rfl, isName⟩ := ObjectId.parse_eq_ok parsed
    exact Option.some.inj same ▸ isName
  have signed : ∀ {rest : List Char} {signature : Signature}, '\n' ∉ rest →
      Signature.decode rest = .ok signature →
      ∀ other, some signature = some other → other.IsRead := fun free decoded other same =>
    Option.some.inj same ▸ Signature.isRead_of_decode free decoded
  rw [addLine] at added
  split at added
  · obtain ⟨id, parsed, same⟩ := Steps.bind_eq_ok.mp added
    obtain rfl := Except.ok.inj same
    exact { read with tree := named parsed }
  · split at added
    · obtain ⟨id, parsed, same⟩ := Steps.bind_eq_ok.mp added
      obtain rfl := Except.ok.inj same
      exact { read with parent := named parsed }
    · split at added
      next stripped =>
        obtain ⟨signature, decoded, same⟩ := Steps.bind_eq_ok.mp added
        obtain rfl := Except.ok.inj same
        exact { read with author := signed (ofRest stripped) decoded }
      · split at added
        next stripped =>
          obtain ⟨signature, decoded, same⟩ := Steps.bind_eq_ok.mp added
          obtain rfl := Except.ok.inj same
          exact { read with committer := signed (ofRest stripped) decoded }
        · cases added

/-- The fields found are the ones of the commit. -/
theorem finish_eq_ok {message : String} (finished : draft.finish message = .ok commit) :
    draft = ⟨some commit.tree, commit.parent, some commit.author, some commit.committer⟩ := by
  obtain ⟨tree, parent, author, committer⟩ := draft
  cases tree <;> cases author <;> cases committer <;> cases finished
  rfl

end Draft

/-- **A commit in a payload** has been read line by line. -/
theorem isRead_of_decode {payload : Bytes} (read : decode payload = .ok commit) :
    (⟨some commit.tree, commit.parent, some commit.author, some commit.committer⟩ :
      Draft).IsRead := by
  rw [decode] at read
  split at read
  · cases read
  · rw [decodeText] at read
    split at read
    · cases read
    · obtain ⟨draft, found, finished⟩ := Steps.bind_eq_ok.mp read
      rw [← Draft.finish_eq_ok finished]
      exact Steps.of_foldlM_eq_ok
        (fun line inside _ _ => Draft.isRead_addLine (Text.not_mem_of_mem_pieces inside))
        Draft.isRead_empty found

theorem isOnLines_of_decode {payload : Bytes} (read : decode payload = .ok commit) :
    commit.IsOnLines :=
  have fields := isRead_of_decode read
  ⟨fields.tree _ rfl, fields.parent, (fields.author _ rfl).oneLine,
    (fields.committer _ rfl).oneLine⟩

/-- **A commit is read back from its payload** just if it is writable. -/
theorem decode_encode_eq_ok_iff_isWritable :
    decode commit.encode = .ok commit ↔ commit.IsWritable := by
  refine ⟨fun read => ?_, decode_encode⟩
  have onLines := isOnLines_of_decode read
  rw [decode_encode_eq onLines] at read
  obtain ⟨author, authorRead, rest⟩ := Steps.bind_eq_ok.mp read
  obtain ⟨committer, committerRead, same⟩ := Steps.bind_eq_ok.mp rest
  have unchanged := Except.ok.inj same
  have writable : ∀ {signature : Signature}, '\n' ∉ signature.name.toList →
      Signature.decode signature.encode = .ok signature → signature.IsWritable :=
    fun oneLine read =>
      have moment := Instant.readStrict_rfc3339Seconds_eq_some_iff.mp
        (Signature.decode_encode_eq_ok_iff.mp read)
      ⟨oneLine, moment.1, moment.2⟩
  have sameAuthor : author = commit.author := congrArg Commit.author unchanged
  have sameCommitter : committer = commit.committer := congrArg Commit.committer unchanged
  exact ⟨onLines.tree, onLines.parent, writable onLines.author (sameAuthor ▸ authorRead),
    writable onLines.committer (sameCommitter ▸ committerRead)⟩

/-! ### Commits from anywhere -/

/-- A commit is made, is read from a payload, or is read from a value. -/
inductive Arises : Commit → Prop
  | made {commit : Commit} {tree : ObjectId} {parent : Option ObjectId} {author committer : String}
    {authored committed : Instant} {message : String}
    (made : make tree parent author authored committer committed message = .ok commit) :
    Arises commit
  | decoded {commit : Commit} {payload : Bytes} (read : decode payload = .ok commit) :
    Arises commit
  | fromJson {commit : Commit} {value : Json} (read : ofJson? value = some commit) : Arises commit

theorem isOnClock_of_momentOf? {value : Json} {moment : Instant}
    (read : momentOf? value = some moment) : moment.IsOnClock := by
  obtain ⟨text, _, found⟩ := Option.bind_eq_some_iff.mp read
  exact Instant.isOnClock_of_readLenient found

theorem isOnClock_of_signaturesOf? {value : Json} {author committer : Signature}
    (read : signaturesOf? value = some (author, committer)) :
    author.moment.IsOnClock ∧ committer.moment.IsOnClock := by
  obtain ⟨record, _, read⟩ := Option.bind_eq_some_iff.mp read
  obtain ⟨name, _, read⟩ := Option.bind_eq_some_iff.mp read
  obtain ⟨authored, first, read⟩ := Option.bind_eq_some_iff.mp read
  obtain ⟨other, _, read⟩ := Option.bind_eq_some_iff.mp read
  obtain ⟨committed, second, same⟩ := Option.bind_eq_some_iff.mp read
  obtain ⟨rfl, rfl⟩ := Prod.mk.inj (Option.some.inj same)
  obtain ⟨_, _, first⟩ := Option.bind_eq_some_iff.mp first
  obtain ⟨_, _, second⟩ := Option.bind_eq_some_iff.mp second
  exact ⟨isOnClock_of_momentOf? first, isOnClock_of_momentOf? second⟩

theorem isOnClock_of_ofJson? {value : Json} (read : ofJson? value = some commit) :
    commit.author.moment.IsOnClock ∧ commit.committer.moment.IsOnClock := by
  obtain ⟨record, _, read⟩ := Option.bind_eq_some_iff.mp read
  obtain ⟨tree, _, read⟩ := Option.bind_eq_some_iff.mp read
  obtain ⟨parent, _, read⟩ := Option.bind_eq_some_iff.mp read
  obtain ⟨⟨author, committer⟩, signed, read⟩ := Option.bind_eq_some_iff.mp read
  obtain ⟨message, _, same⟩ := Option.bind_eq_some_iff.mp read
  obtain rfl := Option.some.inj same
  obtain ⟨_, _, signed⟩ := Option.bind_eq_some_iff.mp signed
  exact isOnClock_of_signaturesOf? signed

/-- A leap second of a commit lies at the end of a minute. -/
theorem Arises.isOnClock (arises : commit.Arises) :
    commit.author.moment.IsOnClock ∧ commit.committer.moment.IsOnClock := by
  cases arises with
  | made made =>
    obtain ⟨author, authorMade, rest⟩ := Steps.bind_eq_ok.mp made
    obtain ⟨committer, committerMade, same⟩ := Steps.bind_eq_ok.mp rest
    obtain rfl := Except.ok.inj same
    exact ⟨(Signature.isWritable_of_make authorMade).whole.isOnClock,
      (Signature.isWritable_of_make committerMade).whole.isOnClock⟩
  | decoded read =>
    have fields := isRead_of_decode read
    exact ⟨(fields.author _ rfl).onClock, (fields.committer _ rfl).onClock⟩
  | fromJson read => exact isOnClock_of_ofJson? read

/-- **Writing a commit and reading it again** gives the commit just if its ids have 64 lowercase
hexadecimal digits, its names have no line feed and its moments are seconds without a fraction in
years of four digits. This decides it for commits that were made, read from any payload, or read
from any value. -/
theorem decode_encode_iff (arises : commit.Arises) :
    decode commit.encode = .ok commit ↔
      commit.tree.IsHex ∧ (∀ id, commit.parent = some id → id.IsHex) ∧
        commit.author.IsExact ∧ commit.committer.IsExact := by
  obtain ⟨author, committer⟩ := arises.isOnClock
  simp only [decode_encode_eq_ok_iff_isWritable, Signature.isExact_iff author,
    Signature.isExact_iff committer, ObjectId.isHex_iff]
  exact ⟨fun writable => ⟨writable.tree, writable.parent, writable.author, writable.committer⟩,
    fun ⟨tree, parent, author, committer⟩ => ⟨tree, parent, author, committer⟩⟩

/-- A commit that was read from a value, with a leap second and an empty name, is read back. One that
was read from a payload is not, because its offset leads to the year 10000. -/
theorem decode_encode_of_yearEnds :
    (∃ commit : Commit, commit.Arises ∧ commit.author = ⟨"", ⟨1483228799, 1000000000⟩⟩ ∧
      decode commit.encode = .ok commit) ∧
    ∃ commit : Commit, commit.Arises ∧ commit.author = ⟨"a", ⟨253402300859, 0⟩⟩ ∧
      decode commit.encode ≠ .ok commit := by
  have fromJson : Arises ⟨.zero, none, ⟨"", ⟨1483228799, 1000000000⟩⟩, ⟨" b", ⟨0, 0⟩⟩, ""⟩ :=
    .fromJson (show ofJson? (.object [("tree", .text ObjectId.zero.text), ("message", .text ""),
      ("meta", .object [("author", .text ""), ("author_timestamp", .text "2016-12-31 23:59:60 UTC"),
        ("committer", .text " b"), ("committer_timestamp", .text "1970-1-1T1:0:0 +01:00")])]) =
      some _ by decide +kernel)
  have decoded : Arises ⟨.zero, none, ⟨"a", ⟨253402300859, 0⟩⟩, ⟨"b", ⟨0, 0⟩⟩, ""⟩ :=
    .decoded (show decode (Bytes.ofText ("tree " ++ ObjectId.zero.text ++
      "\nauthor 9999-12-31T23:59:59-00:01 a\ncommitter 1970-01-01T00:00:00Z b\n\n")) = .ok _ by
      decide +kernel)
  have zero : ObjectId.IsHex .zero := ObjectId.isHex_iff.mpr (by decide)
  refine ⟨⟨_, fromJson, rfl, (decode_encode_iff fromJson).mpr ⟨zero, nofun, ?_, ?_⟩⟩,
    ⟨_, decoded, rfl, fun read => ?_⟩⟩
  · exact ⟨by decide, by decide +kernel, .inr rfl⟩
  · exact ⟨by decide, by decide +kernel, .inl rfl⟩
  · exact absurd ((decode_encode_iff decoded).mp read).2.2.1.year (by decide +kernel)

end Commit

end PolicyLedger
