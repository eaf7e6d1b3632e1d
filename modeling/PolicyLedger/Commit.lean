/-
**Commits.**

A commit names a tree, the commit before it, who wrote and who committed it and when, and a message.
Its payload is text: one line for each field, an empty line, and the message.

* `make` builds commits that are read back from their payload: fractions of seconds are dropped,
  blank identities become `unknown`, a zero parent is no parent, and years must have four digits;
* `decode` takes the lines in any order; of lines repeated the last one counts.
-/

import PolicyLedger.Object
import PolicyLedger.Text.Split
import PolicyLedger.Time.Reader

namespace PolicyLedger

open Time (Instant)

/-- Who did something, and when. -/
structure Signature where
  name : String
  moment : Instant
  deriving DecidableEq, Repr

/-- A tree with its history. -/
structure Commit where
  tree : ObjectId
  parent : Option ObjectId
  author : Signature
  committer : Signature
  message : String
  deriving DecidableEq, Repr

namespace Signature

/-- Stands for a missing name. -/
def unknownName : String := "unknown"

/-- A name without blanks at its ends; it must be on one line. -/
def checkName (name : String) : Except Error String :=
  if name.toList.any (fun c => c = '\n' || c = '\r') then .error (.encoding .identityLines)
  else if Text.isBlankText name then .ok unknownName
  else .ok (Text.trimmed name)

/-- An instant without its fraction; its year must have four digits. -/
def checkMoment (moment : Instant) : Except Error Instant :=
  if 0 ≤ moment.year ∧ moment.year ≤ 9999 then .ok moment.wholeSecond
  else .error (.encoding (.timestampYear moment.display))

/-- A signature that can be written and read back. -/
def make (name : String) (moment : Instant) : Except Error Signature := do
  let name ← checkName name
  let moment ← checkMoment moment
  return ⟨name, moment⟩

/-- The moment and the name, with a space between them. -/
def encode (signature : Signature) : List Char :=
  signature.moment.rfc3339Seconds ++ ' ' :: signature.name.toList

/-- The signature in a line. -/
def decode (line : List Char) : Except Error Signature :=
  match Text.splitFirst? [' '] line with
  | none => .error (.object (.identityLine (String.ofList line)))
  | some (date, name) =>
    match Instant.readStrict date with
    | none => .error (.object (.timestamp (String.ofList date)))
    | some moment => .ok ⟨String.ofList name, moment⟩

end Signature

namespace Commit

/-- A commit that can be written and read back. -/
def make (tree : ObjectId) (parent : Option ObjectId) (author : String) (authored : Instant)
    (committer : String) (committed : Instant) (message : String) : Except Error Commit := do
  let author ← Signature.make author authored
  let committer ← Signature.make committer committed
  return ⟨tree, parent.filter (fun id => !id.isZero), author, committer, message⟩

/-! ### The payload -/

/-- The lines before the empty line. -/
def headLines (commit : Commit) : List (List Char) :=
  ["tree ".toList ++ commit.tree.text.toList] ++
    (match commit.parent with
      | some parent => ["parent ".toList ++ parent.text.toList]
      | none => []) ++
    ["author ".toList ++ commit.author.encode, "committer ".toList ++ commit.committer.encode]

/-- The text of a commit. -/
def encodeText (commit : Commit) : List Char :=
  commit.headLines.flatMap (· ++ ['\n']) ++ '\n' :: commit.message.toList

/-- The payload of a commit. -/
def encode (commit : Commit) : Bytes := Bytes.ofText (String.ofList commit.encodeText)

/-- The fields found so far among the lines of a commit. -/
structure Draft where
  tree : Option ObjectId := none
  parent : Option ObjectId := none
  author : Option Signature := none
  committer : Option Signature := none

namespace Draft

/-- The fields after one more line. -/
def addLine (draft : Draft) (line : List Char) : Except Error Draft :=
  match Text.stripStart? "tree ".toList line with
  | some value => do
    let id ← ObjectId.parse (String.ofList value)
    return { draft with tree := some id }
  | none =>
    match Text.stripStart? "parent ".toList line with
    | some value => do
      let id ← ObjectId.parse (String.ofList value)
      return { draft with parent := some id }
    | none =>
      match Text.stripStart? "author ".toList line with
      | some value => do
        let signature ← Signature.decode value
        return { draft with author := some signature }
      | none =>
        match Text.stripStart? "committer ".toList line with
        | some value => do
          let signature ← Signature.decode value
          return { draft with committer := some signature }
        | none => .error (.object (.unexpectedLine (String.ofList line)))

/-- The commit with the fields found, if all of them but the parent were. -/
def finish (draft : Draft) (message : String) : Except Error Commit :=
  match draft.tree with
  | none => .error (.object .noTree)
  | some tree =>
    match draft.author with
    | none => .error (.object .noAuthor)
    | some author =>
      match draft.committer with
      | none => .error (.object .noCommitter)
      | some committer => .ok ⟨tree, draft.parent, author, committer, message⟩

end Draft

/-- The commit with a text. -/
def decodeText (text : List Char) : Except Error Commit :=
  match Text.splitFirst? ['\n', '\n'] text with
  | none => .error (.object .noSeparator)
  | some (head, message) => do
    let draft ← (Text.pieces '\n' head).foldlM Draft.addLine {}
    draft.finish (String.ofList message)

/-- The commit in a payload. -/
def decode (payload : Bytes) : Except Error Commit :=
  match Bytes.toText? payload with
  | none => .error (.object .commitEncoding)
  | some text => decodeText text.toList

/-- The object that stores a commit. -/
def toObject (commit : Commit) : Except Error Object := Object.frame .commit commit.encode

/-- The commit that an object stores. -/
def ofObject (object : Object) : Except Error Commit :=
  if object.kind = .commit then decode object.payload
  else .error (.wrongKind .commit object.kind)

end Commit

end PolicyLedger
