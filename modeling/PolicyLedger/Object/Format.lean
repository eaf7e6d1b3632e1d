/-
**The JSON form of stored values.**

Headers, commits and trees have a JSON form besides their payload. It skips the checks that making
such a value goes through: ids may be any texts, fields may have blanks, and a tree may have no
entries.
-/

import PolicyLedger.Commit
import PolicyLedger.Json.Record
import PolicyLedger.Object.Header
import PolicyLedger.Tree

namespace PolicyLedger

open Json (Record)

/-- The id in a value. -/
def ObjectId.ofJson? (value : Json) : Option ObjectId := value.asText?.map .mk

/-- A natural number of 32 bits as a value. -/
def Json.ofUInt32 (value : UInt32) : Json := .ofUInt64 value.toUInt64

namespace Header

/-- The object for a header. -/
def toJson (header : Header) : Json :=
  .object [("is_native_language", .bool header.native),
    ("language_id", .ofUInt32 header.languageId),
    ("language_version_id", .ofUInt32 header.languageVersionId),
    ("artifact_type_id", .ofUInt32 header.artifactTypeId),
    ("code_id", .text header.codeId),
    ("code_type_id", .ofUInt32 header.codeTypeId)]

/-- The header in a structure. -/
def ofJson? (value : Json) : Option Header := do
  let record ← Record.of? ["is_native_language", "language_id", "language_version_id",
    "artifact_type_id", "code_id", "code_type_id"] value
  let native ← record.required "is_native_language" Json.asBool?
  let languageId ← record.required "language_id" Json.asUInt32?
  let languageVersionId ← record.required "language_version_id" Json.asUInt32?
  let artifactTypeId ← record.required "artifact_type_id" Json.asUInt32?
  let codeId ← record.required "code_id" Json.asText?
  let codeTypeId ← record.required "code_type_id" Json.asUInt32?
  return ⟨native, languageId, languageVersionId, artifactTypeId, codeId, codeTypeId⟩

end Header

namespace Commit

/-- The value for a moment. -/
def momentJson (moment : Time.Instant) : Json := .text (String.ofList moment.rfc3339)

/-- The moment in a value. -/
def momentOf? (value : Json) : Option Time.Instant :=
  value.asText?.bind fun text => Time.Instant.readLenient text.toList

/-- The object for the signatures of a commit. -/
def signaturesJson (commit : Commit) : Json :=
  .object [("author", .text commit.author.name),
    ("author_timestamp", momentJson commit.author.moment),
    ("committer", .text commit.committer.name),
    ("committer_timestamp", momentJson commit.committer.moment)]

/-- The signatures in a structure. -/
def signaturesOf? (value : Json) : Option (Signature × Signature) := do
  let record ← Record.of? ["author", "author_timestamp", "committer", "committer_timestamp"] value
  let author ← record.required "author" Json.asText?
  let authored ← record.required "author_timestamp" momentOf?
  let committer ← record.required "committer" Json.asText?
  let committed ← record.required "committer_timestamp" momentOf?
  return (⟨author, authored⟩, ⟨committer, committed⟩)

/-- The object for a commit. -/
def toJson (commit : Commit) : Json :=
  .object [("tree", .text commit.tree.text),
    ("parent", match commit.parent with
      | some parent => .text parent.text
      | none => .null),
    ("meta", commit.signaturesJson), ("message", .text commit.message)]

/-- The commit in a structure. -/
def ofJson? (value : Json) : Option Commit := do
  let record ← Record.of? ["tree", "parent", "meta", "message"] value
  let tree ← record.required "tree" ObjectId.ofJson?
  let parent ← record.optional "parent" ObjectId.ofJson?
  let (author, committer) ← record.required "meta" signaturesOf?
  let message ← record.required "message" Json.asText?
  return ⟨tree, parent, author, committer, message⟩

end Commit

namespace TreeEntry

/-- The object for an entry. -/
def toJson (entry : TreeEntry) : Json :=
  .object [("path", .text entry.path), ("kind", .text entry.kind.word),
    ("oid", .text entry.oid.text), ("name", .text entry.name), ("code_id", .text entry.codeId),
    ("code_type", .text entry.codeType), ("language", .text entry.language),
    ("language_version", .text entry.languageVersion),
    ("language_type", .text entry.languageType)]

/-- The entry in a structure. -/
def ofJson? (value : Json) : Option TreeEntry := do
  let record ← Record.of? ["path", "kind", "oid", "name", "code_id", "code_type", "language",
    "language_version", "language_type"] value
  let path ← record.required "path" Json.asText?
  let kind ← record.required "kind" fun word => word.asChoice?.bind ObjectKind.ofWord?
  let oid ← record.required "oid" ObjectId.ofJson?
  let name ← record.required "name" Json.asText?
  let codeId ← record.required "code_id" Json.asText?
  let codeType ← record.required "code_type" Json.asText?
  let language ← record.required "language" Json.asText?
  let languageVersion ← record.required "language_version" Json.asText?
  let languageType ← record.required "language_type" Json.asText?
  return ⟨path, kind, oid, name, codeId, codeType, language, languageVersion, languageType⟩

end TreeEntry

namespace Tree

/-- The object for a tree. -/
def toJson (tree : Tree) : Json := .object [("entries", .list (tree.entries.map TreeEntry.toJson))]

/-- The tree in a structure. -/
def ofJson? (value : Json) : Option Tree := do
  let record ← Record.of? ["entries"] value
  let entries ← record.required "entries" (Json.asListOf? TreeEntry.ofJson?)
  return ⟨entries⟩

end Tree

end PolicyLedger
