/-
**Trees.**

A tree lists named artifacts. Its payload is text, one line for each entry and one space between the
fields of an entry, so every field is free of blanks. Names are distinct in a tree, and so are the
pairs of code id and code type.

* `TreeEntry.check` checks the fields; an empty path is the root partition;
* `Tree.add` checks the new entry against those present, one after the other.
-/

import PolicyLedger.Object
import PolicyLedger.Text.Split
import PolicyLedger.Text.Blank

namespace PolicyLedger

/-- The path of the partition that every ledger has. -/
def rootPartition : String := "/"

/-- A named object of a tree. -/
structure TreeEntry where
  path : String
  kind : ObjectKind
  oid : ObjectId
  name : String
  codeId : String
  codeType : String
  language : String
  languageVersion : String
  languageType : String
  deriving DecidableEq, Repr

namespace TreeEntry

/-- Refuses a text that is empty or has blanks. -/
def checkField (field value : String) : Except Error Unit :=
  if value.isEmpty then .error (.treeEntry (.emptyField field))
  else if Text.hasBlank value then .error (.treeEntry (.blankInField field value))
  else .ok ()

/-- An entry with well-formed fields. -/
def check (entry : TreeEntry) : Except Error TreeEntry := do
  let entry := { entry with path := if entry.path.isEmpty then rootPartition else entry.path }
  checkField "path" entry.path
  checkField "name" entry.name
  checkField "code id" entry.codeId
  checkField "code type" entry.codeType
  checkField "language" entry.language
  checkField "language version" entry.languageVersion
  checkField "language type" entry.languageType
  return entry

/-- The fields in the order of a line. -/
def fields (entry : TreeEntry) : List String :=
  [entry.kind.word, entry.path, entry.oid.text, entry.name, entry.codeId, entry.codeType,
    entry.language, entry.languageVersion, entry.languageType]

/-- The line of an entry. -/
def encode (entry : TreeEntry) : List Char := Text.join ' ' (entry.fields.map String.toList)

/-- The entry in a line. -/
def decode (line : List Char) : Except Error TreeEntry :=
  match (Text.pieces ' ' line).map String.ofList with
  | [kindWord, path, oid, name, codeId, codeType, language, languageVersion, languageType] =>
    match ObjectKind.ofWord? kindWord with
    | none => .error (.object (.entryKind kindWord))
    | some kind => do
      let oid ← ObjectId.parse oid
      check ⟨path, kind, oid, name, codeId, codeType, language, languageVersion, languageType⟩
  | _ => .error (.object (.entryFormat (String.ofList line)))

/-- Refuses an entry that cannot stand beside one that is present. -/
def checkBeside (entry present : TreeEntry) : Except Error Unit :=
  if present.name = entry.name then .error (.treeEntry (.duplicateName entry.name))
  else if present.codeId = entry.codeId ∧ present.codeType = entry.codeType then
    .error (.treeEntry (.duplicateCode entry.codeId entry.codeType))
  else .ok ()

end TreeEntry

/-- Entries in the order they were added. -/
structure Tree where
  entries : List TreeEntry
  deriving DecidableEq, Repr

namespace Tree

/-- The tree without entries. -/
def empty : Tree := ⟨[]⟩

/-- The number of entries. -/
def size (tree : Tree) : Nat := tree.entries.length

/-- A tree with one more entry, which must stand beside all others. -/
def add (tree : Tree) (entry : TreeEntry) : Except Error Tree := do
  tree.entries.forM entry.checkBeside
  return ⟨tree.entries ++ [entry]⟩

/-- The text of a tree. -/
def encodeText (tree : Tree) : List Char := Text.join '\n' (tree.entries.map TreeEntry.encode)

/-- The payload of a tree, which must have entries. -/
def encode (tree : Tree) : Except Error Bytes :=
  if tree.entries.isEmpty then .error (.encoding .emptyTree)
  else .ok (Bytes.ofText (String.ofList tree.encodeText))

/-- A tree with the entry of one more line. -/
def addLine (tree : Tree) (line : List Char) : Except Error Tree := do
  let entry ← TreeEntry.decode line
  tree.add entry

/-- The tree in a payload. -/
def decode (payload : Bytes) : Except Error Tree :=
  match Bytes.toText? payload with
  | none => .error (.object .treeEncoding)
  | some text => (Text.pieces '\n' text.toList).foldlM addLine empty

/-- The object that stores a tree. -/
def toObject (tree : Tree) : Except Error Object := do
  let payload ← tree.encode
  Object.frame .tree payload

/-- The tree that an object stores. -/
def ofObject (object : Object) : Except Error Tree :=
  if object.kind = .tree then decode object.payload
  else .error (.wrongKind .tree object.kind)

end Tree

end PolicyLedger
