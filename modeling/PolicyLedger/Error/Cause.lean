/-
**What can go wrong.**

One inductive type for each part of the ledger lists the causes of its failures; `text` words a
cause. Where a library refuses what it was given, the text goes on in the words of the library. These
differ from run to run and no step depends on them, so they are no part of the cause: a `Wording` has
them, and a text is made with a wording. The words are `withheld` where none are given.
-/

import PolicyLedger.Object.Kind

namespace PolicyLedger

/-- Stands where the words of a library would be. -/
def withheld : String := "*"

/-- The words of the libraries in one run: of the readers of policies and schemas, of those of bytes
and times, of those of the parts of a request, of the evaluation of a policy, and of the readers of
settings, files and JSON. -/
structure Wording where
  source : String := withheld
  schema : String := withheld
  storedPolicy : String := withheld
  codeId : String := withheld
  commit : String := withheld
  tree : String := withheld
  timestamp : String → String := fun _ => withheld
  entities : String := withheld
  context : String := withheld
  entityType : String → String := fun _ => withheld
  policy : String → String := fun _ => withheld
  evaluation : String → String := fun _ => withheld
  settings : String := withheld
  file : String := withheld
  json : String := withheld

/-- A source is not in the language the authors write. -/
inductive FrontendFault
  | notNative
  | notPolicyFile (path language : String)
  | notSchemaFile (path language : String)
  deriving DecidableEq, Repr

/-- A policy or a schema cannot be read. -/
inductive SourceFault
  | malformed
  | malformedSchema
  | malformedStoredPolicy
  | duplicateId (id : String)
  | unsupportedArtifact (artifact : Nat)
  deriving DecidableEq, Repr

/-- A value cannot be written as an object. -/
inductive EncodingFault
  | payloadTooLarge (size : Nat)
  | unknownCodeType (id : Nat)
  | unknownArtifactType (id : Nat)
  | inconsistentTypes (artifact code : String)
  | blankCodeId
  | codeIdTooLong (size : Nat)
  | emptyBlob
  | emptyTree
  | identityLines
  | timestampYear (moment : String)
  deriving DecidableEq, Repr

/-- Bytes are no object of the expected form. -/
inductive ObjectFault
  | notAnId (text : String)
  | shortFrame
  | badMagic
  | formatVersion (version : Nat)
  | unknownKind (byte : Nat)
  | payloadLength (declared found : Nat)
  | hashMismatch (id : String)
  | shortHeader
  | codeIdBounds
  | codeIdEncoding
  | commitEncoding
  | noSeparator
  | unexpectedLine (line : String)
  | identityLine (line : String)
  | timestamp (text : String)
  | noTree
  | noAuthor
  | noCommitter
  | treeEncoding
  | entryFormat (line : String)
  | entryKind (word : String)
  | unknownCodeType (id : Nat)
  | notEvaluable (codeId : String) (artifact : Nat)
  | notAPolicy (codeId : String)
  deriving DecidableEq, Repr

/-- A policy name breaks the naming rules. -/
inductive NameFault
  | empty
  | tooLong (limit : Nat)
  | reserved (name namespaceWord : String)
  | malformed (name : String)
  deriving DecidableEq, Repr

/-- A tree entry is malformed or clashes with another. -/
inductive EntryFault
  | emptyField (field : String)
  | blankInField (field value : String)
  | duplicateName (name : String)
  | duplicateCode (codeId codeType : String)
  | codeIdMismatch (expected found : String)
  | commitEntry (name : String)
  | endless (name : String)
  deriving DecidableEq, Repr

/-- No registered language fits. -/
inductive LanguageFault
  | name (name : String)
  | ids (language version : Nat)
  deriving DecidableEq, Repr

/-- A caller's request cannot be served. -/
inductive RequestFault
  | missing (what : String)
  | commitId (fault : ObjectFault)
  | zeroCommit
  | actionFormat (action : String)
  | actionType (action : String)
  | actionId (action : String)
  | entities
  | context
  | entityType (name : String)
  | historyStart
  | historyLength (limit : Nat)
  | blankLanguage
  | zeroHistory
  | registeredTwice (language : String)
  deriving DecidableEq, Repr

/-- Policies could not be evaluated. -/
inductive EvaluationFault
  | unusable (policy : String)
  | failed (policies : List String)
  deriving DecidableEq, Repr

/-- A manifest is incomplete or contradicts itself. -/
inductive ManifestFault
  | emptyName
  | unknownRuntime (partitionPath runtime : String)
  | emptyData
  | missingRuntime (runtime : String)
  | foreignLanguage (runtime language : String)
  | missingRoot
  | rootRuntime (found expected : String)
  deriving DecidableEq, Repr

/-! ### Wording -/

/-- The wording of a cause. -/
def FrontendFault.text : FrontendFault → String
  | notNative => "object is not in a native language"
  | notPolicyFile path language => s!"'{path}' is not a {language} policy file"
  | notSchemaFile path language => s!"'{path}' is not a {language} schema file"

/-- The wording of a cause. -/
def SourceFault.text (wording : Wording) : SourceFault → String
  | malformed => wording.source
  | malformedSchema => s!"schema: {wording.schema}"
  | malformedStoredPolicy => s!"policy: {wording.storedPolicy}"
  | duplicateId id => s!"duplicate policy id '{id}'"
  | unsupportedArtifact artifact => s!"unsupported artifact type id {artifact}"

/-- The wording of a cause. -/
def EncodingFault.text : EncodingFault → String
  | payloadTooLarge size => s!"payload too large ({size} bytes)"
  | unknownCodeType id => s!"unknown code type id {id}"
  | unknownArtifactType id => s!"unknown artifact type id {id}"
  | inconsistentTypes artifact code =>
    s!"artifact type {artifact} is inconsistent with code type {code}"
  | blankCodeId => "code id is empty"
  | codeIdTooLong size => s!"code id too long ({size} bytes)"
  | emptyBlob => "blob data is empty"
  | emptyTree => "tree has no entries"
  | identityLines => "identity cannot span multiple lines"
  | timestampYear moment => s!"timestamp {moment} is outside years 0000-9999"

/-- The wording of a cause. -/
def ObjectFault.text (wording : Wording) : ObjectFault → String
  | notAnId text => s!"'{text}' is not a valid object id"
  | shortFrame => "insufficient bytes for object frame"
  | badMagic => "invalid magic"
  | formatVersion version => s!"unsupported object format version {version}"
  | unknownKind byte => s!"unknown object kind {byte}"
  | payloadLength declared found =>
    s!"content length mismatch: expected {declared}, got {found}"
  | hashMismatch id => s!"object {id} does not match its content hash"
  | shortHeader => "insufficient bytes for object header"
  | codeIdBounds => "code id exceeds header bounds"
  | codeIdEncoding => s!"code id is not UTF-8: {wording.codeId}"
  | commitEncoding => s!"commit is not UTF-8: {wording.commit}"
  | noSeparator => "commit has no message separator"
  | unexpectedLine line => s!"unexpected commit line: {line}"
  | identityLine line => s!"invalid identity line: {line}"
  | timestamp text => s!"invalid timestamp '{text}': {wording.timestamp text}"
  | noTree => "commit has no tree"
  | noAuthor => "commit has no author"
  | noCommitter => "commit has no committer"
  | treeEncoding => s!"tree is not UTF-8: {wording.tree}"
  | entryFormat line => s!"invalid tree entry format: {line}"
  | entryKind word => s!"invalid tree entry kind: {word}"
  | unknownCodeType id => s!"unknown code type id {id}"
  | notEvaluable codeId artifact =>
    s!"blob '{codeId}' has artifact type {artifact} which cannot be evaluated"
  | notAPolicy codeId => s!"blob '{codeId}' is not a policy"

/-- The wording of a cause. -/
def NameFault.text : NameFault → String
  | empty => "name cannot be empty"
  | tooLong limit => s!"name too long (max {limit} characters)"
  | reserved name namespaceWord =>
    s!"name '{name}' cannot use the reserved '{namespaceWord}' prefix"
  | malformed name =>
    s!"name '{name}' must be lowercase letters, numbers, hyphens or underscores"

/-- The wording of a cause. -/
def EntryFault.text : EntryFault → String
  | emptyField field => s!"{field} is empty"
  | blankInField field value => s!"{field} '{value}' contains whitespace"
  | duplicateName name => s!"entry '{name}' already exists"
  | duplicateCode codeId codeType =>
    s!"code id '{codeId}' of type '{codeType}' already exists"
  | codeIdMismatch expected found =>
    s!"entry '{expected}' points at blob with code id '{found}'"
  | commitEntry name => s!"entry '{name}' points at a commit"
  | endless name => s!"entry '{name}' contains itself"

/-- The wording of a cause. -/
def LanguageFault.text : LanguageFault → String
  | name word => word
  | ids language version => s!"language id {language} version id {version}"

/-- The wording of a cause. -/
def RequestFault.text (wording : Wording) : RequestFault → String
  | missing what => s!"{what} is required"
  | commitId fault => s!"commit id: Invalid object: {fault.text wording}"
  | zeroCommit => "commit id cannot be the zero id"
  | actionFormat action => s!"invalid action format '{action}'"
  | actionType action => s!"action '{action}' has no type"
  | actionId action => s!"action '{action}' has no id"
  | entities => s!"invalid entities: {wording.entities}"
  | context => s!"invalid context: {wording.context}"
  | entityType name => s!"invalid entity type '{name}': {wording.entityType name}"
  | historyStart => "invalid from commit id"
  | historyLength limit => s!"commit history exceeds {limit} entries"
  | blankLanguage => "config: language cannot be empty"
  | zeroHistory => "config: max_commit_history must be positive"
  | registeredTwice language => s!"language '{language}' is already registered"

/-- The wording of a cause. -/
def EvaluationFault.text (wording : Wording) : EvaluationFault → String
  | unusable policy => s!"policy '{policy}': {wording.policy policy}"
  | failed policies =>
    "; ".intercalate (policies.map fun id =>
      s!"error while evaluating policy `{id}`: {wording.evaluation id}")

/-- The wording of a cause. -/
def ManifestFault.text : ManifestFault → String
  | emptyName => "manifest name is empty"
  | unknownRuntime partitionPath runtime =>
    s!"partition '{partitionPath}' references unknown runtime '{runtime}'"
  | emptyData => "manifest data is empty"
  | missingRuntime runtime => s!"missing the '{runtime}' runtime"
  | foreignLanguage runtime language => s!"runtime '{runtime}' declares language '{language}'"
  | missingRoot => "missing the root partition"
  | rootRuntime found expected => s!"root partition uses runtime '{found}' instead of '{expected}'"

end PolicyLedger
