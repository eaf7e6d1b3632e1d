/-
**Errors.**

An error is a cause together with the part of the ledger it belongs to, its `kind`. The kind decides
the beginning of the message and the `class`, and the class alone decides how a failure is shown to
the subject of a request. The words of a library are in the rest of the message only.

* `message_stated`: an error that came with its own wording is shown with it.
-/

import PolicyLedger.Error.Cause

namespace PolicyLedger

/-- Who has to act on a failure. -/
inductive ErrorClass
  | malformedInput
  | contractViolation
  | security
  | internal
  deriving DecidableEq, Repr

/-- The parts of the ledger that fail. -/
inductive ErrorKind
  | unsupportedFrontendLanguage
  | badSource
  | reservedNamespaceViolation
  | schemaEmpty
  | languageMismatch
  | encodingFailed
  | notATree
  | notACommit
  | notABlob
  | invalidObject
  | invalidName
  | invalidTreeEntry
  | sectionOutOfRange
  | objectNotFound
  | unknownLanguage
  | unsupportedSubjectKind
  | badRequest
  | evaluation
  | manifest
  | config
  | io
  | serialization
  deriving DecidableEq, Repr

namespace ErrorKind

/-- Storage, configuration and evaluation are the ledger's own; the rest is for the caller. -/
def errorClass : ErrorKind → ErrorClass
  | badSource | schemaEmpty | invalidName | invalidTreeEntry | manifest | badRequest =>
    .malformedInput
  | unsupportedFrontendLanguage | languageMismatch | encodingFailed | notATree | notACommit
  | notABlob | invalidObject | sectionOutOfRange | unknownLanguage | unsupportedSubjectKind =>
    .contractViolation
  | reservedNamespaceViolation => .security
  | objectNotFound | evaluation | config | io | serialization => .internal

/-- A message of a kind that ends with the given detail. -/
def word (kind : ErrorKind) (detail : String) : String :=
  match kind with
  | unsupportedFrontendLanguage => s!"Unsupported frontend language: {detail}"
  | badSource => s!"Syntax error: {detail}"
  | reservedNamespaceViolation => s!"Reserved namespace violation: {detail}"
  | schemaEmpty => "Schema cannot be empty"
  | languageMismatch => s!"Language mismatch: {detail}"
  | encodingFailed => s!"Object encoding failed: {detail}"
  | notATree => s!"Object is not a tree (found {detail})"
  | notACommit => s!"Object is not a commit (found {detail})"
  | notABlob => s!"Object is not a blob (found {detail})"
  | invalidObject => s!"Invalid object: {detail}"
  | invalidName => s!"Invalid name: {detail}"
  | invalidTreeEntry => s!"Invalid tree entry: {detail}"
  | sectionOutOfRange => s!"Section index {detail}"
  | objectNotFound => s!"Object not found: {detail}"
  | unknownLanguage => s!"Unknown language: {detail}"
  | unsupportedSubjectKind => s!"Unsupported subject kind: {detail}"
  | badRequest => s!"Bad request: {detail}"
  | evaluation => s!"Evaluation failed: {detail}"
  | manifest => s!"Manifest validation failed: {detail}"
  | config => s!"Configuration error: {detail}"
  | io => s!"I/O error: {detail}"
  | serialization => s!"Serialization error: {detail}"

end ErrorKind

/-- A failure with its cause. -/
inductive Error
  | frontend (cause : FrontendFault)
  | source (cause : SourceFault)
  | reserved (what identifier : String)
  | emptySchema
  | languageMismatch (expected found : String)
  | encoding (cause : EncodingFault)
  | wrongKind (expected found : ObjectKind)
  | object (cause : ObjectFault)
  | name (cause : NameFault)
  | treeEntry (cause : EntryFault)
  | sectionOutOfRange (index declared : Nat)
  | missingObject (id : String)
  | unknownLanguage (cause : LanguageFault)
  | subjectKind (kind : String)
  | request (cause : RequestFault)
  | evaluation (cause : EvaluationFault)
  | manifest (cause : ManifestFault)
  | configText
  | unreadableFile
  | malformedJson
  | stated (kind : ErrorKind) (detail : String)
  deriving DecidableEq, Repr

namespace Error

/-- The part of the ledger an error belongs to. -/
def kind : Error → ErrorKind
  | frontend _ => .unsupportedFrontendLanguage
  | source _ => .badSource
  | reserved .. => .reservedNamespaceViolation
  | emptySchema => .schemaEmpty
  | languageMismatch .. => .languageMismatch
  | encoding _ => .encodingFailed
  | wrongKind .tree _ => .notATree
  | wrongKind .commit _ => .notACommit
  | wrongKind .blob _ => .notABlob
  | object _ => .invalidObject
  | name _ => .invalidName
  | treeEntry _ => .invalidTreeEntry
  | sectionOutOfRange .. => .sectionOutOfRange
  | missingObject _ => .objectNotFound
  | unknownLanguage _ => .unknownLanguage
  | subjectKind _ => .unsupportedSubjectKind
  | request _ => .badRequest
  | evaluation _ => .evaluation
  | manifest _ => .manifest
  | configText => .config
  | unreadableFile => .io
  | malformedJson => .serialization
  | stated kind _ => kind

/-- What the message says beyond the kind, with the words of the libraries. -/
def detail (wording : Wording) : Error → String
  | frontend cause => cause.text
  | source cause => cause.text wording
  | reserved what identifier => s!"{what} '{identifier}' uses the reserved ZTAuth namespace"
  | emptySchema => ""
  | languageMismatch expected found => s!"expected {expected}, found {found}"
  | encoding cause => cause.text
  | wrongKind _ found => found.word
  | object cause => cause.text wording
  | name cause => cause.text
  | treeEntry cause => cause.text
  | sectionOutOfRange index declared => s!"{index} out of range (declared {declared})"
  | missingObject id => id
  | unknownLanguage cause => cause.text
  | subjectKind kind => kind
  | request cause => cause.text wording
  | evaluation cause => cause.text wording
  | manifest cause => cause.text
  | configText => wording.settings
  | unreadableFile => wording.file
  | malformedJson => wording.json
  | stated _ detail => detail

/-- The full message, in which the libraries speak in a wording. -/
def message (error : Error) (wording : Wording := {}) : String :=
  error.kind.word (error.detail wording)

/-- The class of an error is that of its kind. -/
def errorClass (error : Error) : ErrorClass := error.kind.errorClass

/-- An error that came with its own wording is shown with it. -/
theorem message_stated (kind : ErrorKind) (detail : String) (wording : Wording) :
    (stated kind detail).message wording = kind.word detail := rfl

end Error

end PolicyLedger
