/-
**Exporting policies.**

Stored policies are turned back into source text, each into one line after its annotations, with an
empty line between two policies.
-/

import PolicyLedger.Authoring.SchemaFile
import PolicyLedger.Policy.Printer
import PolicyLedger.Policy.Reader

namespace PolicyLedger.Authoring

/-- The policy in its stored form. -/
def readStored? (data : Bytes) : Option Policy :=
  (Json.canonicalOfBytes? data).bind Policy.ofJson?

/-- The source of stored code, whose language and type are given by their numbers. -/
def toFrontend (spec : Specification) (languageId versionId artifactTypeId : UInt32)
    (data : Bytes) : Except Error Bytes :=
  if languageId ≠ spec.backendLanguageId then
    .error (.languageMismatch s!"language id {spec.backendLanguageId}" s!"language id {languageId}")
  else if versionId ≠ spec.languageVersionId then
    .error (.languageMismatch s!"version id {spec.languageVersionId}" s!"version id {versionId}")
  else if artifactTypeId = CodeType.policy.number then
    match readStored? data with
    | some policy => .ok (Bytes.ofText (String.ofList policy.print))
    | none => .error (.source .malformedStoredPolicy)
  else if artifactTypeId = CodeType.schema.number then
    if (Json.ofBytes? data).isSome then .ok data else .error (.source .malformedSchema)
  else .error (.source (.unsupportedArtifact artifactTypeId.toNat))

/-- The source of a stored policy. -/
def exportPolicy (spec : Specification) (object : Object) : Except Error Bytes := do
  let blob ← Blob.ofObject object
  if blob.header.artifactType? = some .policy then
    toFrontend spec blob.header.languageId blob.header.languageVersionId blob.header.artifactTypeId
      blob.data
  else throw (.object (.notAPolicy blob.header.codeId))

/-- Blocks with an empty line between two of them. -/
def joinBlocks : List Bytes → Bytes
  | [] => []
  | [block] => block
  | block :: other :: rest => block ++ [0x0A, 0x0A] ++ joinBlocks (other :: rest)

/-- The source of stored policies, and the extension of its file. -/
def exportPolicies (spec : Specification) (objects : List Object) :
    Except Error (Bytes × String) := do
  let blocks ← objects.mapM (exportPolicy spec)
  return (joinBlocks blocks, ".cedar")

end PolicyLedger.Authoring
