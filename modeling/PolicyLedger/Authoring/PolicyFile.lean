/-
**Policy files.**

A policy file becomes one section for each of its statements. A section holds the blob of its
policy, or the error that prevented one: a statement that is no policy, a bad name, or a name that
an earlier policy of the file has. A policy without a name is given one of the ids in `generated`,
which the statement's index selects.

* `storedMembers`: the stored form of a policy carries its name, given or generated.
-/

import PolicyLedger.Authoring.FilePath
import PolicyLedger.Authoring.Statements
import PolicyLedger.Json.Writer
import PolicyLedger.Language.Specification
import PolicyLedger.Name
import PolicyLedger.Object.Blob
import PolicyLedger.Policy.Parser
import PolicyLedger.Policy.Writer
import PolicyLedger.Sections

namespace PolicyLedger

/-- The annotation that names a policy. -/
def idAnnotation : String := "id"

/-- How the object for some code is listed in a tree. -/
def Specification.sectionMeta (spec : Specification) (partition codeId : String)
    (codeType : CodeType) : SectionMeta :=
  { partition := partition
    kind := .blob
    name := codeId
    codeId := codeId
    codeType := codeType.word
    language := spec.backendLanguage
    languageVersion := spec.languageVersion
    languageType := codeType.word }

/-- The header of a blob with some code. -/
def Specification.header (spec : Specification) (codeId : String) (codeType : CodeType) : Header :=
  { native := true
    languageId := spec.backendLanguageId
    languageVersionId := spec.languageVersionId
    artifactTypeId := codeType.number
    codeId := codeId
    codeTypeId := codeType.number }

namespace Authoring

/-- A policy with its name. -/
structure NamedPolicy where
  policy : Policy
  codeId : String

/-- The policy of a statement; one without a name takes the generated one. -/
def readStatement (statement : List Char) (generated : String) : Except Error NamedPolicy :=
  match Policy.parse? statement with
  | none => .error (.source .malformed)
  | some policy =>
    match policy.annotation? idAnnotation with
    | some name => do
      PolicyName.check name
      return ⟨policy, name⟩
    | none => .ok ⟨policy, generated⟩

/-- The members of a policy's stored form, the name among its annotations. -/
def storedMembers (named : NamedPolicy) : List (String × Json) :=
  let members := named.policy.toMembers
  let annotations := ((members.lookup "annotations").map Json.members).getD []
  let annotations := Json.setMember idAnnotation (.text named.codeId) annotations
  Json.setMember "annotations" (.object annotations) members

/-- The stored form of a policy. -/
def storedBytes (named : NamedPolicy) : Bytes :=
  Bytes.ofText (Json.object (storedMembers named)).compact

/-- The object for some code, and how it is listed. -/
def makeObject (spec : Specification) (partition codeId : String) (codeType : CodeType)
    (data : Bytes) : Except Error (Object × SectionMeta) := do
  let object ← Blob.toObject ⟨spec.header codeId codeType, data⟩
  return (object, spec.sectionMeta partition codeId codeType)

/-- The outcome of a statement, and the names met after it. -/
def section? (spec : Specification) (partition : String) (met : List String)
    (statement : List Char) (generated : String) :
    List String × Except Error (Object × SectionMeta) :=
  match readStatement statement generated with
  | .error error => (met, .error error)
  | .ok named =>
    if met.contains named.codeId then (met, .error (.source (.duplicateId named.codeId)))
    else (named.codeId :: met,
      makeObject spec partition named.codeId .policy (storedBytes named))

/-- The outcomes of statements from an index on, after some names were met. -/
def outcomes (spec : Specification) (partition : String) (generated : Nat → String) (index : Nat)
    (met : List String) : List (List Char) → List (Except Error (Object × SectionMeta))
  | [] => []
  | statement :: rest =>
    let (met, outcome) := section? spec partition met statement (generated index)
    outcome :: outcomes spec partition generated (index + 1) met rest

/-- Slots with outcomes. -/
def fill (path : String) (outcomes : List (Except Error (Object × SectionMeta))) : Sections :=
  ⟨path, outcomes.zipIdx.map fun (outcome, index) =>
    some (outcome.map fun (object, info) => ⟨index, object, info⟩)⟩

/-- The sections of a policy file. -/
def policyFile (spec : Specification) (generated : Nat → String) (partition path : String)
    (data : Bytes) : Except Error Sections :=
  if spec.policyFileExtensions.any (FilePath.hasExtension path) then
    match Bytes.toText? data with
    | none => .error (.source .malformed)
    | some source =>
      .ok (fill path (outcomes spec partition generated 0 [] (Statements.split source.toList)))
  else .error (.frontend (.notPolicyFile path spec.frontendLanguage))

end Authoring

end PolicyLedger
