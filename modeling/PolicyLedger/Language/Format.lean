/-
**The JSON form of a language's specification.**
-/

import PolicyLedger.Language.Specification
import PolicyLedger.Object.Format

namespace PolicyLedger

/-- The object for a specification. -/
def Specification.toJson (spec : Specification) : Json :=
  .object [("language", .text spec.language), ("language_version", .text spec.languageVersion),
    ("language_version_id", .ofUInt32 spec.languageVersionId),
    ("frontend_language", .text spec.frontendLanguage),
    ("frontend_language_id", .ofUInt32 spec.frontendLanguageId),
    ("backend_language", .text spec.backendLanguage),
    ("backend_language_id", .ofUInt32 spec.backendLanguageId),
    ("supported_policy_file_extensions", .list (spec.policyFileExtensions.map .text)),
    ("supported_schema_file_names", .list (spec.schemaFileNames.map .text))]

end PolicyLedger
