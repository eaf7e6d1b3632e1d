/-
**Policy languages.**

A language has a form that authors write and a form that is stored, each with a number, and a
version. The specification says which these are and which files hold sources.
-/

import PolicyLedger.Object.Header

namespace PolicyLedger

/-- The names and numbers of a language. -/
structure Specification where
  language : String
  languageVersion : String
  languageVersionId : UInt32
  frontendLanguage : String
  frontendLanguageId : UInt32
  backendLanguage : String
  backendLanguageId : UInt32
  policyFileExtensions : List String
  schemaFileNames : List String
  deriving DecidableEq, Repr

namespace Specification

/-- The policy language. -/
def cedar : Specification :=
  { language := "cedar"
    languageVersion := "0.0"
    languageVersionId := 0
    frontendLanguage := "cedar"
    frontendLanguageId := 1
    backendLanguage := "cedar-json"
    backendLanguageId := 2
    policyFileExtensions := [".cedar"]
    schemaFileNames := ["schema.json"] }

/-- The key of a language's runtime in manifests. -/
def runtimeKey (spec : Specification) : String := s!"{spec.language}[{spec.languageVersion}+]"

end Specification

end PolicyLedger
