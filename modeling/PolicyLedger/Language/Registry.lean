/-
**Registered languages.**

A decision point looks a language up by its name, loading policies by the numbers in their headers.
The languages of a registry have distinct names.
-/

import PolicyLedger.Error
import PolicyLedger.KeyMap
import PolicyLedger.Language.Specification

namespace PolicyLedger

/-- Languages under their names. -/
structure Registry where
  languages : KeyMap Specification

namespace Registry

/-- The registry without languages. -/
def empty : Registry := ⟨.empty⟩

/-- A registry with one more language, whose name must be new. -/
def register (registry : Registry) (spec : Specification) : Except Error Registry :=
  if registry.languages.contains spec.language then
    .error (.request (.registeredTwice spec.language))
  else .ok ⟨registry.languages.insert spec.language spec⟩

/-- The registry of the languages that come with the ledger. -/
def standard : Registry := ⟨KeyMap.empty.insert Specification.cedar.language .cedar⟩

/-- The language with a name. -/
def get (registry : Registry) (name : String) : Except Error Specification :=
  match registry.languages.get? name with
  | some spec => .ok spec
  | none => .error (.unknownLanguage (.name name))

/-- The languages in the order of their names. -/
def toList (registry : Registry) : List Specification := registry.languages.rows.map Prod.snd

/-- The language whose stored form has a number and a version. -/
def findBackend? (registry : Registry) (languageId versionId : UInt32) : Option Specification :=
  registry.toList.find? fun spec =>
    spec.backendLanguageId = languageId && spec.languageVersionId = versionId

/-- Holds of the numbers of registered languages. -/
def knows (registry : Registry) (languageId versionId : UInt32) : Bool :=
  (registry.findBackend? languageId versionId).isSome

/-- One line about a registry, for logs. -/
def summary (registry : Registry) : String :=
  let names := registry.toList.map fun spec => "\"" ++ spec.language ++ "\""
  "LanguageRegistry \x7b languages: [" ++ ", ".intercalate names ++ "] \x7d"

end Registry

end PolicyLedger
