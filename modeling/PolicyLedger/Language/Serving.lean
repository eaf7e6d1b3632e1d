/-
**Manifests that serve a language.**

A manifest serves a policy language if it declares the language's runtime and its root partition
uses it.

* `completeManifest` adds what is missing and leaves everything else as it is;
* `checkManifest` refuses a manifest that does not serve the language.
-/

import PolicyLedger.Language.Specification
import PolicyLedger.Manifest.Basic
import PolicyLedger.Tree

namespace PolicyLedger

/-- The version of the engine. -/
def engineVersion : Version := ⟨"0.1.0", by decide⟩

namespace Specification

/-- The runtime of a language. -/
def runtime (spec : Specification) : Runtime :=
  { engine := ⟨"ztauth-pdp", engineVersion, "ztauth"⟩
    language := ⟨spec.language, s!"{spec.languageVersion}+"⟩ }

/-- A manifest with a language's runtime and a root partition that uses it, where it had none. -/
def completeManifest (spec : Specification) (manifest : Manifest) : Except Error Manifest := do
  let manifest :=
    { manifest with
      runtimes := manifest.runtimes.insertNew spec.runtimeKey spec.runtime
      partitions := manifest.partitions.insertNew rootPartition ⟨spec.runtimeKey, false⟩ }
  manifest.validate
  return manifest

/-- Refuses a manifest that does not serve a language. -/
def checkManifest (spec : Specification) (manifest : Manifest) : Except Error Unit := do
  manifest.validate
  match manifest.runtimes.get? spec.runtimeKey with
  | none => throw (.manifest (.missingRuntime spec.runtimeKey))
  | some runtime =>
    if runtime.language.name ≠ spec.language then
      throw (.manifest (.foreignLanguage spec.runtimeKey runtime.language.name))
    else
      match manifest.partitions.get? rootPartition with
      | none => throw (.manifest .missingRoot)
      | some part =>
        if part.runtime = spec.runtimeKey then return ()
        else throw (.manifest (.rootRuntime part.runtime spec.runtimeKey))

end Specification

end PolicyLedger
