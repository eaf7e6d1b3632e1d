/-
**Manifests.**

A ledger has a manifest that names, for each of its partitions, the runtime its artifacts are
written for. A runtime is an engine with a version and a policy language; partitions refer to
runtimes by key.

* `validate`: the manifest has a name and every partition refers to a runtime that is declared.
-/

import PolicyLedger.Error
import PolicyLedger.KeyMap
import PolicyLedger.Manifest.Version

namespace PolicyLedger

/-- What a manifest is for. -/
structure Metadata where
  kind : String
  name : String
  description : String
  deriving DecidableEq

/-- Who evaluates policies. -/
structure Engine where
  name : String
  version : Version
  distribution : String
  deriving DecidableEq

/-- The policy language of a runtime, with the versions of its syntax that are required. -/
structure RuntimeLanguage where
  name : String
  version : String
  deriving DecidableEq

/-- An engine with a language. -/
structure Runtime where
  engine : Engine
  language : RuntimeLanguage
  deriving DecidableEq

/-- A part of a ledger, with the key of its runtime. -/
structure Partition where
  runtime : String
  schema : Bool
  deriving DecidableEq

/-- The runtimes and partitions of a ledger. -/
structure Manifest where
  metadata : Metadata
  runtimes : KeyMap Runtime
  partitions : KeyMap Partition

namespace Manifest

/-- Refuses a partition whose runtime is not declared. -/
def checkPartition (runtimes : KeyMap Runtime) (row : String × Partition) : Except Error Unit :=
  if runtimes.contains row.2.runtime then .ok ()
  else .error (.manifest (.unknownRuntime row.1 row.2.runtime))

/-- Refuses a manifest whose name has only spaces or whose partitions miss a runtime. -/
def validate (manifest : Manifest) : Except Error Unit :=
  if manifest.metadata.name.toList.all (· == ' ') then .error (.manifest .emptyName)
  else manifest.partitions.rows.forM (checkPartition manifest.runtimes)

/-- A manifest without runtimes and partitions. -/
def make (kind name description : String) : Except Error Manifest := do
  let manifest : Manifest := ⟨⟨kind, name, description⟩, .empty, .empty⟩
  manifest.validate
  return manifest

end Manifest

end PolicyLedger
