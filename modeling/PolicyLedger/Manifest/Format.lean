/-
**The JSON form of manifests.**

Each structure is an object with its fields in a fixed order; maps are objects with sorted keys. An
empty description is left out. When a manifest is read, a missing description is empty, missing maps
have no rows, and a partition has no schema unless it says so.
-/

import PolicyLedger.Json.Reader
import PolicyLedger.Json.Record
import PolicyLedger.Json.Writer
import PolicyLedger.Manifest.Basic

namespace PolicyLedger

namespace KeyMap

/-- The object with the rows of a map. -/
def toJson {α : Type} (map : KeyMap α) (write : α → Json) : Json :=
  .object (map.rows.map fun row => (row.1, write row.2))

/-- The map with the members of an object; of repeated members the last one counts. -/
def ofJson? {α : Type} (read? : Json → Option α) : Json → Option (KeyMap α)
  | .object members =>
    (members.mapM fun member => (read? member.2).map fun value => (member.1, value)).map ofRows
  | _ => none

end KeyMap

namespace Metadata

/-- The object for metadata. -/
def toJson (metadata : Metadata) : Json :=
  .object ([("kind", .text metadata.kind), ("name", .text metadata.name)] ++
    if metadata.description.isEmpty then [] else [("description", .text metadata.description)])

/-- The metadata in a structure. -/
def ofJson? (value : Json) : Option Metadata := do
  let record ← Json.Record.of? ["kind", "name", "description"] value
  let kind ← record.required "kind" Json.asText?
  let name ← record.required "name" Json.asText?
  let description ← record.defaulted "description" "" Json.asText?
  return ⟨kind, name, description⟩

end Metadata

namespace Engine

/-- The object for an engine. -/
def toJson (engine : Engine) : Json :=
  .object [("name", .text engine.name), ("version", .text engine.version.text),
    ("distribution", .text engine.distribution)]

/-- The engine in a structure. -/
def ofJson? (value : Json) : Option Engine := do
  let record ← Json.Record.of? ["name", "version", "distribution"] value
  let name ← record.required "name" Json.asText?
  let version ← record.required "version" fun text => text.asText?.bind Version.parse?
  let distribution ← record.required "distribution" Json.asText?
  return ⟨name, version, distribution⟩

end Engine

namespace RuntimeLanguage

/-- The object for a language. -/
def toJson (language : RuntimeLanguage) : Json :=
  .object [("name", .text language.name), ("version", .text language.version)]

/-- The language in a structure. -/
def ofJson? (value : Json) : Option RuntimeLanguage := do
  let record ← Json.Record.of? ["name", "version"] value
  let name ← record.required "name" Json.asText?
  let version ← record.required "version" Json.asText?
  return ⟨name, version⟩

end RuntimeLanguage

namespace Runtime

/-- The object for a runtime. -/
def toJson (runtime : Runtime) : Json :=
  .object [("engine", runtime.engine.toJson), ("language", runtime.language.toJson)]

/-- The runtime in a structure. -/
def ofJson? (value : Json) : Option Runtime := do
  let record ← Json.Record.of? ["engine", "language"] value
  let engine ← record.required "engine" Engine.ofJson?
  let language ← record.required "language" RuntimeLanguage.ofJson?
  return ⟨engine, language⟩

end Runtime

namespace Partition

/-- The object for a partition. -/
def toJson (part : Partition) : Json :=
  .object [("runtime", .text part.runtime), ("schema", .bool part.schema)]

/-- The partition in a structure. -/
def ofJson? (value : Json) : Option Partition := do
  let record ← Json.Record.of? ["runtime", "schema"] value
  let runtime ← record.required "runtime" Json.asText?
  let schema ← record.defaulted "schema" false Json.asBool?
  return ⟨runtime, schema⟩

end Partition

namespace Manifest

/-- The object for a manifest. -/
def toJson (manifest : Manifest) : Json :=
  .object [("metadata", manifest.metadata.toJson),
    ("runtimes", manifest.runtimes.toJson Runtime.toJson),
    ("partitions", manifest.partitions.toJson Partition.toJson)]

/-- The manifest in a structure. -/
def ofJson? (value : Json) : Option Manifest := do
  let record ← Json.Record.of? ["metadata", "runtimes", "partitions"] value
  let metadata ← record.required "metadata" Metadata.ofJson?
  let runtimes ← record.defaulted "runtimes" .empty (KeyMap.ofJson? Runtime.ofJson?)
  let partitions ← record.defaulted "partitions" .empty (KeyMap.ofJson? Partition.ofJson?)
  return ⟨metadata, runtimes, partitions⟩

/-- The text of a manifest, on indented lines or without space. -/
def encodeText (manifest : Manifest) (indented : Bool) : String :=
  if indented then manifest.toJson.pretty else manifest.toJson.compact

/-- The bytes of a manifest. -/
def encode (manifest : Manifest) (indented : Bool) : Bytes :=
  Bytes.ofText (manifest.encodeText indented)

/-- The valid manifest in some bytes. -/
def decode (bytes : Bytes) : Except Error Manifest :=
  if bytes.isEmpty then .error (.manifest .emptyData)
  else match (Json.ofBytes? bytes).bind ofJson? with
    | none => .error .malformedJson
    | some manifest => do
      manifest.validate
      return manifest

end Manifest

end PolicyLedger
