/-
**Schema files.**

A schema file is one section with the bytes of the file, which must be JSON. A file of blanks is
refused.
-/

import PolicyLedger.Authoring.PolicyFile
import PolicyLedger.Json.Reader

namespace PolicyLedger.Authoring

/-- The code id of the schema. -/
def schemaCodeId : String := "schema"

/-- The name of a schema file. -/
def schemaFileName : String := "schema.json"

/-- The blanks that a file may consist of without having contents: space, tab, line feed, form feed
and carriage return. -/
def isBlankByte (byte : UInt8) : Bool :=
  byte == 0x20 || byte == 0x09 || byte == 0x0A || byte == 0x0C || byte == 0x0D

/-- Refuses bytes without contents. -/
def requireContents (data : Bytes) : Except Error Unit :=
  if data.all isBlankByte then .error .emptySchema else .ok ()

/-- The object for a schema, and how it is listed. -/
def makeSchema (spec : Specification) (partition : String) (data : Bytes) :
    Except Error (Object × SectionMeta) :=
  if (Json.ofBytes? data).isSome then makeObject spec partition schemaCodeId .schema data
  else .error (.source .malformedSchema)

/-- The section of a schema file. -/
def schemaFile (spec : Specification) (partition path : String) (data : Bytes) :
    Except Error Sections :=
  if spec.schemaFileNames.any (FilePath.hasName path) then do
    requireContents data
    return fill path [makeSchema spec partition data]
  else .error (.frontend (.notSchemaFile path spec.frontendLanguage))

/-- The contents of a schema file, and its name. -/
def schemaContents (data : Bytes) : Except Error (Bytes × String) := do
  requireContents data
  return (data, schemaFileName)

end PolicyLedger.Authoring
