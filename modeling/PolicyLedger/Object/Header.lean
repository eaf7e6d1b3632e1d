/-
**Blob headers.**

A blob begins with a typed header: whether its language is native, the numbers of its language, the
type of artifact it is and of the code it holds, and its code id. In bytes these are a flags byte,
four integers, the length of the code id in two bytes and the code id in UTF-8; integers have the
low byte first. A header can be written and read whatever its fields hold; `validate` says which
headers may stand in front of a blob.

* `length_encode`: the fixed part has 19 bytes.
-/

import PolicyLedger.Error
import PolicyLedger.Bytes
import PolicyLedger.Text.Blank

namespace PolicyLedger

/-- What a stored artifact is. -/
inductive ArtifactType
  | schema
  | policy
  | commit
  | tree
  deriving DecidableEq, Repr

/-- What the code in a blob is. -/
inductive CodeType
  | schema
  | policy
  deriving DecidableEq, Repr

namespace ArtifactType

/-- The artifact type with a number. -/
def ofNumber? (value : UInt32) : Option ArtifactType :=
  if value = 1 then some schema
  else if value = 2 then some policy
  else if value = 3 then some commit
  else if value = 4 then some tree
  else none

/-- The word for an artifact type. -/
def word : ArtifactType → String
  | schema => "schema"
  | policy => "policy"
  | commit => "commit"
  | tree => "tree"

end ArtifactType

namespace CodeType

/-- The code type with a number. -/
def ofNumber? (value : UInt32) : Option CodeType :=
  if value = 1 then some schema
  else if value = 2 then some policy
  else none

/-- The number of a code type. -/
def number : CodeType → UInt32
  | schema => 1
  | policy => 2

/-- The word for a code type. -/
def word : CodeType → String
  | schema => "schema"
  | policy => "policy"

/-- The artifact type of a blob with code of a type. -/
def artifactType : CodeType → ArtifactType
  | schema => .schema
  | policy => .policy

/-- A code type is read back from its number. -/
@[simp] theorem ofNumber?_number (type : CodeType) : ofNumber? type.number = some type := by
  cases type <;> rfl

end CodeType

/-- The typed header of a blob. -/
structure Header where
  native : Bool
  languageId : UInt32
  languageVersionId : UInt32
  artifactTypeId : UInt32
  codeId : String
  codeTypeId : UInt32
  deriving DecidableEq, Repr

namespace Header

/-- The number of bytes before the code id. -/
def fixedLength : Nat := 19

/-- The longest code id, in bytes. -/
def maxCodeIdLength : Nat := 65535

/-- The artifact type, if its number is known. -/
def artifactType? (header : Header) : Option ArtifactType :=
  ArtifactType.ofNumber? header.artifactTypeId

/-- The code type, if its number is known. -/
def codeType? (header : Header) : Option CodeType := CodeType.ofNumber? header.codeTypeId

/-- Refuses a header that cannot stand in front of a blob: both types are known and agree, and the
code id is neither blank nor too long for its length field. -/
def validate (header : Header) : Except Error Unit :=
  match header.codeType? with
  | none => .error (.encoding (.unknownCodeType header.codeTypeId.toNat))
  | some codeType =>
    match header.artifactType? with
    | none => .error (.encoding (.unknownArtifactType header.artifactTypeId.toNat))
    | some artifact =>
      if codeType.artifactType ≠ artifact then
        .error (.encoding (.inconsistentTypes artifact.word codeType.word))
      else if Text.isBlankText header.codeId then .error (.encoding .blankCodeId)
      else if maxCodeIdLength < (Bytes.ofText header.codeId).length then
        .error (.encoding (.codeIdTooLong (Bytes.ofText header.codeId).length))
      else .ok ()

/-- The bytes of a header. A code id longer than its length field allows is written whole, with its
length modulo `2^16`. -/
def encode (header : Header) : Bytes :=
  let codeId := Bytes.ofText header.codeId
  [if header.native then 1 else 0] ++
    Bytes.littleEndian32 header.languageId.toNat ++
    Bytes.littleEndian32 header.languageVersionId.toNat ++
    Bytes.littleEndian32 header.artifactTypeId.toNat ++
    Bytes.littleEndian32 header.codeTypeId.toNat ++
    Bytes.littleEndian16 codeId.length ++ codeId

/-- The header at the beginning of some bytes, and the number of bytes it takes. -/
def decode (bytes : Bytes) : Except Error (Header × Nat) :=
  if bytes.length < fixedLength then .error (.object .shortHeader)
  else
    let number (offset : Nat) : UInt32 := UInt32.ofNat (Bytes.read32 (bytes.drop offset))
    let size := Bytes.read16 (bytes.drop 17)
    if bytes.length < fixedLength + size then .error (.object .codeIdBounds)
    else
      match Bytes.toText? ((bytes.drop fixedLength).take size) with
      | none => .error (.object .codeIdEncoding)
      | some codeId =>
        let header : Header :=
          { native := (bytes[0]?.getD 0) &&& 1 ≠ 0
            languageId := number 1
            languageVersionId := number 5
            artifactTypeId := number 9
            codeId := codeId
            codeTypeId := number 13 }
        .ok (header, fixedLength + size)

/-- The fixed part has 19 bytes. -/
theorem length_encode (header : Header) :
    header.encode.length = fixedLength + (Bytes.ofText header.codeId).length := by
  simp [encode, fixedLength]
  omega

end Header

end PolicyLedger
