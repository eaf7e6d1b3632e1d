/-
**Blobs.**

The payload of a blob is a header followed by its data.
-/

import PolicyLedger.Object
import PolicyLedger.Object.Header

namespace PolicyLedger

/-- A header with the data it describes. -/
structure Blob where
  header : Header
  data : Bytes
  deriving DecidableEq

namespace Blob

/-- The object that stores a blob. There must be data, and the header must be valid. -/
def toObject (blob : Blob) : Except Error Object := do
  if blob.data.isEmpty then throw (.encoding .emptyBlob)
  blob.header.validate
  Object.frame .blob (blob.header.encode ++ blob.data)

/-- The blob in a payload. -/
def decode (payload : Bytes) : Except Error Blob := do
  let (header, consumed) ← Header.decode payload
  return ⟨header, payload.drop consumed⟩

/-- The blob that an object stores. -/
def ofObject (object : Object) : Except Error Blob :=
  if object.kind = .blob then decode object.payload
  else .error (.wrongKind .blob object.kind)

/-- The code in a blob whose language is native, with its type. -/
def nativeContent (blob : Blob) : Except Error (CodeType × Bytes) :=
  if blob.header.native then
    match blob.header.codeType? with
    | some codeType => .ok (codeType, blob.data)
    | none => .error (.object (.unknownCodeType blob.header.codeTypeId.toNat))
  else .error (.frontend .notNative)

end Blob

end PolicyLedger
