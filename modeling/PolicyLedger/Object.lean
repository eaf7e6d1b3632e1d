/-
**Stored objects.**

An object is a payload of some kind. It is stored as a frame: four magic bytes, a format version,
the number of the kind, the length of the payload and the payload, integers with the low byte
first. The length field has four bytes, so the type bounds the payload.

* `read_content`: a frame is read back as the object it was written from;
* `content_of_read`: whatever is read is the frame of what was read, so each byte string is the
  frame of at most one object.
-/

import PolicyLedger.Object.Id

namespace PolicyLedger

/-- A payload with its kind. -/
structure Object where
  kind : ObjectKind
  payload : Bytes
  fits : payload.length < 4294967296
  deriving DecidableEq

namespace Object

/-- The bytes that every frame begins with. -/
def magic : Bytes := [0x5A, 0x54, 0x4F, 0x42]

/-- The version of the frame's layout. -/
def formatVersion : Nat := 1

/-- The number of bytes before the payload. -/
def frameLength : Nat := 11

/-- An object of a kind, unless the payload is too long for a frame. -/
def frame (kind : ObjectKind) (payload : Bytes) : Except Error Object :=
  if fits : payload.length < 4294967296 then .ok ⟨kind, payload, fits⟩
  else .error (.encoding (.payloadTooLarge payload.length))

/-- The stored bytes. -/
def content (object : Object) : Bytes :=
  magic ++ Bytes.littleEndian16 formatVersion ++ [object.kind.byte] ++
    Bytes.littleEndian32 object.payload.length ++ object.payload

/-- The name of an object. -/
def oid (object : Object) : ObjectId := .of object.content

/-- The object whose frame these bytes are. -/
def read (bytes : Bytes) : Except Error Object :=
  if bytes.length < frameLength then .error (.object .shortFrame)
  else if bytes.take 4 ≠ magic then .error (.object .badMagic)
  else
    let version := Bytes.read16 (bytes.drop 4)
    if version ≠ formatVersion then .error (.object (.formatVersion version))
    else
      let number := bytes[6]?.getD 0
      match ObjectKind.ofByte? number with
      | none => .error (.object (.unknownKind number.toNat))
      | some kind =>
        let declared := Bytes.read32 (bytes.drop 7)
        let payload := bytes.drop frameLength
        if payload.length = declared then frame kind payload
        else .error (.object (.payloadLength declared payload.length))

/-- A frame has eleven bytes and the payload. -/
@[simp] theorem length_content (object : Object) :
    object.content.length = frameLength + object.payload.length := by
  simp [content, magic, frameLength]; omega

/-! ### Reading and writing -/

open Bytes

/-- A frame is read back as the object it was written from. -/
theorem read_content (object : Object) : read object.content = .ok object := by
  have start : object.content.take 4 = magic := rfl
  have version : read16 (object.content.drop 4) = formatVersion := rfl
  have number : object.content[6]?.getD 0 = object.kind.byte := rfl
  have declared : read32 (object.content.drop 7) = object.payload.length := by
    have dropped : object.content.drop 7 =
        littleEndian32 object.payload.length ++ object.payload := rfl
    rw [dropped, read32_littleEndian32, Nat.mod_eq_of_lt object.fits]
  have payload : object.content.drop frameLength = object.payload := rfl
  simp [read, start, version, number, declared, payload, frame, object.fits]

/-- A byte string is made of the fields of a frame, if it is long enough. -/
theorem fields_append {bytes : Bytes} (enough : frameLength ≤ bytes.length) :
    bytes.take 4 ++ (bytes.drop 4).take 2 ++ [bytes[6]?.getD 0] ++ (bytes.drop 7).take 4 ++
      bytes.drop frameLength = bytes := by
  have inside : 6 < bytes.length := Nat.lt_of_lt_of_le (by decide) enough
  have number : [bytes[6]?.getD 0] ++ bytes.drop 7 = bytes.drop 6 := by
    rw [List.drop_eq_getElem_cons inside, List.getElem?_eq_getElem inside]
    rfl
  calc
    _ = bytes.take 4 ++ ((bytes.drop 4).take 2 ++ ([bytes[6]?.getD 0] ++
          ((bytes.drop 7).take 4 ++ (bytes.drop 7).drop 4))) := by
      simp [frameLength]
    _ = bytes.take 4 ++ ((bytes.drop 4).take 2 ++ (bytes.drop 4).drop 2) := by
      rw [List.take_append_drop, number, List.drop_drop]
    _ = bytes := by rw [List.take_append_drop, List.take_append_drop]

/-- Whatever is read is the frame of what was read. -/
theorem content_of_read {bytes : Bytes} {object : Object} (done : read bytes = .ok object) :
    object.content = bytes := by
  unfold read at done
  split at done
  next => cases done
  next enough =>
    split at done
    next => cases done
    next start =>
      simp only at done
      split at done
      next => cases done
      next version =>
        split at done
        next => cases done
        next kind found =>
          split at done
          next declared =>
            unfold frame at done
            split at done
            next =>
              cases done
              have long : frameLength ≤ bytes.length := Nat.le_of_not_lt enough
              have after4 : 2 ≤ (bytes.drop 4).length := by simp [frameLength] at long ⊢; omega
              have after7 : 4 ≤ (bytes.drop 7).length := by simp [frameLength] at long ⊢; omega
              rw [content, declared, littleEndian32_read32 after7,
                ← Decidable.not_not.1 version, littleEndian16_read16 after4,
                ← ObjectKind.byte_of_ofByte? found, ← Decidable.not_not.1 start]
              exact fields_append long
            next => cases done
          next => cases done

end Object

end PolicyLedger
