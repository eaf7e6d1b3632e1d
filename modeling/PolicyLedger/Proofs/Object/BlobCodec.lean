/-
**Blobs and their objects.**

A header is read from bytes just if its fields are at their places (`Header.decode_eq_ok_iff`). The
flags byte is the only one that is read and not kept: if it is 0 or 1, the bytes are those of the
header that was read (`Header.encode_of_isAt`). Therefore a blob is stored as an object just if it
may be stored, it is what the object is read as, and the flags byte of the object is 0 or 1
(`Blob.toObject_eq_ok_iff`).

`Blob.codec_exact` is the law in both directions, from blobs to objects and from bytes to blobs.
-/

import PolicyLedger.Proofs.Object.BlobRoundTrip
import PolicyLedger.Proofs.Object.Store

namespace PolicyLedger

/-! ### Headers -/

namespace Header

open Bytes

/-- The fields of a header are at their places in some bytes, its code id with a size. -/
structure IsAt (header : Header) (size : Nat) (bytes : Bytes) : Prop where
  enough : fixedLength + size ≤ bytes.length
  native : header.native = decide (bytes[0]?.getD 0 &&& 1 ≠ 0)
  languageId : header.languageId = UInt32.ofNat (read32 (bytes.drop 1))
  versionId : header.languageVersionId = UInt32.ofNat (read32 (bytes.drop 5))
  artifactTypeId : header.artifactTypeId = UInt32.ofNat (read32 (bytes.drop 9))
  codeTypeId : header.codeTypeId = UInt32.ofNat (read32 (bytes.drop 13))
  declared : read16 (bytes.drop 17) = size
  codeId : toText? ((bytes.drop fixedLength).take size) = some header.codeId

variable {header : Header} {size : Nat} {bytes : Bytes}

/-- **A header is read** just if its fields are at their places. -/
theorem decode_eq_ok_iff {consumed : Nat} :
    decode bytes = .ok (header, consumed) ↔
      ∃ size, header.IsAt size bytes ∧ consumed = fixedLength + size := by
  constructor
  · intro read
    unfold decode at read
    split at read
    next => cases read
    next =>
      simp only at read
      split at read
      next => cases read
      next enough =>
        split at read
        next => cases read
        next codeId text =>
          cases read
          exact ⟨_, ⟨Nat.le_of_not_lt enough, rfl, rfl, rfl, rfl, rfl, rfl, text⟩, rfl⟩
  · rintro ⟨size, isAt, rfl⟩
    have enough := isAt.enough
    rw [decode, if_neg (by omega)]
    simp only [isAt.declared, isAt.codeId]
    rw [if_neg (by omega), ← isAt.native, ← isAt.languageId, ← isAt.versionId,
      ← isAt.artifactTypeId, ← isAt.codeTypeId]

theorem read32_lt (bytes : Bytes) : read32 bytes < 4294967296 := by
  have a := (bytes[0]?.getD 0).toNat_lt
  have b := (bytes[1]?.getD 0).toNat_lt
  have c := (bytes[2]?.getD 0).toNat_lt
  have d := (bytes[3]?.getD 0).toNat_lt
  rw [read32]
  omega

/-- Four bytes are those of the number of 32 bits that is read from them. -/
theorem littleEndian32_ofNat {start : Nat} (enough : start + 4 ≤ bytes.length) :
    littleEndian32 (UInt32.ofNat (read32 (bytes.drop start))).toNat =
      (bytes.drop start).take 4 := by
  rw [UInt32.toNat_ofNat', Nat.mod_eq_of_lt (read32_lt _)]
  exact littleEndian32_read32 (by rw [List.length_drop]; omega)

/-- The first byte is one that headers are written with. -/
def HasFlags (bytes : Bytes) : Prop := bytes[0]? = some 0 ∨ bytes[0]? = some 1

theorem hasFlags_encode (header : Header) (rest : Bytes) : HasFlags (header.encode ++ rest) := by
  cases flag : header.native with
  | true => exact .inr (by simp [encode, flag])
  | false => exact .inl (by simp [encode, flag])

/-- The flags of a header are the first byte if headers are written with it. -/
theorem flags_eq (native : header.native = decide (bytes[0]?.getD 0 &&& 1 ≠ 0))
    (flags : HasFlags bytes) : [if header.native then 1 else 0] = bytes.take 1 := by
  obtain _ | ⟨first, rest⟩ := bytes
  · obtain flag | flag := flags <;> cases flag
  · obtain flag | flag := flags
    · obtain rfl := Option.some.inj flag
      simp [native]
    · obtain rfl := Option.some.inj flag
      simp [native]

theorem IsAt.length_codeId (isAt : header.IsAt size bytes) :
    (ofText header.codeId).length = size := by
  have enough := isAt.enough
  rw [ofText_of_toText? isAt.codeId, List.length_take, List.length_drop]
  omega

/-- **The bytes that a header is read from are its bytes** if headers are written with their first
byte. -/
theorem encode_of_isAt (isAt : header.IsAt size bytes) (flags : HasFlags bytes) :
    header.encode = bytes.take (fixedLength + size) := by
  have enough := isAt.enough
  rw [fixedLength] at enough
  have codeId := ofText_of_toText? isAt.codeId
  have length := isAt.length_codeId
  have sizeBytes : littleEndian16 size = (bytes.drop 17).take 2 := by
    rw [← isAt.declared]
    exact littleEndian16_read16 (by rw [List.length_drop]; omega)
  calc header.encode
      = bytes.take 1 ++ (bytes.drop 1).take 4 ++ (bytes.drop 5).take 4 ++ (bytes.drop 9).take 4 ++
          (bytes.drop 13).take 4 ++ (bytes.drop 17).take 2 ++
          (bytes.drop fixedLength).take size := by
        simp only [encode, length]
        rw [flags_eq isAt.native flags, isAt.languageId, isAt.versionId, isAt.artifactTypeId,
          isAt.codeTypeId, codeId, sizeBytes, littleEndian32_ofNat (by omega),
          littleEndian32_ofNat (by omega), littleEndian32_ofNat (by omega),
          littleEndian32_ofNat (by omega)]
    _ = bytes.take (fixedLength + size) := by
        rw [← List.take_add, ← List.take_add, ← List.take_add, ← List.take_add, ← List.take_add,
          fixedLength, ← List.take_add]

end Header

/-! ### Blobs -/

namespace Blob

variable {blob : Blob} {object : Object} {payload : Bytes}

/-- A blob that may be stored: there is data, and the header is valid. -/
structure IsStorable (blob : Blob) : Prop where
  filled : blob.data ≠ []
  valid : blob.header.validate = .ok ()

theorem decode_eq_ok_iff : decode payload = .ok blob ↔
    ∃ consumed, Header.decode payload = .ok (blob.header, consumed) ∧
      payload.drop consumed = blob.data := by
  constructor
  · intro read
    obtain ⟨⟨header, consumed⟩, first, same⟩ := Steps.bind_eq_ok.mp read
    obtain rfl := Except.ok.inj same
    exact ⟨consumed, first, rfl⟩
  · rintro ⟨consumed, first, data⟩
    refine Steps.bind_eq_ok.mpr ⟨_, first, ?_⟩
    show Except.ok (Blob.mk blob.header (payload.drop consumed)) = .ok blob
    rw [data]

theorem ofObject_eq_ok_iff :
    ofObject object = .ok blob ↔ object.kind = .blob ∧ decode object.payload = .ok blob := by
  rw [ofObject]
  by_cases kind : object.kind = .blob
  · rw [if_pos kind, and_iff_right kind]
  · rw [if_neg kind]
    exact iff_of_false nofun fun both => kind both.1

theorem ofObject_of_content (content : Content.ofObject object = .ok (.blob blob)) :
    ofObject object = .ok blob := by
  rw [Content.ofObject] at content
  split at content
  next kind =>
    obtain ⟨read, decoded, same⟩ := Steps.map_eq_ok.mp content
    obtain rfl := Content.blob.inj same
    exact ofObject_eq_ok_iff.mpr ⟨kind, decoded⟩
  · obtain ⟨_, _, impossible⟩ := Steps.map_eq_ok.mp content
    cases impossible
  · obtain ⟨_, _, impossible⟩ := Steps.map_eq_ok.mp content
    cases impossible

/-- A blob that is read from an object is short enough to be written to one. -/
theorem fits_of_ofObject (read : ofObject object = .ok blob) :
    blob.header.encode.length + blob.data.length < 4294967296 := by
  obtain ⟨-, decoded⟩ := ofObject_eq_ok_iff.mp read
  obtain ⟨consumed, header, data⟩ := decode_eq_ok_iff.mp decoded
  obtain ⟨size, isAt, rfl⟩ := Header.decode_eq_ok_iff.mp header
  have enough := isAt.enough
  have total : blob.header.encode.length + blob.data.length = object.payload.length := by
    rw [Header.length_encode, isAt.length_codeId, ← data, List.length_drop]
    omega
  rw [total]
  exact object.fits

/-- A blob is written as an object if it may be stored and the payload fits a frame. -/
theorem toObject_eq_ok_iff_payload : blob.toObject = .ok object ↔
    blob.IsStorable ∧ object.kind = .blob ∧ object.payload = blob.header.encode ++ blob.data := by
  rw [toObject]
  by_cases filled : blob.data = []
  · rw [filled]
    exact iff_of_false (by rintro ⟨⟩) fun both => both.1.filled filled
  · rw [if_neg (by simpa using filled)]
    refine Steps.bind_eq_ok.trans ⟨?_, ?_⟩
    · rintro ⟨_, valid, framed⟩
      exact ⟨⟨filled, valid⟩, Object.frame_eq_ok_iff.mp framed⟩
    · rintro ⟨storable, written⟩
      exact ⟨(), storable.valid, Object.frame_eq_ok_iff.mpr written⟩

/-- **The objects of blobs.** A blob is stored as an object just if it may be stored, the object is
read as it, and headers are written with the first byte of the payload. -/
theorem toObject_eq_ok_iff : blob.toObject = .ok object ↔
    blob.IsStorable ∧ ofObject object = .ok blob ∧ Header.HasFlags object.payload := by
  rw [toObject_eq_ok_iff_payload]
  refine and_congr_right fun storable => ?_
  rw [ofObject_eq_ok_iff, and_assoc]
  refine and_congr_right fun _ => ⟨fun written => ?_, fun ⟨read, flags⟩ => ?_⟩
  · rw [written]
    refine ⟨decode_eq_ok_iff.mpr ⟨_, ?_, List.drop_left⟩, Header.hasFlags_encode _ _⟩
    exact blob.header.decode_encode blob.data (Header.length_codeId_of_validate storable.valid)
  · obtain ⟨consumed, header, data⟩ := decode_eq_ok_iff.mp read
    obtain ⟨size, isAt, rfl⟩ := Header.decode_eq_ok_iff.mp header
    rw [Header.encode_of_isAt isAt flags, ← data, List.take_append_drop]

/-- The type of the code in a blob that may be stored is known. -/
theorem exists_codeType?_of_isStorable (storable : blob.IsStorable) :
    ∃ type, blob.header.codeType? = some type := by
  obtain ⟨⟨type, known, _⟩, _⟩ := Header.validate_eq_ok_iff.mp storable.valid
  exact ⟨type, known⟩

theorem nativeContent_of_codeType? {type : CodeType} (native : blob.header.native = true)
    (known : blob.header.codeType? = some type) : blob.nativeContent = .ok (type, blob.data) := by
  rw [nativeContent, if_pos native, known]

theorem nativeContent_of_foreign (foreign : blob.header.native = false) :
    blob.nativeContent = .error (.frontend .notNative) := by
  rw [nativeContent, foreign]
  rfl

/-- **Blobs and their objects correspond exactly.** A blob that fits a frame is stored just if there
is data and its header is valid. The object is read as the blob, and so is what it stores; the code
in it is given with its type if it is native, and refused if it is not. Of the objects that are read
from bytes, just those are the objects of a blob that may be stored which are read as the blob and
have the flags of a header, and they have these very bytes. -/
theorem codec_exact (blob : Blob) :
    (blob.header.encode.length + blob.data.length < 4294967296 →
      ((∃ object, blob.toObject = .ok object) ↔ blob.IsStorable)) ∧
    (∀ object, blob.toObject = .ok object →
      ofObject object = .ok blob ∧ Content.ofObject object = .ok (.blob blob) ∧
      (blob.header.native = true → ∃ type, blob.header.codeType? = some type ∧
        (ofObject object).bind nativeContent = .ok (type, blob.data)) ∧
      (blob.header.native = false →
        (ofObject object).bind nativeContent = .error (.frontend .notNative))) ∧
    ∀ bytes object, Object.read bytes = .ok object →
      (blob.toObject = .ok object ↔
        blob.IsStorable ∧ ofObject object = .ok blob ∧ Header.HasFlags object.payload) ∧
      object.content = bytes ∧ object.oid = .of bytes := by
  refine ⟨fun fits => ⟨?_, ?_⟩, fun object stored => ?_, fun bytes object read => ?_⟩
  · rintro ⟨object, stored⟩
    exact (toObject_eq_ok_iff.mp stored).1
  · intro storable
    exact exists_toObject storable.filled storable.valid fits
  · obtain ⟨storable, back, _⟩ := toObject_eq_ok_iff.mp stored
    refine ⟨back, content_of_toObject stored, fun native => ?_, fun foreign => ?_⟩
    · obtain ⟨type, known⟩ := exists_codeType?_of_isStorable storable
      refine ⟨type, known, ?_⟩
      rw [back]
      exact nativeContent_of_codeType? native known
    · rw [back]
      exact nativeContent_of_foreign foreign
  · have content := Object.content_of_read read
    exact ⟨toObject_eq_ok_iff, content, congrArg ObjectId.of content⟩

/-- A schema of a language that is not native, with a character of two bytes in its code id. -/
def foreignSchema : Blob := ⟨⟨false, 7, 4294967295, 1, "schéma", 1⟩, [0, 255]⟩

theorem codec_of_foreignSchema :
    foreignSchema.header.encode.length + foreignSchema.data.length < 4294967296 ∧
      foreignSchema.IsStorable ∧
      ∃ object, foreignSchema.toObject = .ok object ∧ ofObject object = .ok foreignSchema ∧
        (ofObject object).bind nativeContent = .error (.frontend .notNative) ∧
        Object.read object.content = .ok object ∧ Header.HasFlags object.payload ∧
        object.oid = .of object.content := by
  have fits : foreignSchema.header.encode.length + foreignSchema.data.length < 4294967296 := by
    decide +kernel
  have storable : foreignSchema.IsStorable := ⟨by decide, by decide +kernel⟩
  obtain ⟨stores, reads, converse⟩ := codec_exact foreignSchema
  obtain ⟨object, stored⟩ := (stores fits).mpr storable
  obtain ⟨back, _, _, refused⟩ := reads object stored
  have read := object.read_content
  obtain ⟨exact, _, oid⟩ := converse object.content object read
  exact ⟨fits, storable, object, stored, back, refused rfl, read, (exact.mp stored).2.2, oid⟩

end Blob

end PolicyLedger
