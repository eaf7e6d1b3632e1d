/-
**Blobs that were stored.**

A header is read back from the bytes it was written to, whatever follows them, if its code id fits
its length field (`Header.decode_encode`); a longer one is cut (`Header.decode_encode_cut`). Storing
a blob checks the header (`Header.validate_eq_ok_iff`) and with it the length, so a stored blob is
always read back as it was (`Blob.content_of_toObject`). A valid blob that is not too long for a
frame can be stored (`Blob.exists_toObject`).
-/

import PolicyLedger.Object.Content
import PolicyLedger.Proofs.Steps

namespace PolicyLedger

/-- Texts with the same bytes are equal. -/
theorem Bytes.ofText_injective {text other : String} (same : ofText text = ofText other) :
    text = other := by
  have read := toText?_ofText text
  rw [same, toText?_ofText] at read
  exact (Option.some.inj read).symm

theorem Bytes.eq_empty_of_ofText {text : String} (empty : ofText text = []) : text = "" :=
  ofText_injective empty

/-- A text is encoded character by character. -/
theorem Bytes.ofText_ofList (cs : List Char) :
    ofText (String.ofList cs) = cs.flatMap String.utf8EncodeChar := by
  simp [ofText, String.toUTF8, String.toByteArray_ofList, List.utf8Encode]

/-- A character takes four bytes at most. -/
theorem Bytes.length_ofText_le (text : String) : (ofText text).length ≤ 4 * text.toList.length := by
  rw [← String.ofList_toList (s := text), ofText_ofList, String.toList_ofList, List.length_flatMap]
  generalize text.toList = chars
  induction chars with
  | nil => exact Nat.le_refl _
  | cons c rest ih =>
    have size := c.utf8Size_le_four
    rw [List.map_cons, List.sum_cons, List.length_cons, String.length_utf8EncodeChar]
    omega

namespace Header

/-- Both types of a header are known and agree. -/
def HasTypes (header : Header) : Prop :=
  ∃ type, header.codeType? = some type ∧ header.artifactType? = some type.artifactType

/-- The headers that may stand in front of a blob. -/
theorem validate_eq_ok_iff {header : Header} :
    header.validate = .ok () ↔ header.HasTypes ∧ Text.isBlankText header.codeId = false ∧
      (Bytes.ofText header.codeId).length ≤ maxCodeIdLength := by
  rw [validate, HasTypes]
  cases header.codeType? with
  | none => simp
  | some type =>
    cases header.artifactType? with
    | none => simp
    | some artifact =>
      by_cases agree : type.artifactType = artifact
      · cases blank : Text.isBlankText header.codeId with
        | true => simp [agree]
        | false =>
          by_cases long : maxCodeIdLength < (Bytes.ofText header.codeId).length
          · simp [agree, long]
          · simp [agree, Nat.le_of_not_lt long]
      · simp [agree, Ne.symm agree]

/-- A valid header has a code id that fits its length field. -/
theorem length_codeId_of_validate {header : Header} (valid : header.validate = .ok ()) :
    (Bytes.ofText header.codeId).length ≤ maxCodeIdLength :=
  (validate_eq_ok_iff.mp valid).2.2

/-- A number of 32 bits is read back from its four bytes. -/
theorem ofNat_read32 (value : UInt32) (rest : Bytes) :
    UInt32.ofNat (Bytes.read32 (Bytes.littleEndian32 value.toNat ++ rest)) = value := by
  rw [Bytes.read32_littleEndian32, Nat.mod_eq_of_lt value.toNat_lt, UInt32.ofNat_toNat]

/-- The size that the length field of a header holds for its code id. -/
def writtenSize (header : Header) : Nat := (Bytes.ofText header.codeId).length % 65536

/-- **What a header is read back as.** Its code id ends where the length field says, which must not
be inside a character. -/
theorem decode_encode_cut (header : Header) (rest : Bytes) :
    decode (header.encode ++ rest) =
      match Bytes.toText? ((Bytes.ofText header.codeId).take header.writtenSize) with
      | none => .error (.object .codeIdEncoding)
      | some codeId => .ok ({ header with codeId }, fixedLength + header.writtenSize) := by
  generalize coded : Bytes.ofText header.codeId = codeId
  generalize bytesEq : header.encode ++ rest = bytes
  have total : bytes.length = fixedLength + codeId.length + rest.length := by
    rw [← bytesEq, List.length_append, length_encode, coded]
  have sizeEq : header.writtenSize = codeId.length % 65536 := by rw [writtenSize, coded]
  have inside : header.writtenSize ≤ codeId.length := sizeEq ▸ Nat.mod_le _ _
  have size : Bytes.read16 (bytes.drop 17) = header.writtenSize := by
    have dropped : bytes.drop 17 = Bytes.littleEndian16 codeId.length ++ (codeId ++ rest) := by
      rw [← bytesEq, ← coded]
      rfl
    rw [dropped, Bytes.read16_littleEndian16, sizeEq]
  have text : (bytes.drop fixedLength).take header.writtenSize =
      codeId.take header.writtenSize := by
    have dropped : bytes.drop fixedLength = codeId ++ rest := by
      rw [← bytesEq, ← coded]
      rfl
    rw [dropped, List.take_append_of_le_length inside]
  have flag : decide (bytes[0]?.getD 0 &&& 1 ≠ 0) = header.native := by
    have first : bytes[0]?.getD 0 = if header.native then 1 else 0 := by
      rw [← bytesEq]
      rfl
    rw [first]
    cases header.native <;> rfl
  have languageId : UInt32.ofNat (Bytes.read32 (bytes.drop 1)) = header.languageId := by
    rw [← bytesEq]
    exact ofNat_read32 _ _
  have versionId : UInt32.ofNat (Bytes.read32 (bytes.drop 5)) = header.languageVersionId := by
    rw [← bytesEq]
    exact ofNat_read32 _ _
  have artifactTypeId : UInt32.ofNat (Bytes.read32 (bytes.drop 9)) = header.artifactTypeId := by
    rw [← bytesEq]
    exact ofNat_read32 _ _
  have codeTypeId : UInt32.ofNat (Bytes.read32 (bytes.drop 13)) = header.codeTypeId := by
    rw [← bytesEq]
    exact ofNat_read32 _ _
  rw [decode, if_neg (by omega)]
  simp only [size, text, flag, languageId, versionId, artifactTypeId, codeTypeId]
  exact if_neg (by omega)

/-- The length field holds the size of a code id that fits it. -/
theorem writtenSize_eq_length_iff {header : Header} :
    header.writtenSize = (Bytes.ofText header.codeId).length ↔
      (Bytes.ofText header.codeId).length ≤ maxCodeIdLength := by
  rw [writtenSize, maxCodeIdLength]
  omega

/-- A header is read back from the bytes it was written to. -/
theorem decode_encode (header : Header) (rest : Bytes)
    (fits : (Bytes.ofText header.codeId).length ≤ maxCodeIdLength) :
    decode (header.encode ++ rest) = .ok (header, header.encode.length) := by
  rw [decode_encode_cut, writtenSize_eq_length_iff.mpr fits, List.take_length,
    Bytes.toText?_ofText, length_encode]

end Header

namespace Blob

/-- A blob is stored with a valid header. -/
theorem framed_of_toObject {blob : Blob} {object : Object} (stored : blob.toObject = .ok object) :
    blob.header.validate = .ok () ∧
      Object.frame .blob (blob.header.encode ++ blob.data) = .ok object := by
  unfold toObject at stored
  split at stored
  · cases stored
  · obtain ⟨_, valid, framed⟩ := Steps.bind_eq_ok.mp stored
    exact ⟨valid, framed⟩

/-- A stored blob is read back as it was. -/
theorem content_of_toObject {blob : Blob} {object : Object} (stored : blob.toObject = .ok object) :
    Content.ofObject object = .ok (.blob blob) := by
  obtain ⟨valid, framed⟩ := framed_of_toObject stored
  rw [Object.frame] at framed
  split at framed
  · cases framed
    have read := blob.header.decode_encode blob.data (Header.length_codeId_of_validate valid)
    show Content.blob <$> decode (blob.header.encode ++ blob.data) = _
    rw [decode, read]
    show Except.ok (Content.blob ⟨blob.header, _⟩) = _
    rw [List.drop_left]
  · cases framed

/-- A blob with a valid header and data that fit a frame is stored. -/
theorem exists_toObject {blob : Blob} (filled : blob.data ≠ [])
    (valid : blob.header.validate = .ok ())
    (fits : blob.header.encode.length + blob.data.length < 4294967296) :
    ∃ object, blob.toObject = .ok object := by
  refine ⟨⟨.blob, blob.header.encode ++ blob.data, by rwa [List.length_append]⟩, ?_⟩
  rw [toObject, if_neg (by simpa using filled), valid]
  show Object.frame _ _ = _
  rw [Object.frame, dif_pos (by rwa [List.length_append])]

end Blob

end PolicyLedger
