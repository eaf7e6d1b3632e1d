/-
**Headers at their limits.**

Which bytes hold a header is said by their length, by the length field in them and by whether the
code id is UTF-8 (`Header.exists_decode_iff`); what comes behind the code id does not matter
(`Header.IsAt.congr`). The length field holds 16 bits, so a code id of more bytes is cut when its
header is read back, or the header is refused if the cut is inside a character
(`Header.decode_encode_eq_ok_iff`).

`Header.codec_at_limits` puts both together: which bytes are read and written again, and what
becomes of a header whose code id is of any length.
-/

import PolicyLedger.Proofs.Object.BlobCodec

namespace PolicyLedger

/-! ### Cutting a text -/

namespace Bytes

theorem ofText_append (text more : String) :
    ofText (text ++ more) = ofText text ++ ofText more := by
  simp [ofText, String.toUTF8]

/-- A text begins with `front`, which takes `size` bytes. -/
def IsFront (front text : String) (size : Nat) : Prop :=
  (∃ back, text = front ++ back) ∧ (ofText front).length = size

/-- The first bytes of a text are UTF-8 just if they end between two characters. -/
theorem toText?_take_iff {text front : String} {size : Nat} (inside : size ≤ (ofText text).length) :
    toText? ((ofText text).take size) = some front ↔ IsFront front text size := by
  constructor
  · intro read
    have taken : ofText front = (ofText text).take size := ofText_of_toText? read
    have bytes : text.toByteArray.extract 0 size = front.toByteArray := by
      refine ByteArray.ext (Array.ext' ?_)
      rw [ofText, ofText, String.toUTF8, String.toUTF8] at taken
      simp [taken]
    have boundary : String.Pos.Raw.IsValid text ⟨size⟩ := by
      rw [String.Pos.Raw.isValid_iff_isValidUTF8_extract_zero, bytes]
      exact ⟨by simpa [String.Pos.Raw.le_iff, ofText] using inside, front.isValidUTF8⟩
    obtain ⟨first, back, rfl, ends⟩ := String.Pos.Raw.isValid_iff_exists_append.mp boundary
    have length : (ofText first).length = size := by
      simpa [ofText] using (congrArg String.Pos.Raw.byteIdx ends).symm
    rw [← length, ofText_append, List.take_left] at taken
    obtain rfl := ofText_injective taken
    exact ⟨⟨back, rfl⟩, length⟩
  · rintro ⟨⟨back, rfl⟩, rfl⟩
    rw [ofText_append, List.take_left, toText?_ofText]

/-- A text has one front of each size. -/
theorem IsFront.unique {text front other : String} {size : Nat} (isFront : IsFront front text size)
    (isOther : IsFront other text size) : front = other := by
  obtain ⟨⟨back, same⟩, length⟩ := isFront
  obtain ⟨⟨rest, sameOther⟩, lengthOther⟩ := isOther
  have bytes : ofText front ++ ofText back = ofText other ++ ofText rest := by
    rw [← ofText_append, ← ofText_append, ← same, ← sameOther]
  exact ofText_injective (List.append_inj_left bytes (length.trans lengthOther.symm))

/-- A text begins with itself alone in all its bytes. -/
theorem isFront_length_iff {front text : String} :
    IsFront front text (ofText text).length ↔ front = text := by
  rw [← toText?_take_iff (Nat.le_refl _), List.take_length, toText?_ofText, Option.some_inj,
    eq_comm]

/-- Only the first four bytes count. -/
theorem read32_take {count : Nat} (enough : 4 ≤ count) (bytes : Bytes) :
    read32 (bytes.take count) = read32 bytes := by
  rw [read32, read32, List.getElem?_take_of_lt (by omega), List.getElem?_take_of_lt (by omega),
    List.getElem?_take_of_lt (by omega), List.getElem?_take_of_lt (by omega)]

/-- Only the first two bytes count. -/
theorem read16_take {count : Nat} (enough : 2 ≤ count) (bytes : Bytes) :
    read16 (bytes.take count) = read16 bytes := by
  rw [read16, read16, List.getElem?_take_of_lt (by omega), List.getElem?_take_of_lt (by omega)]

end Bytes

namespace Header

open Bytes

variable {header : Header} {size : Nat} {bytes : Bytes}

/-! ### Bytes with a header -/

/-- The size of the code id that the length field in some bytes declares. -/
def declaredSize (bytes : Bytes) : Nat := read16 (bytes.drop 17)

/-- **Which bytes hold a header.** The fixed part is there, all declared bytes of the code id are
there, and they are those of a text. -/
theorem exists_decode_iff :
    (∃ read, decode bytes = .ok read) ↔
      fixedLength ≤ bytes.length ∧ fixedLength + declaredSize bytes ≤ bytes.length ∧
        ∃ text, ofText text = (bytes.drop fixedLength).take (declaredSize bytes) := by
  constructor
  · rintro ⟨⟨header, consumed⟩, read⟩
    obtain ⟨size, isAt, rfl⟩ := decode_eq_ok_iff.mp read
    have enough := isAt.enough
    have declared : declaredSize bytes = size := isAt.declared
    rw [declared]
    exact ⟨by omega, enough, header.codeId, ofText_of_toText? isAt.codeId⟩
  · rintro ⟨_, enough, text, codeId⟩
    have read : toText? ((bytes.drop fixedLength).take (declaredSize bytes)) = some text := by
      rw [← codeId, toText?_ofText]
    exact ⟨(⟨_, _, _, _, text, _⟩, _),
      decode_eq_ok_iff.mpr ⟨_, ⟨enough, rfl, rfl, rfl, rfl, rfl, rfl, read⟩, rfl⟩⟩

/-- What follows the code id of a header does not matter. -/
theorem IsAt.congr {others : Bytes} (isAt : header.IsAt size bytes)
    (enough : fixedLength + size ≤ others.length)
    (same : others.take (fixedLength + size) = bytes.take (fixedLength + size)) :
    header.IsAt size others := by
  have part : ∀ offset, (others.drop offset).take (fixedLength + size - offset) =
      (bytes.drop offset).take (fixedLength + size - offset) := fun offset => by
    rw [← List.drop_take, same, List.drop_take]
  have number : ∀ offset, offset + 4 ≤ fixedLength →
      read32 (others.drop offset) = read32 (bytes.drop offset) := fun offset early => by
    rw [← read32_take (by omega : 4 ≤ fixedLength + size - offset), part, read32_take (by omega)]
  have first : others[0]? = bytes[0]? := by
    rw [← List.getElem?_take_of_lt (by rw [fixedLength]; omega : 0 < fixedLength + size), same,
      List.getElem?_take_of_lt (by rw [fixedLength]; omega)]
  have declared : read16 (others.drop 17) = read16 (bytes.drop 17) := by
    rw [← read16_take (by rw [fixedLength]; omega : 2 ≤ fixedLength + size - 17), part,
      read16_take (by rw [fixedLength]; omega)]
  have codeId := part fixedLength
  rw [Nat.add_sub_cancel_left] at codeId
  exact
    { enough
      native := first ▸ isAt.native
      languageId := (number 1 (by decide)).symm ▸ isAt.languageId
      versionId := (number 5 (by decide)).symm ▸ isAt.versionId
      artifactTypeId := (number 9 (by decide)).symm ▸ isAt.artifactTypeId
      codeTypeId := (number 13 (by decide)).symm ▸ isAt.codeTypeId
      declared := declared.trans isAt.declared
      codeId := codeId.symm ▸ isAt.codeId }

theorem decode_take_append {consumed : Nat} (read : decode bytes = .ok (header, consumed))
    (rest : Bytes) : decode (bytes.take consumed ++ rest) = .ok (header, consumed) := by
  obtain ⟨size, isAt, rfl⟩ := decode_eq_ok_iff.mp read
  have length : (bytes.take (fixedLength + size)).length = fixedLength + size :=
    List.length_take_of_le isAt.enough
  refine decode_eq_ok_iff.mpr ⟨size, isAt.congr ?_ ?_, rfl⟩
  · rw [List.length_append]
    omega
  · exact List.take_left' length

/-- **Which bytes are written again.** The flags byte is the only one that may be read and not
kept. -/
theorem encode_eq_take_iff {consumed : Nat} (read : decode bytes = .ok (header, consumed)) :
    header.encode = bytes.take consumed ↔ HasFlags bytes := by
  obtain ⟨size, isAt, rfl⟩ := decode_eq_ok_iff.mp read
  constructor
  · intro same
    have flags := hasFlags_encode header (bytes.drop (fixedLength + size))
    rwa [same, List.take_append_drop] at flags
  · exact encode_of_isAt isAt

/-! ### Code ids of any length -/

/-- A header is read back as one with a front of its code id. -/
theorem decode_encode_eq_ok_iff {found : Header} {consumed : Nat} (rest : Bytes) :
    decode (header.encode ++ rest) = .ok (found, consumed) ↔
      IsFront found.codeId header.codeId header.writtenSize ∧
        found = { header with codeId := found.codeId } ∧
        consumed = fixedLength + header.writtenSize := by
  have cut := fun front => @toText?_take_iff header.codeId front header.writtenSize
    (Nat.mod_le _ _)
  rw [decode_encode_cut, ← cut]
  split
  next refused =>
    rw [refused]
    exact iff_of_false nofun nofun
  next codeId taken =>
    rw [taken, Option.some_inj, Except.ok.injEq, Prod.mk.injEq]
    constructor
    · rintro ⟨rfl, rfl⟩
      exact ⟨rfl, rfl, rfl⟩
    · rintro ⟨same, kept, rfl⟩
      exact ⟨by rw [kept, same], rfl⟩

/-- A header is read back as it was just if its code id fits its length field. -/
theorem eq_of_isFront_iff {found : Header}
    (front : IsFront found.codeId header.codeId header.writtenSize)
    (kept : found = { header with codeId := found.codeId }) :
    found = header ↔ (ofText header.codeId).length ≤ maxCodeIdLength := by
  rw [← writtenSize_eq_length_iff]
  constructor
  · rintro rfl
    exact front.2.symm
  · intro whole
    rw [whole, isFront_length_iff] at front
    rw [kept, front]

/-- **Headers at their limits.** Bytes hold a header just if the fixed part and all bytes of the
declared code id are there and these are UTF-8. Then just these bytes are consumed, whatever follows
them is ignored, and the header is written to the same bytes just if the flags byte is 0 or 1.

A header that was written, with a code id of any length, is read back just if the size of the code
id modulo `2^16` is a boundary between two of its characters. It is then the header with its code id
cut there, which is the same header just if the code id has no more than 65535 bytes. -/
theorem codec_at_limits :
    (∀ bytes : Bytes, (∃ read, decode bytes = .ok read) ↔
      fixedLength ≤ bytes.length ∧ fixedLength + declaredSize bytes ≤ bytes.length ∧
        ∃ text, ofText text = (bytes.drop fixedLength).take (declaredSize bytes)) ∧
    (∀ bytes header consumed, decode bytes = .ok (header, consumed) →
      consumed = fixedLength + declaredSize bytes ∧
      (∀ rest, decode (bytes.take consumed ++ rest) = .ok (header, consumed)) ∧
      (header.encode = bytes.take consumed ↔ HasFlags bytes)) ∧
    ∀ header : Header,
      ((∃ read, decode header.encode = .ok read) ↔
        ∃ front, IsFront front header.codeId ((ofText header.codeId).length % 65536)) ∧
      ∀ found consumed, decode header.encode = .ok (found, consumed) →
        IsFront found.codeId header.codeId ((ofText header.codeId).length % 65536) ∧
        found = { header with codeId := found.codeId } ∧
        (found = header ↔ (ofText header.codeId).length ≤ 65535) := by
  refine ⟨fun bytes => exists_decode_iff, fun bytes header consumed read => ?_, fun header => ?_⟩
  · refine ⟨?_, decode_take_append read, encode_eq_take_iff read⟩
    obtain ⟨size, isAt, rfl⟩ := decode_eq_ok_iff.mp read
    rw [declaredSize, isAt.declared]
  · have written := fun {found consumed} => @decode_encode_eq_ok_iff header found consumed []
    rw [List.append_nil] at written
    refine ⟨⟨?_, ?_⟩, fun found consumed read => ?_⟩
    · rintro ⟨⟨found, consumed⟩, read⟩
      exact ⟨found.codeId, (written.mp read).1⟩
    · rintro ⟨front, isFront⟩
      exact ⟨({ header with codeId := front }, _), written.mpr ⟨isFront, rfl, rfl⟩⟩
    · obtain ⟨front, kept, _⟩ := written.mp read
      exact ⟨front, kept, eq_of_isFront_iff front kept⟩

/-- The header of a policy. -/
def ofPolicy (codeId : String) : Header := ⟨true, 2, 0, 2, codeId, 2⟩

/-- A text of characters of two bytes. -/
def wide (count : Nat) : String := String.ofList (List.replicate count 'é')

theorem length_wide (count : Nat) : (ofText (wide count)).length = 2 * count := by
  rw [wide, ofText_ofList]
  induction count with
  | zero => rfl
  | succ count ih =>
    have first : (String.utf8EncodeChar 'é').length = 2 := by decide
    rw [List.replicate_succ, List.flatMap_cons, List.length_append, ih, first]
    omega

/-- No text has the first half of a character. -/
theorem not_isFront_wide (front : String) (count : Nat) :
    ¬ IsFront front (wide (count + 1) ++ "a") 1 := by
  have half : (ofText (wide (count + 1) ++ "a")).take 1 = [195] := by
    rw [ofText_append, wide, ofText_ofList]
    rfl
  have broken : toText? [195] = none := by decide
  rw [← toText?_take_iff (by rw [ofText_append, List.length_append, length_wide]; omega), half,
    broken]
  exact nofun

/-- With two bytes more than its length field can count, a code id is cut to its first character if
this has one byte, and refused if it has two. -/
theorem codec_of_wide :
    (∃ consumed, decode (ofPolicy ("a" ++ wide 32768)).encode = .ok (ofPolicy "a", consumed)) ∧
      ofPolicy "a" ≠ ofPolicy ("a" ++ wide 32768) ∧
      ¬ ∃ read, decode (ofPolicy (wide 32768 ++ "a")).encode = .ok read := by
  obtain ⟨-, -, written⟩ := codec_at_limits
  have single : (ofText "a").length = 1 := by decide
  have behind : (ofText ("a" ++ wide 32768)).length = 65537 := by
    rw [ofText_append, List.length_append, single, length_wide]
  have before : (ofText (wide 32768 ++ "a")).length = 65537 := by
    rw [ofText_append, List.length_append, single, length_wide]
  obtain ⟨reads, gives⟩ := written (ofPolicy ("a" ++ wide 32768))
  simp only [ofPolicy, behind] at reads gives
  have first : IsFront "a" ("a" ++ wide 32768) (65537 % 65536) := ⟨⟨wide 32768, rfl⟩, single⟩
  obtain ⟨⟨found, consumed⟩, read⟩ := reads.mpr ⟨"a", first⟩
  obtain ⟨front, kept, whole⟩ := gives found consumed read
  obtain rfl : found = ofPolicy "a" := by rw [kept, front.unique first, ofPolicy]
  refine ⟨⟨consumed, read⟩, fun same => ?_, fun refused => ?_⟩
  · exact absurd (whole.mp same) (by decide)
  · obtain ⟨front, isFront⟩ := (written (ofPolicy (wide 32768 ++ "a"))).1.mp refused
    simp only [ofPolicy, before] at isFront
    exact not_isFront_wide front 32767 isFront

end Header

end PolicyLedger
