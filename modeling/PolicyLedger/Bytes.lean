/-
**Byte strings.**

Stored formats are written and read as lists of bytes, so that fields are joined with `++` and taken
apart with `take` and `drop`:

* `ofText` and `toText?` are UTF-8 in both directions (`toText?_ofText`: what was encoded is read
  back);
* `littleEndian16` and `littleEndian32` are the two integer layouts, `read16` and `read32` their
  readers, which need only the first bytes; each undoes the other (`read32_littleEndian32`,
  `littleEndian32_read32`);
* `hex` writes two lowercase digits a byte, and `ofHex?` reads them (`ofHex?_hex`).
-/

import PolicyLedger.Text.Digit

namespace PolicyLedger

/-- A string of bytes, as it is stored or sent. -/
abbrev Bytes := List UInt8

namespace Bytes

/-! ### Text -/

/-- The UTF-8 bytes of a text. -/
def ofText (text : String) : Bytes := text.toUTF8.data.toList

/-- The text whose UTF-8 bytes these are; ill-formed sequences have none. -/
def toText? (bytes : Bytes) : Option String := String.fromUTF8? ⟨bytes.toArray⟩

/-- Encoding loses nothing. -/
theorem toText?_ofText (text : String) : toText? (ofText text) = some text := by
  have valid : text.toByteArray.IsValidUTF8 := text.isValidUTF8
  simp [toText?, ofText, String.fromUTF8?, String.fromUTF8, String.toUTF8, valid]

/-- Bytes are the encoding of the text that they are read as. -/
theorem ofText_of_toText? {bytes : Bytes} {text : String} (read : toText? bytes = some text) :
    ofText text = bytes := by
  rw [toText?, String.fromUTF8?] at read
  split at read
  · obtain rfl := Option.some.inj read
    simp [ofText, String.toUTF8, String.fromUTF8]
  · cases read

/-! ### Integers -/

/-- The low byte of a number. -/
def lowByte (value : Nat) : UInt8 := UInt8.ofNat value

/-- Two bytes, the low one first. Larger values keep their two low bytes only. -/
def littleEndian16 (value : Nat) : Bytes := [lowByte value, lowByte (value / 256)]

/-- Four bytes, the low one first. -/
def littleEndian32 (value : Nat) : Bytes :=
  [lowByte value, lowByte (value / 256), lowByte (value / 65536), lowByte (value / 16777216)]

/-- The number in the first two bytes; missing bytes count as zero. -/
def read16 (bytes : Bytes) : Nat :=
  (bytes[0]?.getD 0).toNat + 256 * (bytes[1]?.getD 0).toNat

/-- The number in the first four bytes; missing bytes count as zero. -/
def read32 (bytes : Bytes) : Nat :=
  (bytes[0]?.getD 0).toNat + 256 * (bytes[1]?.getD 0).toNat + 65536 * (bytes[2]?.getD 0).toNat +
    16777216 * (bytes[3]?.getD 0).toNat

@[simp] theorem length_littleEndian16 (value : Nat) : (littleEndian16 value).length = 2 := rfl

@[simp] theorem length_littleEndian32 (value : Nat) : (littleEndian32 value).length = 4 := rfl

/-- Two bytes hold a value modulo `2^16`. -/
theorem read16_littleEndian16 (value : Nat) (rest : Bytes) :
    read16 (littleEndian16 value ++ rest) = value % 65536 := by
  simp [read16, littleEndian16, lowByte]
  omega

/-- Four bytes hold a value modulo `2^32`. -/
theorem read32_littleEndian32 (value : Nat) (rest : Bytes) :
    read32 (littleEndian32 value ++ rest) = value % 4294967296 := by
  simp [read32, littleEndian32, lowByte]
  omega

/-- The two bytes a number was read from are its bytes. -/
theorem littleEndian16_read16 {bytes : Bytes} (enough : 2 ≤ bytes.length) :
    littleEndian16 (read16 bytes) = bytes.take 2 := by
  match bytes, enough with
  | a :: b :: rest, _ =>
    have ha := a.toNat_lt
    have hb := b.toNat_lt
    simp only [littleEndian16, read16, lowByte, List.getElem?_cons_zero, List.getElem?_cons_succ,
      Option.getD_some, List.take_succ_cons, List.take_zero, List.cons.injEq, and_true,
      ← UInt8.toNat_inj, UInt8.toNat_ofNat']
    omega

/-- The four bytes a number was read from are its bytes. -/
theorem littleEndian32_read32 {bytes : Bytes} (enough : 4 ≤ bytes.length) :
    littleEndian32 (read32 bytes) = bytes.take 4 := by
  match bytes, enough with
  | a :: b :: c :: d :: rest, _ =>
    have ha := a.toNat_lt
    have hb := b.toNat_lt
    have hc := c.toNat_lt
    have hd := d.toNat_lt
    simp only [littleEndian32, read32, lowByte, List.getElem?_cons_zero, List.getElem?_cons_succ,
      Option.getD_some, List.take_succ_cons, List.take_zero, List.cons.injEq, and_true,
      ← UInt8.toNat_inj, UInt8.toNat_ofNat']
    omega

/-! ### Hexadecimal -/

/-- Two digits a byte, the high one first. -/
def hexDigits (bytes : Bytes) : List Char :=
  bytes.flatMap fun byte => [Text.hexDigit (byte.toNat / 16), Text.hexDigit (byte.toNat % 16)]

/-- Lowercase hexadecimal text. -/
def hex (bytes : Bytes) : String := String.ofList (hexDigits bytes)

/-- The bytes that pairs of hexadecimal digits stand for. -/
def ofHexDigits? : List Char → Option Bytes
  | [] => some []
  | high :: low :: rest => do
    let high ← Text.hexValue? high
    let low ← Text.hexValue? low
    let rest ← ofHexDigits? rest
    return UInt8.ofNat (16 * high + low) :: rest
  | [_] => none

/-- The bytes with a hexadecimal text. -/
def ofHex? (text : String) : Option Bytes := ofHexDigits? text.toList

/-- Bytes are read back from their hexadecimal text. -/
theorem ofHex?_hex (bytes : Bytes) : ofHex? (hex bytes) = some bytes := by
  simp only [ofHex?, hex, String.toList_ofList]
  induction bytes with
  | nil => rfl
  | cons byte rest ih =>
    have high : byte.toNat / 16 < 16 := by have := byte.toNat_lt; omega
    have low : byte.toNat % 16 < 16 := Nat.mod_lt _ (by decide)
    have whole : UInt8.ofNat (16 * (byte.toNat / 16) + byte.toNat % 16) = byte := by
      rw [Nat.div_add_mod, UInt8.ofNat_toNat]
    simp only [hexDigits, List.flatMap_cons, List.cons_append, List.nil_append] at ih ⊢
    simpa [ofHexDigits?, Text.hexValue?_hexDigit high, Text.hexValue?_hexDigit low, ih] using whole

end Bytes

end PolicyLedger
