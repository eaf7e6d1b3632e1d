/-
**Object ids.**

An object is named by the SHA-256 digest of its bytes, in 64 lowercase hexadecimal digits
(`parse_of`: every digest is such a name). The id of 64 zeros stands for "no object". Ids that come
in with a JSON text are taken as they are, so the type holds any text and `parse` is where names
are checked.
-/

import PolicyLedger.Digest.Sha256
import PolicyLedger.Error

namespace PolicyLedger

/-- The name of an object. -/
structure ObjectId where
  text : String
  deriving DecidableEq, Repr

namespace ObjectId

/-- The digits of an id. -/
def isDigit (c : Char) : Bool := ('0' ≤ c && c ≤ '9') || ('a' ≤ c && c ≤ 'f')

/-- Holds of the texts that can name an object. -/
def isName (text : String) : Bool := text.toList.length == 64 && text.toList.all isDigit

/-- The id with a text of 64 lowercase hexadecimal digits. -/
def parse (text : String) : Except Error ObjectId :=
  if isName text then .ok ⟨text⟩ else .error (.object (.notAnId text))

/-- The id of some bytes. -/
def of (bytes : Bytes) : ObjectId := ⟨Bytes.hex (Digest.Sha256.digest bytes)⟩

/-- The id that stands for no object. -/
def zero : ObjectId := ⟨"0000000000000000000000000000000000000000000000000000000000000000"⟩

/-- Holds of the id that stands for no object. -/
def isZero (id : ObjectId) : Bool := id = zero

/-- A hexadecimal digit is a digit of an id. -/
theorem isDigit_hexDigit {value : Nat} (small : value < 16) : isDigit (Text.hexDigit value) := by
  have all : ∀ n : Fin 16, isDigit (Text.hexDigit n.1) = true := by decide
  exact all ⟨value, small⟩

/-- Hexadecimal text has digits of ids only. -/
theorem all_isDigit_hexDigits (bytes : Bytes) : (Bytes.hexDigits bytes).all isDigit = true := by
  simp only [Bytes.hexDigits, List.all_eq_true, List.mem_flatMap]
  rintro c ⟨byte, -, inPair⟩
  have bound : byte.toNat < 256 := byte.toNat_lt
  simp only [List.mem_cons, List.not_mem_nil, or_false] at inPair
  rcases inPair with rfl | rfl
  · exact isDigit_hexDigit (by omega)
  · exact isDigit_hexDigit (by omega)

/-- Hexadecimal text has two digits a byte. -/
theorem length_hexDigits (bytes : Bytes) : (Bytes.hexDigits bytes).length = 2 * bytes.length := by
  simp only [Bytes.hexDigits]
  induction bytes with
  | nil => rfl
  | cons byte rest ih =>
    simp only [List.flatMap_cons, List.length_append, ih, List.length_cons, List.length_nil]
    omega

/-- The digest of any bytes names an object. -/
theorem isName_of (bytes : Bytes) : isName (of bytes).text = true := by
  simp [isName, of, Bytes.hex, length_hexDigits, all_isDigit_hexDigits]

/-- Every digest is a well-formed id. -/
theorem parse_of (bytes : Bytes) : parse (of bytes).text = .ok (of bytes) := by
  simp [parse, isName_of]

/-- The text of an id that was read is the text it was read from, and it names an object. -/
theorem parse_eq_ok {text : String} {id : ObjectId} (read : parse text = .ok id) :
    id = ⟨text⟩ ∧ isName text = true := by
  unfold parse at read
  split at read
  next named => cases read; exact ⟨rfl, named⟩
  next => cases read

end ObjectId

end PolicyLedger
