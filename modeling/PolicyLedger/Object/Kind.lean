/-
**Kinds of objects.**

A ledger stores three kinds of objects: blobs hold one artifact, trees name blobs, commits name a
tree and the commit before it. Each kind has a number in the frame and a word in tree entries.

* `ofByte?_byte` and `ofWord?_word`: numbers and words are read back.
-/

namespace PolicyLedger

/-- The three kinds of stored objects. -/
inductive ObjectKind
  | blob
  | tree
  | commit
  deriving DecidableEq, Repr

namespace ObjectKind

/-- The number of a kind in a frame. -/
def byte : ObjectKind → UInt8
  | blob => 1
  | tree => 2
  | commit => 3

/-- The kind with a number. -/
def ofByte? (value : UInt8) : Option ObjectKind :=
  if value = 1 then some blob
  else if value = 2 then some tree
  else if value = 3 then some commit
  else none

/-- The word for a kind. -/
def word : ObjectKind → String
  | blob => "blob"
  | tree => "tree"
  | commit => "commit"

/-- The kind with a word. -/
def ofWord? (value : String) : Option ObjectKind :=
  if value = "blob" then some blob
  else if value = "tree" then some tree
  else if value = "commit" then some commit
  else none

/-- A kind is read back from its number. -/
@[simp] theorem ofByte?_byte (kind : ObjectKind) : ofByte? kind.byte = some kind := by
  cases kind <;> rfl

/-- Only the number of a kind is read as that kind. -/
theorem byte_of_ofByte? {value : UInt8} {kind : ObjectKind} (read : ofByte? value = some kind) :
    value = kind.byte := by
  unfold ofByte? at read
  split at read
  · next equal => rw [equal]; cases read; rfl
  · split at read
    · next equal => rw [equal]; cases read; rfl
    · split at read
      · next equal => rw [equal]; cases read; rfl
      · cases read

/-- A kind is read back from its word. -/
@[simp] theorem ofWord?_word (kind : ObjectKind) : ofWord? kind.word = some kind := by
  cases kind <;> rfl

/-- Only the word for a kind is read as that kind. -/
theorem word_of_ofWord? {value : String} {kind : ObjectKind} (read : ofWord? value = some kind) :
    value = kind.word := by
  unfold ofWord? at read
  split at read
  · next equal => rw [equal]; cases read; rfl
  · split at read
    · next equal => rw [equal]; cases read; rfl
    · split at read
      · next equal => rw [equal]; cases read; rfl
      · cases read

end ObjectKind

end PolicyLedger
