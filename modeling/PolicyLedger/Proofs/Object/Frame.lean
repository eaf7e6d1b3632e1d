/-
**Frames and what is in them.**

`Object.IsFrame` is the grammar of frames, byte by byte. Just the frames are read as objects, each
as the object of its kind and payload (`Object.read_eq_ok_iff`), so bytes are the frame of at most
one payload.

An object has one kind, and there is a decoder for each kind (`Content.readAs`). The decoder of the
object's kind gives what the object stores, or fails because of the payload (`failsOnPayload_*`);
every other decoder answers that the object is of another kind (`Content.readAs_eq_wrongKind_iff`).
`Object.read_exact` puts both together.
-/

import PolicyLedger.Object.Content
import PolicyLedger.Proofs.Object.Store

namespace PolicyLedger

/-! ### The grammar -/

namespace Object

variable {bytes payload : Bytes} {kind : ObjectKind} {object : Object}

/-- Bytes are the frame of a payload of some kind: four magic bytes, the version 1 in two bytes, the
number of the kind, the length of the payload in four bytes, and the payload. -/
structure IsFrame (bytes : Bytes) (kind : ObjectKind) (payload : Bytes) : Prop where
  fits : payload.length < 4294967296
  layout : ∃ size : Bytes, size.length = 4 ∧ Bytes.read32 size = payload.length ∧
    bytes = [0x5A, 0x54, 0x4F, 0x42, 1, 0, kind.byte] ++ size ++ payload

/-- The content of an object is the frame of its payload, and of no other. -/
theorem isFrame_iff_content :
    IsFrame bytes kind payload ↔ ∃ object : Object,
      object.kind = kind ∧ object.payload = payload ∧ object.content = bytes := by
  constructor
  · rintro ⟨fits, size, four, value, rfl⟩
    refine ⟨⟨kind, payload, fits⟩, rfl, rfl, ?_⟩
    have written : Bytes.littleEndian32 payload.length = size := by
      rw [← value, Bytes.littleEndian32_read32 (Nat.le_of_eq four.symm), ← four, List.take_length]
    rw [content, written]
    rfl
  · rintro ⟨object, rfl, rfl, rfl⟩
    refine ⟨object.fits, Bytes.littleEndian32 object.payload.length, rfl, ?_, rfl⟩
    have value := Bytes.read32_littleEndian32 object.payload.length []
    rwa [List.append_nil, Nat.mod_eq_of_lt object.fits] at value

/-- **Just the frames are read**, each as the object of its kind and payload. -/
theorem read_eq_ok_iff :
    read bytes = .ok object ↔ IsFrame bytes object.kind object.payload := by
  rw [isFrame_iff_content]
  constructor
  · intro done
    exact ⟨object, rfl, rfl, content_of_read done⟩
  · rintro ⟨⟨kind, payload, fits⟩, rfl, rfl, rfl⟩
    exact object.read_content

theorem IsFrame.unique (isFrame : IsFrame bytes kind payload) {other : ObjectKind} {rest : Bytes}
    (again : IsFrame bytes other rest) : other = kind ∧ rest = payload := by
  obtain ⟨first, rfl, rfl, rfl⟩ := isFrame_iff_content.mp isFrame
  obtain ⟨second, rfl, rfl, same⟩ := isFrame_iff_content.mp again
  have read := second.read_content
  rw [same, first.read_content] at read
  obtain rfl := Except.ok.inj read
  exact ⟨rfl, rfl⟩

theorem isFrame_iff_frame : IsFrame bytes kind payload ↔
    payload.length < 4294967296 ∧
      ∃ object, frame kind payload = .ok object ∧ object.content = bytes := by
  constructor
  · intro isFrame
    obtain ⟨object, same, written, content⟩ := isFrame_iff_content.mp isFrame
    exact ⟨isFrame.fits, object, frame_eq_ok_iff.mpr ⟨same, written⟩, content⟩
  · rintro ⟨_, object, framed, content⟩
    obtain ⟨same, written⟩ := frame_eq_ok_iff.mp framed
    exact isFrame_iff_content.mpr ⟨object, same, written, content⟩

end Object

/-! ### Failures of decoders -/

open Steps (FailsWith failsWith_ok failsWith_error)

/-- An error of a payload: it does not say that an object is of another kind. -/
def Error.IsOfPayload (error : Error) : Prop :=
  ∀ expected found, error ≠ .wrongKind expected found

/-- An error of malformed bytes: of an object, or of an entry in a tree, but for the one that a tree
contains itself. -/
def Error.IsMalformed (error : Error) : Prop :=
  (∃ cause, error = .object cause) ∨
    ∃ cause, error = .treeEntry cause ∧ ∀ name, cause ≠ .endless name

theorem Error.isMalformed_object (cause : ObjectFault) : (Error.object cause).IsMalformed :=
  .inl ⟨cause, rfl⟩

theorem Error.isMalformed_treeEntry {cause : EntryFault} (other : ∀ name, cause ≠ .endless name) :
    (Error.treeEntry cause).IsMalformed :=
  .inr ⟨cause, rfl, other⟩

theorem Error.IsMalformed.isOfPayload {error : Error} (malformed : error.IsMalformed) :
    error.IsOfPayload := by
  obtain ⟨_, rfl⟩ | ⟨_, rfl, _⟩ := malformed
  · exact fun _ _ => nofun
  · exact fun _ _ => nofun

theorem ObjectId.failsOnPayload_parse (text : String) :
    FailsWith Error.IsMalformed (parse text) := by
  rw [parse]
  split
  · exact failsWith_ok _
  · exact failsWith_error (Error.isMalformed_object _)

theorem Blob.failsOnPayload_decode (payload : Bytes) :
    FailsWith Error.IsMalformed (decode payload) := by
  have header : FailsWith Error.IsMalformed (Header.decode payload) := by
    rw [Header.decode]
    split
    · exact failsWith_error (Error.isMalformed_object _)
    · dsimp only
      split
      · exact failsWith_error (Error.isMalformed_object _)
      · split
        · exact failsWith_error (Error.isMalformed_object _)
        · exact failsWith_ok _
  exact header.bind fun _ => failsWith_ok _

namespace TreeEntry

theorem failsOnPayload_checkField (field value : String) :
    FailsWith Error.IsMalformed (checkField field value) := by
  rw [checkField]
  split
  · exact failsWith_error (Error.isMalformed_treeEntry nofun)
  · split
    · exact failsWith_error (Error.isMalformed_treeEntry nofun)
    · exact failsWith_ok _

theorem failsOnPayload_check (entry : TreeEntry) :
    FailsWith Error.IsMalformed (check entry) := by
  rw [check]
  refine (failsOnPayload_checkField _ _).bind fun _ => ?_
  refine (failsOnPayload_checkField _ _).bind fun _ => ?_
  refine (failsOnPayload_checkField _ _).bind fun _ => ?_
  refine (failsOnPayload_checkField _ _).bind fun _ => ?_
  refine (failsOnPayload_checkField _ _).bind fun _ => ?_
  refine (failsOnPayload_checkField _ _).bind fun _ => ?_
  exact (failsOnPayload_checkField _ _).bind fun _ => failsWith_ok _

theorem failsOnPayload_decode (line : List Char) :
    FailsWith Error.IsMalformed (decode line) := by
  rw [decode]
  split
  · split
    · exact failsWith_error (Error.isMalformed_object _)
    · exact (ObjectId.failsOnPayload_parse _).bind fun _ => failsOnPayload_check _
  · exact failsWith_error (Error.isMalformed_object _)

theorem failsOnPayload_checkBeside (entry present : TreeEntry) :
    FailsWith Error.IsMalformed (checkBeside entry present) := by
  rw [checkBeside]
  split
  · exact failsWith_error (Error.isMalformed_treeEntry nofun)
  · split
    · exact failsWith_error (Error.isMalformed_treeEntry nofun)
    · exact failsWith_ok _

end TreeEntry

theorem Tree.failsOnPayload_decode (payload : Bytes) :
    FailsWith Error.IsMalformed (decode payload) := by
  rw [decode]
  split
  · exact failsWith_error (Error.isMalformed_object _)
  · refine FailsWith.foldlM (fun tree line => ?_) _
    refine (TreeEntry.failsOnPayload_decode line).bind fun entry => ?_
    exact (FailsWith.forM entry.failsOnPayload_checkBeside).bind fun _ => failsWith_ok _

theorem Signature.failsOnPayload_decode (line : List Char) :
    FailsWith Error.IsMalformed (decode line) := by
  rw [decode]
  split
  · exact failsWith_error (Error.isMalformed_object _)
  · split
    · exact failsWith_error (Error.isMalformed_object _)
    · exact failsWith_ok _

namespace Commit

theorem failsOnPayload_addLine (draft : Draft) (line : List Char) :
    FailsWith Error.IsMalformed (draft.addLine line) := by
  rw [Draft.addLine]
  split
  · exact (ObjectId.failsOnPayload_parse _).bind fun _ => failsWith_ok _
  · split
    · exact (ObjectId.failsOnPayload_parse _).bind fun _ => failsWith_ok _
    · split
      · exact (Signature.failsOnPayload_decode _).bind fun _ => failsWith_ok _
      · split
        · exact (Signature.failsOnPayload_decode _).bind fun _ => failsWith_ok _
        · exact failsWith_error (Error.isMalformed_object _)

theorem failsOnPayload_finish (draft : Draft) (message : String) :
    FailsWith Error.IsMalformed (draft.finish message) := by
  rw [Draft.finish]
  split
  · exact failsWith_error (Error.isMalformed_object _)
  · split
    · exact failsWith_error (Error.isMalformed_object _)
    · split
      · exact failsWith_error (Error.isMalformed_object _)
      · exact failsWith_ok _

theorem failsOnPayload_decode (payload : Bytes) :
    FailsWith Error.IsMalformed (decode payload) := by
  rw [decode]
  split
  · exact failsWith_error (Error.isMalformed_object _)
  · rw [decodeText]
    split
    · exact failsWith_error (Error.isMalformed_object _)
    · exact (FailsWith.foldlM failsOnPayload_addLine _).bind fun draft =>
        failsOnPayload_finish draft _

end Commit

/-! ### Decoders -/

namespace Content

variable {kind : ObjectKind} {object : Object}

/-- What the decoder for a kind gives for an object. -/
def readAs : ObjectKind → Object → Except Error Content
  | .blob, object => Content.blob <$> Blob.ofObject object
  | .tree, object => Content.tree <$> Tree.ofObject object
  | .commit, object => Content.commit <$> Commit.ofObject object

/-- The decoder for the object's kind gives what the object stores. -/
theorem readAs_kind (object : Object) : readAs object.kind object = ofObject object := by
  rw [ofObject]
  cases same : object.kind with
  | blob => rw [readAs, Blob.ofObject, if_pos same]
  | tree => rw [readAs, Tree.ofObject, if_pos same]
  | commit => rw [readAs, Commit.ofObject, if_pos same]

/-- Every other decoder answers that the object is of its kind. -/
theorem readAs_of_ne (other : kind ≠ object.kind) :
    readAs kind object = .error (.wrongKind kind object.kind) := by
  cases kind with
  | blob => rw [readAs, Blob.ofObject, if_neg (Ne.symm other)]; rfl
  | tree => rw [readAs, Tree.ofObject, if_neg (Ne.symm other)]; rfl
  | commit => rw [readAs, Commit.ofObject, if_neg (Ne.symm other)]; rfl

theorem failsOnPayload_ofObject (object : Object) :
    FailsWith Error.IsMalformed (ofObject object) := by
  rw [ofObject]
  split
  · exact (Blob.failsOnPayload_decode _).map _
  · exact (Tree.failsOnPayload_decode _).map _
  · exact (Commit.failsOnPayload_decode _).map _

/-- **A decoder answers that an object is of another kind** just if it is not of the decoder's. -/
theorem readAs_eq_wrongKind_iff {found : ObjectKind} :
    readAs kind object = .error (.wrongKind kind found) ↔
      kind ≠ object.kind ∧ found = object.kind := by
  constructor
  · intro answer
    by_cases same : kind = object.kind
    · rw [same, readAs_kind] at answer
      exact absurd rfl ((failsOnPayload_ofObject object _ answer).isOfPayload object.kind found)
    · refine ⟨same, ?_⟩
      rw [readAs_of_ne same] at answer
      cases answer
      rfl
  · rintro ⟨other, rfl⟩
    exact readAs_of_ne other

end Content

namespace Object

/-- **Reading is exact.** Just the frames are read: the magic bytes, the version, the kind, the
length and the payload, as they are written for that kind and payload. Bytes that are read are the
frame of the object's kind and payload only; they are its content, and its id is their digest. Of
the three decoders just those for other kinds answer that the object is not of their kind, and what
the object stores is what the decoder for its kind gives, be it a value or an error. -/
theorem read_exact (bytes : Bytes) :
    (∀ kind payload, IsFrame bytes kind payload ↔ payload.length < 4294967296 ∧
      ∃ object, frame kind payload = .ok object ∧ object.content = bytes) ∧
    ((∃ object, read bytes = .ok object) ↔ ∃ kind payload, IsFrame bytes kind payload) ∧
    ∀ object, read bytes = .ok object →
      (∀ kind payload, IsFrame bytes kind payload ↔
        kind = object.kind ∧ payload = object.payload) ∧
      object.content = bytes ∧ object.oid = .of bytes ∧
      (∀ kind found, Content.readAs kind object = .error (.wrongKind kind found) ↔
        kind ≠ object.kind ∧ found = object.kind) ∧
      Content.ofObject object = Content.readAs object.kind object := by
  refine ⟨fun _ _ => isFrame_iff_frame, ⟨?_, ?_⟩, fun object done => ?_⟩
  · rintro ⟨object, done⟩
    exact ⟨_, _, read_eq_ok_iff.mp done⟩
  · rintro ⟨kind, payload, isFrame⟩
    exact ⟨⟨kind, payload, isFrame.fits⟩, read_eq_ok_iff.mpr isFrame⟩
  · have isFrame := read_eq_ok_iff.mp done
    have content := content_of_read done
    refine ⟨fun kind payload => ⟨isFrame.unique, ?_⟩, content, congrArg ObjectId.of content,
      fun _ _ => Content.readAs_eq_wrongKind_iff, (Content.readAs_kind object).symm⟩
    rintro ⟨rfl, rfl⟩
    exact isFrame

/-- The frame of a blob without a header: it is read, and both ways to decode it fail alike. -/
theorem read_of_emptyFrame :
    ∃ object, read [0x5A, 0x54, 0x4F, 0x42, 1, 0, 1, 0, 0, 0, 0] = .ok object ∧
      Content.readAs .tree object = .error (.wrongKind .tree .blob) ∧
      Content.readAs .blob object = .error (.object .shortHeader) ∧
      Content.ofObject object = .error (.object .shortHeader) := by
  obtain ⟨-, accepts, exact⟩ := read_exact [0x5A, 0x54, 0x4F, 0x42, 1, 0, 1, 0, 0, 0, 0]
  have isFrame : IsFrame [0x5A, 0x54, 0x4F, 0x42, 1, 0, 1, 0, 0, 0, 0] .blob [] :=
    ⟨by decide, [0, 0, 0, 0], rfl, rfl, rfl⟩
  obtain ⟨object, done⟩ := accepts.mpr ⟨.blob, [], isFrame⟩
  obtain ⟨unique, -, -, others, agree⟩ := exact object done
  obtain ⟨kind, payload⟩ := (unique .blob []).mp isFrame
  have short : Content.ofObject object = .error (.object .shortHeader) := by
    rw [Content.ofObject, ← kind, ← payload]
    rfl
  refine ⟨object, done, (others .tree .blob).mpr ⟨?_, kind⟩, ?_, short⟩
  · rw [← kind]
    exact nofun
  · rw [kind, ← agree, short]

end Object

end PolicyLedger
