/-
**Trees that were stored.**

A checked entry has no blanks in its fields (`TreeEntry.check_eq_ok_iff`), so it is read back from
its line (`TreeEntry.decode_encode`). The lines of a tree are read one after the other, and each
entry stands beside those before it as it did when the tree was built (`Tree.decode_payload`).
Adding checked entries keeps both (`Tree.isWritable_of_add`).
-/

import PolicyLedger.Tree
import PolicyLedger.Proofs.Object.Store
import PolicyLedger.Proofs.Text.Blank
import PolicyLedger.Proofs.Text.Split

namespace PolicyLedger

/-! ### Ids -/

namespace ObjectId

theorem isBlank_of_isDigit {c : Char} (digit : isDigit c = true) : Text.isBlank c = false := by
  simp only [isDigit, Bool.or_eq_true, Bool.and_eq_true, decide_eq_true_eq] at digit
  obtain ⟨low, high⟩ | ⟨low, high⟩ := digit
  · exact Text.isBlank_of_printable (Char.le_trans (by decide) low) (Char.le_trans high (by decide))
  · exact Text.isBlank_of_printable (Char.le_trans (by decide) low) (Char.le_trans high (by decide))

theorem hasBlank_of_isName {text : String} (named : isName text = true) :
    Text.hasBlank text = false := by
  rw [isName, Bool.and_eq_true, List.all_eq_true] at named
  exact Text.hasBlank_eq_false_iff.mpr fun c inside => isBlank_of_isDigit (named.2 c inside)

end ObjectId

/-! ### Entries -/

namespace TreeEntry

/-- A text that is neither empty nor has blanks. -/
def IsField (value : String) : Prop := value.isEmpty = false ∧ Text.hasBlank value = false

instance (value : String) : Decidable (IsField value) := inferInstanceAs (Decidable (_ ∧ _))

theorem checkField_eq_ok_iff {field value : String} :
    checkField field value = .ok () ↔ IsField value := by
  rw [checkField, IsField]
  cases empty : value.isEmpty <;> cases blank : Text.hasBlank value <;> simp

/-- An entry that is read back from its line. -/
structure IsWritable (entry : TreeEntry) : Prop where
  oid : ObjectId.isName entry.oid.text = true
  path : IsField entry.path
  name : IsField entry.name
  codeId : IsField entry.codeId
  codeType : IsField entry.codeType
  language : IsField entry.language
  languageVersion : IsField entry.languageVersion
  languageType : IsField entry.languageType

/-- The path that an entry gets. -/
def checkedPath (path : String) : String := if path.isEmpty then rootPartition else path

variable {entry : TreeEntry}

/-- A checked entry is the entry with a path, and it is writable. -/
theorem check_eq_ok_iff {checked : TreeEntry} (named : ObjectId.isName entry.oid.text = true) :
    check entry = .ok checked ↔
      checked = { entry with path := checkedPath entry.path } ∧ checked.IsWritable := by
  constructor
  · intro accepted
    obtain ⟨_, path, accepted⟩ := Steps.bind_eq_ok.mp accepted
    obtain ⟨_, name, accepted⟩ := Steps.bind_eq_ok.mp accepted
    obtain ⟨_, codeId, accepted⟩ := Steps.bind_eq_ok.mp accepted
    obtain ⟨_, codeType, accepted⟩ := Steps.bind_eq_ok.mp accepted
    obtain ⟨_, language, accepted⟩ := Steps.bind_eq_ok.mp accepted
    obtain ⟨_, languageVersion, accepted⟩ := Steps.bind_eq_ok.mp accepted
    obtain ⟨_, languageType, same⟩ := Steps.bind_eq_ok.mp accepted
    obtain rfl := Except.ok.inj same
    exact ⟨rfl, named, checkField_eq_ok_iff.mp path, checkField_eq_ok_iff.mp name,
      checkField_eq_ok_iff.mp codeId, checkField_eq_ok_iff.mp codeType,
      checkField_eq_ok_iff.mp language, checkField_eq_ok_iff.mp languageVersion,
      checkField_eq_ok_iff.mp languageType⟩
  · rintro ⟨rfl, writable⟩
    have path : checkField "path" (if entry.path.isEmpty then rootPartition else entry.path) =
        .ok () := checkField_eq_ok_iff.mpr writable.path
    rw [check]
    simp only [path, checkField_eq_ok_iff.mpr writable.name,
      checkField_eq_ok_iff.mpr writable.codeId, checkField_eq_ok_iff.mpr writable.codeType,
      checkField_eq_ok_iff.mpr writable.language, checkField_eq_ok_iff.mpr writable.languageVersion,
      checkField_eq_ok_iff.mpr writable.languageType]
    rfl

/-- A writable entry is accepted as it is. -/
theorem check_of_isWritable (writable : entry.IsWritable) : check entry = .ok entry := by
  have path : checkedPath entry.path = entry.path := by
    rw [checkedPath, writable.path.1]
    rfl
  refine (check_eq_ok_iff writable.oid).mpr ⟨?_, writable⟩
  rw [path]

/-- No field of a writable entry has a blank. -/
theorem hasBlank_of_mem_fields (writable : entry.IsWritable) :
    ∀ field ∈ entry.fields, Text.hasBlank field = false := by
  have kind : Text.hasBlank entry.kind.word = false := by
    cases entry.kind <;> decide
  simp only [fields, List.forall_mem_cons]
  exact ⟨kind, writable.path.2, ObjectId.hasBlank_of_isName writable.oid, writable.name.2,
    writable.codeId.2, writable.codeType.2, writable.language.2, writable.languageVersion.2,
    writable.languageType.2, nofun⟩

section Line

variable (free : ∀ field ∈ entry.fields, Text.hasBlank field = false)

include free

theorem not_mem_field {c : Char} (blank : Text.isBlank c = true) :
    ∀ field ∈ entry.fields.map String.toList, c ∉ field := by
  rw [List.forall_mem_map]
  intro field listed inside
  rw [Text.hasBlank_eq_false_iff.mp (free field listed) c inside] at blank
  cases blank

/-- A line is cut into the fields that it was joined from. -/
theorem pieces_encode : Text.pieces ' ' entry.encode = entry.fields.map String.toList :=
  Text.pieces_join (by simp [fields]) (not_mem_field free (by decide))

theorem lineFeed_not_mem_encode : '\n' ∉ entry.encode := by
  intro inside
  obtain space | ⟨field, listed, there⟩ := Text.mem_join inside
  · cases space
  · exact not_mem_field free (by decide) field listed there

/-- The line of an entry without blanks is read as the checked entry. -/
theorem decode_encode_eq_check (named : ObjectId.isName entry.oid.text = true) :
    decode entry.encode = check entry := by
  have fields : (entry.fields.map String.toList).map String.ofList = entry.fields := by
    simp [fields]
  rw [decode, pieces_encode free, fields, TreeEntry.fields]
  simp only [ObjectKind.ofWord?_word, ObjectId.parse, named, if_true]
  rfl

end Line

/-- A writable entry is read back from its line. -/
theorem decode_encode (writable : entry.IsWritable) : decode entry.encode = .ok entry := by
  rw [decode_encode_eq_check (hasBlank_of_mem_fields writable) writable.oid]
  exact check_of_isWritable writable

end TreeEntry

/-! ### Trees -/

namespace Tree

/-- Entries that are read back from their lines and stand beside each other. -/
structure IsWritable (tree : Tree) : Prop where
  entries : ∀ entry ∈ tree.entries, entry.IsWritable
  beside : tree.entries.Pairwise fun present entry => entry.checkBeside present = .ok ()

theorem isWritable_empty : empty.IsWritable := ⟨nofun, .nil⟩

variable {tree : Tree} {entry : TreeEntry}

/-- An entry is added if it stands beside all that are present. -/
theorem add_eq_ok_iff {next : Tree} : tree.add entry = .ok next ↔
    (∀ present ∈ tree.entries, entry.checkBeside present = .ok ()) ∧
      next = ⟨tree.entries ++ [entry]⟩ := by
  rw [add, Steps.bind_eq_ok, ← Steps.forM_eq_ok]
  exact ⟨fun ⟨_, beside, same⟩ => ⟨beside, (Except.ok.inj same).symm⟩,
    fun ⟨beside, same⟩ => ⟨(), beside, congrArg Except.ok same.symm⟩⟩

/-- A tree with one more entry. -/
theorem isWritable_of_add {next : Tree} (writable : tree.IsWritable) (read : entry.IsWritable)
    (added : tree.add entry = .ok next) : next.IsWritable := by
  obtain ⟨beside, rfl⟩ := add_eq_ok_iff.mp added
  constructor
  · exact List.forall_mem_append.mpr ⟨writable.entries, List.forall_mem_singleton.mpr read⟩
  · refine List.pairwise_append.mpr ⟨writable.beside, List.pairwise_singleton _ _, ?_⟩
    intro present inside other last
    rw [List.mem_singleton.mp last]
    exact beside present inside

/-- Adding entries one after the other lists them. -/
theorem isWritable_of_foldlM {entries : List TreeEntry} (read : ∀ entry ∈ entries, entry.IsWritable)
    (writable : tree.IsWritable) {next : Tree} (added : entries.foldlM add tree = .ok next) :
    next.IsWritable ∧ next.entries = tree.entries ++ entries := by
  induction entries generalizing tree with
  | nil =>
    obtain rfl := Except.ok.inj added
    exact ⟨writable, (List.append_nil _).symm⟩
  | cons entry entries ih =>
    rw [List.forall_mem_cons] at read
    rw [List.foldlM_cons] at added
    obtain ⟨grown, first, others⟩ := Steps.bind_eq_ok.mp added
    obtain ⟨written, listed⟩ := ih read.2 (isWritable_of_add writable read.1 first) others
    obtain ⟨-, rfl⟩ := add_eq_ok_iff.mp first
    exact ⟨written, by rw [listed, List.append_assoc, List.singleton_append]⟩

/-- Entries that stand beside each other are added one after the other. -/
theorem foldlM_add {entries : List TreeEntry}
    (beside : (tree.entries ++ entries).Pairwise fun present entry =>
      entry.checkBeside present = .ok ()) :
    entries.foldlM add tree = .ok ⟨tree.entries ++ entries⟩ := by
  induction entries generalizing tree with
  | nil =>
    rw [List.append_nil]
    rfl
  | cons entry entries ih =>
    have added : tree.add entry = .ok ⟨tree.entries ++ [entry]⟩ := by
      refine add_eq_ok_iff.mpr ⟨fun present inside => ?_, rfl⟩
      exact (List.pairwise_append.mp beside).2.2 present inside entry List.mem_cons_self
    rw [List.foldlM_cons, added]
    rw [List.append_cons tree.entries entry entries] at beside ⊢
    exact @ih ⟨tree.entries ++ [entry]⟩ beside

/-- Lines are read by adding the entries in them. -/
theorem foldlM_addLine {lines : List (List Char)} {entries : List TreeEntry}
    (read : List.Forall₂ (fun line entry => TreeEntry.decode line = .ok entry) lines entries) :
    lines.foldlM addLine tree = entries.foldlM add tree := by
  refine Steps.foldlM_congr (read.imp fun line entry read state => ?_) tree
  rw [addLine, read]
  rfl

/-- The bytes of a tree's text. -/
def payload (tree : Tree) : Bytes := Bytes.ofText (String.ofList tree.encodeText)

theorem encode_eq_ok_iff {bytes : Bytes} :
    tree.encode = .ok bytes ↔ tree.entries ≠ [] ∧ bytes = tree.payload := by
  rw [encode, payload]
  cases tree.entries with
  | nil => simp
  | cons first others => simp [eq_comm]

/-- **Lines in which the entries of a writable tree are read** are read as the tree. -/
theorem decode_of_lines (writable : tree.IsWritable) (nonempty : tree.entries ≠ [])
    {lines : List (List Char)}
    (read : List.Forall₂ (fun line entry => TreeEntry.decode line = .ok entry) lines tree.entries)
    (free : ∀ line ∈ lines, '\n' ∉ line) :
    decode (Bytes.ofText (String.ofList (Text.join '\n' lines))) = .ok tree := by
  have filled : lines ≠ [] := by
    rwa [ne_eq, ← List.length_eq_zero_iff, read.length_eq, List.length_eq_zero_iff]
  rw [decode, Bytes.toText?_ofText]
  simp only [String.toList_ofList, Text.pieces_join filled free, foldlM_addLine read]
  exact foldlM_add writable.beside

/-- No line of a writable tree has a line feed. -/
theorem lineFeed_not_mem_line (writable : tree.IsWritable) :
    ∀ line ∈ tree.entries.map TreeEntry.encode, '\n' ∉ line := by
  rw [List.forall_mem_map]
  exact fun entry inside => TreeEntry.lineFeed_not_mem_encode
    (TreeEntry.hasBlank_of_mem_fields (writable.entries entry inside))

/-- **A writable tree with entries is read back from its payload.** -/
theorem decode_payload (writable : tree.IsWritable) (nonempty : tree.entries ≠ []) :
    decode tree.payload = .ok tree := by
  refine decode_of_lines writable nonempty ?_ (lineFeed_not_mem_line writable)
  rw [List.forall₂_map_left_iff, List.forall₂_same]
  exact fun entry inside => TreeEntry.decode_encode (writable.entries entry inside)

/-- A tree that has entries and fits a frame is stored, and a writable one is read back. -/
theorem exists_toObject (nonempty : tree.entries ≠ []) (fits : tree.payload.length < 4294967296) :
    ∃ object, tree.toObject = .ok object := by
  rw [toObject, encode_eq_ok_iff.mpr ⟨nonempty, rfl⟩]
  exact Object.exists_frame .tree fits

theorem ofObject_of_toObject {object : Object} (writable : tree.IsWritable)
    (stored : tree.toObject = .ok object) : ofObject object = .ok tree := by
  obtain ⟨bytes, encoded, framed⟩ := Steps.bind_eq_ok.mp stored
  obtain ⟨nonempty, rfl⟩ := encode_eq_ok_iff.mp encoded
  obtain ⟨kind, payload⟩ := Object.frame_eq_ok_iff.mp framed
  rw [ofObject, if_pos kind, payload, decode_payload writable nonempty]

end Tree

end PolicyLedger
