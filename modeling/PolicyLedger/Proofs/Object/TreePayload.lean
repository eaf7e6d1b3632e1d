/-
**Payloads of trees.**

A line is read as an entry just if it is the entry's line or, for an entry of the root partition,
the entry's line without the path (`TreeEntry.decode_eq_ok_iff`). Therefore:

* `Tree.roundTrip_of_built` — a tree that was built by adding checked entries is stored if it has
  entries and fits a frame, and it is read back as it was;
* `Tree.canonical_iff_writesPaths` — a payload that is read is the payload of the tree that it is
  read as just if all of its lines write the path. Of the payloads that do, exactly those of built
  trees are read, each as another tree.

A line without a path is read all the same (`Tree.shortLine_not_canonical`).
-/

import PolicyLedger.Proofs.Object.Id
import PolicyLedger.Proofs.Object.TreeRoundTrip

namespace PolicyLedger

/-! ### Lines -/

namespace TreeEntry

variable {entry : TreeEntry} {line : List Char}

/-- An entry whose path was left out. -/
def withoutPath (entry : TreeEntry) : TreeEntry := { entry with path := "" }

/-- The lines of an entry: the one that is written for it, and in the root partition also the one
without the path. -/
inductive IsLine : List Char → TreeEntry → Prop
  | written (entry : TreeEntry) : IsLine entry.encode entry
  | short {entry : TreeEntry} (root : entry.path = rootPartition) :
    IsLine entry.withoutPath.encode entry

theorem hasBlank_of_mem_withoutPath (writable : entry.IsWritable) :
    ∀ field ∈ entry.withoutPath.fields, Text.hasBlank field = false := by
  have others := hasBlank_of_mem_fields writable
  simp only [fields, withoutPath, List.forall_mem_cons] at others ⊢
  exact ⟨others.1, rfl, others.2.2⟩

/-- A line that is read has the fields of some entry, which is checked. -/
theorem exists_fields (read : decode line = .ok entry) :
    ∃ raw : TreeEntry, line = raw.encode ∧ ObjectId.isName raw.oid.text = true ∧
      check raw = .ok entry := by
  rw [decode] at read
  split at read
  next kindWord path oid name codeId codeType language languageVersion languageType cut =>
    split at read
    · cases read
    next kind word =>
      obtain ⟨id, parsed, checked⟩ := Steps.bind_eq_ok.mp read
      obtain ⟨rfl, named⟩ := ObjectId.parse_eq_ok parsed
      refine ⟨⟨path, kind, ⟨oid⟩, name, codeId, codeType, language, languageVersion,
        languageType⟩, ?_, named, checked⟩
      have pieces := congrArg (List.map String.toList) cut
      rw [List.map_map, ObjectKind.word_of_ofWord? word] at pieces
      rw [encode, fields, ← pieces]
      simp [Function.comp_def, Text.join_pieces]
  · cases read

/-- **A line is read as a writable entry just if it is one of the entry's lines.** -/
theorem decode_eq_ok_iff : decode line = .ok entry ↔ entry.IsWritable ∧ IsLine line entry := by
  constructor
  · intro read
    obtain ⟨raw, rfl, named, checked⟩ := exists_fields read
    obtain ⟨rfl, writable⟩ := (check_eq_ok_iff named).mp checked
    refine ⟨writable, ?_⟩
    by_cases empty : raw.path.isEmpty = true
    · have short : raw = withoutPath { raw with path := checkedPath raw.path } := by
        rw [withoutPath, ← String.isEmpty_iff.mp empty]
      rw [congrArg encode short]
      exact .short (if_pos empty)
    · rw [checkedPath, if_neg empty]
      exact .written raw
  · rintro ⟨writable, written | root⟩
    · exact decode_encode writable
    · have named : ObjectId.isName entry.withoutPath.oid.text = true := writable.oid
      rw [decode_encode_eq_check (hasBlank_of_mem_withoutPath writable) named]
      refine (check_eq_ok_iff named).mpr ⟨?_, writable⟩
      have path : checkedPath entry.withoutPath.path = entry.path := root.symm
      rw [path]
      rfl

/-- A line has something between its first two spaces. -/
def WritesPath (line : List Char) : Prop := (Text.pieces ' ' line)[1]? ≠ some []

theorem writesPath_encode (writable : entry.IsWritable) : WritesPath entry.encode := by
  rw [WritesPath, pieces_encode (hasBlank_of_mem_fields writable)]
  intro empty
  have path : entry.path.toList = [] := Option.some.inj empty
  have filled := writable.path.1
  rw [String.toList_eq_nil_iff.mp path] at filled
  cases filled

theorem not_writesPath_withoutPath (writable : entry.IsWritable) :
    ¬ WritesPath entry.withoutPath.encode := by
  rw [WritesPath, pieces_encode (hasBlank_of_mem_withoutPath writable), not_not]
  rfl

/-- The line that is written for an entry is the one of its lines that writes the path. -/
theorem IsLine.writesPath_iff (of : IsLine line entry) (writable : entry.IsWritable) :
    WritesPath line ↔ line = entry.encode := by
  have written := writesPath_encode writable
  cases of with
  | written => exact iff_of_true written rfl
  | short root =>
    have short := not_writesPath_withoutPath writable
    exact iff_of_false short fun same => short (same ▸ written)

end TreeEntry

/-! ### Payloads -/

namespace Tree

variable {tree : Tree} {payload : Bytes}

/-- All lines of a payload write the path. -/
def WritesPaths (payload : Bytes) : Prop :=
  ∀ text, Bytes.toText? payload = some text →
    ∀ line ∈ Text.pieces '\n' text.toList, TreeEntry.WritesPath line

theorem exists_entries {lines : List (List Char)} {next : Tree}
    (read : lines.foldlM addLine tree = .ok next) :
    ∃ entries, List.Forall₂ (fun line entry => TreeEntry.decode line = .ok entry) lines entries ∧
      entries.foldlM add tree = .ok next := by
  induction lines generalizing tree with
  | nil => exact ⟨[], .nil, read⟩
  | cons line lines ih =>
    rw [List.foldlM_cons] at read
    obtain ⟨grown, first, rest⟩ := Steps.bind_eq_ok.mp read
    obtain ⟨entry, decoded, added⟩ := Steps.bind_eq_ok.mp first
    obtain ⟨entries, others, together⟩ := ih rest
    refine ⟨entry :: entries, .cons decoded others, ?_⟩
    rw [List.foldlM_cons, added]
    exact together

/-- **A payload that is read** has a line of each entry, and its tree is writable. -/
theorem exists_lines (read : decode payload = .ok tree) :
    ∃ text, Bytes.toText? payload = some text ∧ tree.IsWritable ∧
      List.Forall₂ TreeEntry.IsLine (Text.pieces '\n' text.toList) tree.entries := by
  rw [decode] at read
  split at read
  · cases read
  next text decoded =>
    obtain ⟨entries, lines, added⟩ := exists_entries read
    have written : ∀ entry ∈ entries, entry.IsWritable := by
      intro entry inside
      obtain ⟨line, _, of⟩ := Steps.exists_of_mem_right lines inside
      exact (TreeEntry.decode_eq_ok_iff.mp of).1
    obtain ⟨writable, listed⟩ := isWritable_of_foldlM written isWritable_empty added
    refine ⟨text, decoded, writable, ?_⟩
    rw [show tree.entries = entries from listed]
    exact lines.imp fun _ _ of => (TreeEntry.decode_eq_ok_iff.mp of).2

/-- Lines that write the path are the ones that are written. -/
theorem forall_writesPath_iff {lines : List (List Char)} {entries : List TreeEntry}
    (of : List.Forall₂ TreeEntry.IsLine lines entries)
    (writable : ∀ entry ∈ entries, entry.IsWritable) :
    (∀ line ∈ lines, TreeEntry.WritesPath line) ↔ lines = entries.map TreeEntry.encode := by
  induction of with
  | nil => exact iff_of_true nofun rfl
  | cons first _ ih =>
    rw [List.forall_mem_cons] at writable
    rw [List.forall_mem_cons, List.map_cons, List.cons.injEq, ih writable.2,
      first.writesPath_iff writable.1]

/-- The lines of a writable tree's payload. -/
theorem pieces_encodeText (writable : tree.IsWritable) (nonempty : tree.entries ≠ []) :
    Text.pieces '\n' tree.encodeText = tree.entries.map TreeEntry.encode :=
  Text.pieces_join (by simpa using nonempty) (lineFeed_not_mem_line writable)

/-- A payload that is read is written for its tree just if all of its lines write the path. -/
theorem encode_eq_ok_iff_writesPaths (read : decode payload = .ok tree) :
    tree.encode = .ok payload ↔ WritesPaths payload := by
  obtain ⟨text, decoded, writable, lines⟩ := exists_lines read
  have written := forall_writesPath_iff lines writable.entries
  constructor
  · intro encoded
    obtain ⟨nonempty, rfl⟩ := encode_eq_ok_iff.mp encoded
    obtain rfl := Option.some.inj (decoded.symm.trans (Bytes.toText?_ofText _))
    intro text again
    obtain rfl := Option.some.inj (decoded.symm.trans again)
    rw [String.toList_ofList] at written ⊢
    exact written.mpr (pieces_encodeText writable nonempty)
  · intro paths
    have same := written.mp (paths text decoded)
    refine encode_eq_ok_iff.mpr ⟨fun empty => ?_, ?_⟩
    · rw [empty] at same
      exact Text.pieces_ne_nil '\n' _ same
    · rw [Tree.payload, encodeText, ← same, Text.join_pieces, String.ofList_toList,
        Bytes.ofText_of_toText? decoded]

theorem ofObject_eq_ok_iff {object : Object} :
    ofObject object = .ok tree ↔ object.kind = .tree ∧ decode object.payload = .ok tree := by
  rw [ofObject]
  by_cases kind : object.kind = .tree <;> simp [kind]

/-! ### Built trees -/

/-- Trees that checked entries, whose ids were made, were added to one after the other. -/
inductive Built : Tree → Prop
  | empty : Built empty
  | add {tree next : Tree} {raw entry : TreeEntry} (before : Built tree) (made : raw.oid.IsMade)
    (checked : raw.check = .ok entry) (added : tree.add entry = .ok next) : Built next

theorem isWritable_of_built (built : tree.Built) : tree.IsWritable := by
  induction built with
  | empty => exact isWritable_empty
  | add _ made checked added ih =>
    have named := ObjectId.isMade_iff.mp made
    exact isWritable_of_add ih ((TreeEntry.check_eq_ok_iff named).mp checked).2 added

theorem built_of_foldlM {next : Tree} {entries : List TreeEntry} (built : tree.Built)
    (writable : ∀ entry ∈ entries, entry.IsWritable)
    (added : entries.foldlM add tree = .ok next) : next.Built :=
  Steps.of_foldlM_eq_ok (fun entry inside _ _ before added =>
    .add before (ObjectId.isMade_iff.mpr (writable entry inside).oid)
      (TreeEntry.check_of_isWritable (writable entry inside)) added) built added

/-- **The trees that are built are the writable ones.** -/
theorem built_iff : tree.Built ↔ tree.IsWritable :=
  ⟨isWritable_of_built, fun writable =>
    built_of_foldlM .empty writable.entries (@foldlM_add empty _ writable.beside)⟩

/-- **What was built is read back.** A built tree that has entries and fits a frame is stored. What
is read from the object is the tree, with the same entries in the same order, and storing it again
gives an object with the same id. -/
theorem roundTrip_of_built (built : tree.Built) (nonempty : tree.entries ≠ [])
    (fits : tree.payload.length < 4294967296) :
    ∃ object, tree.toObject = .ok object ∧ ofObject object = .ok tree ∧
      ((ofObject object >>= toObject).map Object.oid = .ok object.oid) := by
  obtain ⟨object, stored⟩ := exists_toObject nonempty fits
  have read := ofObject_of_toObject (built_iff.mp built) stored
  have again : (ofObject object >>= toObject) = .ok object := by
    rw [read]
    exact stored
  refine ⟨object, stored, read, ?_⟩
  rw [again]
  rfl

/-- A commit of no object in the root partition. -/
def mixedCommit : TreeEntry := ⟨"/", .commit, .zero, "größe", "c", "policy", "λ", "0", "p"⟩

/-- A tree in another partition, with the same code id. -/
def mixedSubtree : TreeEntry :=
  ⟨"/a", .tree, ⟨"e3b0c44298fc1c149afbf4c8996fb92427ae41e4649b934ca495991b7852b855"⟩, "名", "c",
    "schema", "λ", "0", "s"⟩

/-- The tree of both. -/
def mixedTree : Tree := ⟨[mixedCommit, mixedSubtree]⟩

theorem built_mixedTree : mixedTree.Built := by
  have first : TreeEntry.check { mixedCommit with path := "" } = .ok mixedCommit := by
    decide +kernel
  have second : mixedSubtree.check = .ok mixedSubtree := by
    decide +kernel
  have one : empty.add mixedCommit = .ok ⟨[mixedCommit]⟩ := rfl
  have two : add ⟨[mixedCommit]⟩ mixedSubtree = .ok mixedTree := by
    refine add_eq_ok_iff.mpr ⟨?_, rfl⟩
    rw [List.forall_mem_singleton]
    decide
  have made : mixedSubtree.oid.IsMade := ObjectId.isMade_iff.mpr (by decide)
  exact .add (.add .empty .zero first one) made second two

/-- Letters of any script, both kinds of links and a path that was left out. -/
theorem roundTrip_of_mixedTree :
    mixedTree.Built ∧ mixedTree.entries ≠ [] ∧ mixedTree.payload.length < 4294967296 ∧
      ∃ object, mixedTree.toObject = .ok object ∧ ofObject object = .ok mixedTree ∧
        (ofObject object >>= toObject).map Object.oid = .ok object.oid := by
  have nonempty : mixedTree.entries ≠ [] := List.cons_ne_nil _ _
  have fits : mixedTree.payload.length < 4294967296 := by decide +kernel
  exact ⟨built_mixedTree, nonempty, fits, roundTrip_of_built built_mixedTree nonempty fits⟩

/-! ### Canonical payloads -/

/-- **A payload is canonical just if all of its lines write the path.** If a payload is read, it is
the one that is written for its tree just if none of its lines has an empty path. A payload is read
and has this property just if it is that of a built tree, and no object with another such payload is
read as the same tree. -/
theorem canonical_iff_writesPaths (payload : Bytes) :
    (∀ tree, decode payload = .ok tree → (tree.encode = .ok payload ↔ WritesPaths payload)) ∧
    ((∃ tree, decode payload = .ok tree) ∧ WritesPaths payload ↔
      ∃ tree : Tree, tree.Built ∧ tree.encode = .ok payload) ∧
    (WritesPaths payload → ∀ first second tree, first.payload = payload →
      WritesPaths second.payload → ofObject first = .ok tree → ofObject second = .ok tree →
        first.content = second.content) := by
  refine ⟨fun tree read => encode_eq_ok_iff_writesPaths read, ⟨?_, ?_⟩, ?_⟩
  · rintro ⟨⟨tree, read⟩, paths⟩
    obtain ⟨_, _, writable, _⟩ := exists_lines read
    exact ⟨tree, built_iff.mpr writable, (encode_eq_ok_iff_writesPaths read).mpr paths⟩
  · rintro ⟨tree, built, encoded⟩
    obtain ⟨nonempty, rfl⟩ := encode_eq_ok_iff.mp encoded
    have read := decode_payload (built_iff.mp built) nonempty
    exact ⟨⟨tree, read⟩, (encode_eq_ok_iff_writesPaths read).mp encoded⟩
  · rintro pathsFirst first second tree rfl pathsSecond readFirst readSecond
    obtain ⟨kindFirst, decodedFirst⟩ := ofObject_eq_ok_iff.mp readFirst
    obtain ⟨kindSecond, decodedSecond⟩ := ofObject_eq_ok_iff.mp readSecond
    have encodedFirst := (encode_eq_ok_iff_writesPaths decodedFirst).mpr pathsFirst
    have encodedSecond := (encode_eq_ok_iff_writesPaths decodedSecond).mpr pathsSecond
    have same := Except.ok.inj (encodedFirst.symm.trans encodedSecond)
    rw [Object.content, Object.content, kindFirst, kindSecond, same]

/-- An entry of the root partition. -/
def rootEntry : TreeEntry :=
  ⟨"/", .blob, .zero, "n", "c", "policy", "cedar-json", "0.0", "policy"⟩

/-- The tree of this entry. -/
def rootTree : Tree := ⟨[rootEntry]⟩

/-- The line of the entry without its path. -/
def shortPayload : Bytes := Bytes.ofText
  ("blob  0000000000000000000000000000000000000000000000000000000000000000 n c policy " ++
    "cedar-json 0.0 policy")

theorem isWritable_rootEntry : rootEntry.IsWritable where
  oid := by decide
  path := by decide
  name := by decide
  codeId := by decide
  codeType := by decide
  language := by decide
  languageVersion := by decide
  languageType := by decide

theorem isWritable_rootTree : rootTree.IsWritable :=
  ⟨List.forall_mem_singleton.mpr isWritable_rootEntry, List.pairwise_singleton _ _⟩

/-- The payload of a tree in the root partition writes the path and is read. -/
theorem canonical_of_rootTree :
    decode rootTree.payload = .ok rootTree ∧ WritesPaths rootTree.payload := by
  have read := decode_payload isWritable_rootTree (List.cons_ne_nil _ _)
  exact ⟨read, ((canonical_iff_writesPaths _).1 _ read).mp rfl⟩

/-- **Two payloads of one tree.** The line without the path is read as the line with it. -/
theorem shortLine_not_canonical :
    decode shortPayload = .ok rootTree ∧ rootTree.encode ≠ .ok shortPayload ∧
      decode rootTree.payload = .ok rootTree ∧ shortPayload ≠ rootTree.payload := by
  have nonempty : rootTree.entries ≠ [] := List.cons_ne_nil _ _
  have line : TreeEntry.decode rootEntry.withoutPath.encode = .ok rootEntry :=
    TreeEntry.decode_eq_ok_iff.mpr ⟨isWritable_rootEntry, .short rfl⟩
  have free := TreeEntry.lineFeed_not_mem_encode
    (TreeEntry.hasBlank_of_mem_withoutPath isWritable_rootEntry)
  have text : Bytes.ofText (String.ofList (Text.join '\n' [rootEntry.withoutPath.encode])) =
      shortPayload := congrArg Bytes.ofText (by decide)
  have read := decode_of_lines isWritable_rootTree nonempty (.cons line .nil)
    (List.forall_mem_singleton.mpr free)
  rw [text] at read
  have other : shortPayload ≠ rootTree.payload := by decide +kernel
  exact ⟨read, fun written => other (encode_eq_ok_iff.mp written).2,
    decode_payload isWritable_rootTree nonempty, other⟩

end Tree

end PolicyLedger
