/-
**Manifests that were written.**

Each part of a manifest is read back from its object (`Manifest.ofJson?_toJson`), and the object has
no numbers, repeats no key and is four levels deep at most (`Manifest.isWhole_toJson`,
`Manifest.depth_toJson_le`). Both layouts of its text are therefore read back, and the only thing
that can still be wrong with a manifest that was written is that it is not valid
(`Manifest.decode_encode_eq`).
-/

import PolicyLedger.Manifest.Format
import PolicyLedger.Proofs.Json.RoundTrip
import PolicyLedger.Proofs.KeyMap
import PolicyLedger.Proofs.Manifest.Versions

namespace PolicyLedger

open Json (Record)

/-! ### Maps -/

namespace KeyMap

variable {α : Type} {map : KeyMap α} {write : α → Json}

/-- A map is read back from its object if its values are. -/
theorem ofJson?_toJson {read? : Json → Option α}
    (back : ∀ value, read? (write value) = some value) :
    ofJson? read? (map.toJson write) = some map := by
  have rows : (map.rows.map fun row => (row.1, write row.2)).mapM (fun member =>
      (read? member.2).map fun value => (member.1, value)) = some map.rows := by
    refine Steps.mapM_eq_some_iff.mpr ?_
    rw [List.forall₂_map_left_iff]
    exact List.forall₂_same.mpr fun row _ => by rw [back, Option.map_some]
  rw [toJson, ofJson?, rows, Option.map_some, ofRows_rows]

theorem isWhole_toJson (whole : ∀ value, (write value).isWhole = true) :
    (map.toJson write).isWhole = true := by
  rw [toJson, Json.isWhole, Json.membersAreWhole_iff, List.forall_mem_map]
  exact fun row _ => whole row.2

theorem depth_toJson_le {bound : Nat} (shallow : ∀ value, (write value).depth ≤ bound) :
    (map.toJson write).depth ≤ bound + 1 := by
  rw [toJson, Json.depth, Nat.add_le_add_iff_right, Json.depthMembers_le_iff, List.forall_mem_map]
  exact fun row _ => shallow row.2

end KeyMap

/-! ### Parts of manifests -/

theorem Metadata.ofJson?_toJson (metadata : Metadata) :
    ofJson? metadata.toJson = some metadata := by
  obtain ⟨kind, name, description⟩ := metadata
  by_cases empty : description = ""
  · subst empty
    simp [ofJson?, toJson, Record.of?_object, Record.required, Record.defaulted, List.lookup_cons,
      Json.asText?]
  · simp [ofJson?, toJson, Record.of?_object, Record.required, Record.defaulted, List.lookup_cons,
      Json.asText?, empty]

theorem Engine.ofJson?_toJson (engine : Engine) : ofJson? engine.toJson = some engine := by
  simp [ofJson?, toJson, Record.of?_object, Record.required, List.lookup_cons, Json.asText?]

theorem RuntimeLanguage.ofJson?_toJson (language : RuntimeLanguage) :
    ofJson? language.toJson = some language := by
  simp [ofJson?, toJson, Record.of?_object, Record.required, List.lookup_cons, Json.asText?]

theorem Runtime.ofJson?_toJson (runtime : Runtime) : ofJson? runtime.toJson = some runtime := by
  simp [ofJson?, toJson, Record.of?_object, Record.required, List.lookup_cons,
    Engine.ofJson?_toJson, RuntimeLanguage.ofJson?_toJson]

theorem Partition.ofJson?_toJson (part : Partition) : ofJson? part.toJson = some part := by
  simp [ofJson?, toJson, Record.of?_object, Record.required, Record.defaulted, List.lookup_cons,
    Json.asText?, Json.asBool?]

namespace Manifest

variable {manifest : Manifest}

/-- A manifest is read back from its object. -/
theorem ofJson?_toJson (manifest : Manifest) : ofJson? manifest.toJson = some manifest := by
  have runtimes := @KeyMap.ofJson?_toJson _ manifest.runtimes _ _ Runtime.ofJson?_toJson
  have partitions := @KeyMap.ofJson?_toJson _ manifest.partitions _ _ Partition.ofJson?_toJson
  simp [ofJson?, toJson, Record.of?_object, Record.required, Record.defaulted, List.lookup_cons,
    Metadata.ofJson?_toJson, runtimes, partitions]

/-- There are no numbers in the object of a manifest. -/
theorem isWhole_toJson (manifest : Manifest) : manifest.toJson.isWhole = true := by
  have metadata : manifest.metadata.toJson.isWhole = true := by
    rw [Metadata.toJson]
    split <;> rfl
  have runtimes : (manifest.runtimes.toJson Runtime.toJson).isWhole = true :=
    KeyMap.isWhole_toJson fun _ => rfl
  have partitions : (manifest.partitions.toJson Partition.toJson).isWhole = true :=
    KeyMap.isWhole_toJson fun _ => rfl
  simp [toJson, Json.isWhole, Json.membersAreWhole, metadata, runtimes, partitions]

/-- An engine is the deepest part of a manifest. -/
theorem depth_toJson_le (manifest : Manifest) : manifest.toJson.depth ≤ 4 := by
  have metadata : manifest.metadata.toJson.depth ≤ 3 := by
    rw [Metadata.toJson]
    split <;> simp [Json.depth, Json.depthMembers]
  have runtimes : (manifest.runtimes.toJson Runtime.toJson).depth ≤ 3 :=
    KeyMap.depth_toJson_le fun _ => Nat.le_refl 2
  have partitions : (manifest.partitions.toJson Partition.toJson).depth ≤ 3 :=
    KeyMap.depth_toJson_le fun _ => Nat.le_succ 1
  simp only [toJson, Json.depth, Json.depthMembers]
  omega

/-- The object of a manifest is read from its bytes in both layouts. -/
theorem ofBytes?_encode (manifest : Manifest) (indented : Bool) :
    Json.ofBytes? (manifest.encode indented) = some manifest.toJson := by
  have shallow : manifest.toJson.depth ≤ Json.Reader.maxDepth :=
    Nat.le_trans manifest.depth_toJson_le (by decide)
  rw [encode, Json.ofBytes?, Bytes.toText?_ofText, Option.bind_some]
  cases indented with
  | true => exact (Json.parse?_pretty manifest.isWhole_toJson).trans (if_pos shallow)
  | false => exact (Json.parse?_compact manifest.isWhole_toJson).trans (if_pos shallow)

/-- A manifest that was written is read back if it is valid, and refused for what is wrong with it
otherwise. -/
theorem decode_encode_eq (manifest : Manifest) (indented : Bool) :
    decode (manifest.encode indented) = manifest.validate.map fun _ => manifest := by
  have read := ofBytes?_encode manifest indented
  have filled : manifest.encode indented ≠ [] := by
    intro empty
    rw [empty] at read
    cases read
  rw [decode, if_neg (by rwa [List.isEmpty_iff]), read, Option.bind_some, ofJson?_toJson]
  show (manifest.validate >>= fun _ => pure manifest) = _
  cases manifest.validate <;> rfl

/-- Manifests are read back from both layouts exactly if they are valid. Their engines have any
versions: a version is the text of its numbers and marks, and each text of numbers and marks is that
of a version. -/
theorem roundTrip_iff_validate :
    (∀ (manifest : Manifest) (indented : Bool),
      decode (manifest.encode indented) = .ok manifest ↔ manifest.validate = .ok ()) ∧
    (∀ version : Version, ∃! parts : Version.Parts, version.text.toList = parts.chars) ∧
    ∀ parts : Version.Parts, ∃ version : Version, version.text.toList = parts.chars := by
  refine ⟨fun manifest indented => ?_, Version.existsUnique_parts, fun parts =>
    ⟨.ofParts parts, String.toList_ofList⟩⟩
  rw [decode_encode_eq]
  cases valid : manifest.validate with
  | ok => exact ⟨fun _ => rfl, fun _ => rfl⟩
  | error refused => exact ⟨nofun, nofun⟩

end Manifest

end PolicyLedger
