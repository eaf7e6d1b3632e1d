/-
**What versions are.**

`Version.Parts` are three numbers of 64 bits, the marks of a pre-release and the marks of a build.
Versions are their texts (`Version.isVersion_iff`), and different parts have different texts
(`Version.Parts.chars_injective`). Both follow from one fact about a front with marks behind a
separator, used for the pre-release and again for the build (`Version.isMarked_iff`,
`Version.append_marked_inj`).
-/

import PolicyLedger.Manifest.Version
import PolicyLedger.Proofs.Text.Digit
import PolicyLedger.Proofs.Text.Split

namespace PolicyLedger

namespace Version

variable {separator : Char} {cs : List Char}

/-- The numbers of versions are those of 64 bits. -/
theorem isNumber_iff :
    isNumber cs = true ↔ ∃ number : UInt64, cs = Nat.toDigits 10 number.toNat := by
  rw [isNumber, Bool.and_eq_true, Text.isPlainNumber_iff, decide_eq_true_eq]
  constructor
  · rintro ⟨written, small⟩
    exact ⟨.ofNatLT _ small, written⟩
  · rintro ⟨number, rfl⟩
    rw [Text.decimalValue_toDigits]
    exact ⟨rfl, number.toNat_lt⟩

/-! ### Marks behind a separator -/

/-- Marks behind a separator, with points between them; nothing if there are none. -/
def marked (separator : Char) : List (List Char) → List Char
  | [] => []
  | mark :: marks => separator :: Text.join '.' (mark :: marks)

/-- Holds of a front and, if a separator follows, of the marks behind it. -/
def isMarked (separator : Char) (isFront isMark : List Char → Bool) (cs : List Char) : Bool :=
  match Text.splitFirst? [separator] cs with
  | none => isFront cs
  | some (front, marks) => isFront front && (Text.pieces '.' marks).all isMark

theorem splitFirst?_append_marked {front : List Char} (free : separator ∉ front)
    (marks : List (List Char)) :
    Text.splitFirst? [separator] (front ++ marked separator marks) =
      if marks = [] then none else some (front, Text.join '.' marks) := by
  cases marks with
  | nil =>
    rw [marked, List.append_nil, if_pos rfl]
    exact Text.splitFirst?_of_not_mem free
  | cons mark marks =>
    rw [if_neg (List.cons_ne_nil _ _)]
    exact Text.splitFirst?_append free _

/-- A front has marks behind it in one way. -/
theorem append_marked_inj {front front' : List Char} {marks marks' : List (List Char)}
    (free : separator ∉ front) (free' : separator ∉ front')
    (pointless : ∀ mark ∈ marks, '.' ∉ mark) (pointless' : ∀ mark ∈ marks', '.' ∉ mark)
    (same : front ++ marked separator marks = front' ++ marked separator marks') :
    front = front' ∧ marks = marks' := by
  have split := splitFirst?_append_marked free marks
  rw [same, splitFirst?_append_marked free' marks'] at split
  by_cases unmarked : marks = []
  · subst unmarked
    by_cases unmarked' : marks' = []
    · subst unmarked'
      simpa only [marked, List.append_nil, and_true] using same
    · rw [if_neg unmarked', if_pos rfl] at split
      cases split
  · by_cases unmarked' : marks' = []
    · rw [if_pos unmarked', if_neg unmarked] at split
      cases split
    · rw [if_neg unmarked', if_neg unmarked, Option.some_inj, Prod.mk.injEq] at split
      have pieces := congrArg (Text.pieces '.') split.2
      rw [Text.pieces_join unmarked' pointless', Text.pieces_join unmarked pointless] at pieces
      exact ⟨split.1.symm, pieces.symm⟩

/-- What is read as a front with marks is one. -/
theorem isMarked_iff {isFront isMark : List Char → Bool}
    (free : ∀ {front}, isFront front = true → separator ∉ front)
    (pointless : ∀ {mark}, isMark mark = true → '.' ∉ mark) :
    isMarked separator isFront isMark cs = true ↔
      ∃ front marks, isFront front = true ∧ (∀ mark ∈ marks, isMark mark = true) ∧
        cs = front ++ marked separator marks := by
  constructor
  · intro held
    rw [isMarked] at held
    split at held
    next => exact ⟨cs, [], held, nofun, (List.append_nil cs).symm⟩
    next front rest split =>
      rw [Bool.and_eq_true, List.all_eq_true] at held
      refine ⟨front, Text.pieces '.' rest, held.1, held.2, ?_⟩
      rw [Text.eq_append_of_splitFirst? split, List.append_assoc]
      obtain ⟨mark, marks, cut⟩ := List.exists_cons_of_ne_nil (Text.pieces_ne_nil '.' rest)
      rw [cut, marked, ← cut, Text.join_pieces]
      rfl
  · rintro ⟨front, marks, frontHeld, marksHeld, rfl⟩
    rw [isMarked, splitFirst?_append_marked (free frontHeld)]
    cases marks with
    | nil =>
      rw [if_pos rfl, marked, List.append_nil]
      exact frontHeld
    | cons mark marks =>
      rw [if_neg (List.cons_ne_nil _ _)]
      show (isFront front && (Text.pieces '.' (Text.join '.' (mark :: marks))).all isMark) = true
      rw [Text.pieces_join (List.cons_ne_nil _ _) fun mark inside =>
        pointless (marksHeld mark inside), frontHeld, Bool.true_and, List.all_eq_true]
      exact marksHeld

/-! ### Parts -/

/-- The numbers and marks of a version. -/
structure Parts where
  major : UInt64
  minor : UInt64
  patch : UInt64
  preRelease : List (List Char)
  build : List (List Char)
  preReleaseMarks : ∀ mark ∈ preRelease, isPreRelease mark = true
  buildMarks : ∀ mark ∈ build, isBuild mark = true

namespace Parts

/-- The three numbers, with points between them. -/
def core (major minor patch : UInt64) : List Char :=
  Text.join '.' ([major, minor, patch].map fun number => Nat.toDigits 10 number.toNat)

/-- The text of a version with some parts. -/
def chars (parts : Parts) : List Char :=
  core parts.major parts.minor parts.patch ++ marked '-' parts.preRelease ++
    marked '+' parts.build

end Parts

theorem isMark_of_isBuild {mark : List Char} (build : isBuild mark = true) {c : Char}
    (inside : c ∈ mark) : isMark c = true := by
  rw [isBuild, Bool.and_eq_true, List.all_eq_true] at build
  exact build.2 c inside

theorem isBuild_of_isPreRelease {mark : List Char} (preRelease : isPreRelease mark = true) :
    isBuild mark = true := by
  rw [isPreRelease, Bool.and_eq_true] at preRelease
  exact preRelease.1

theorem not_mem_of_isBuild {mark : List Char} (build : isBuild mark = true) : '.' ∉ mark :=
  fun inside => absurd (isMark_of_isBuild build inside) (by decide)

theorem digit_or_point_of_mem_core {major minor patch : UInt64} {c : Char}
    (inside : c ∈ Parts.core major minor patch) : c = '.' ∨ Text.isDigit c = true := by
  obtain point | ⟨word, listed, here⟩ := Text.mem_join inside
  · exact .inl point
  · obtain ⟨number, _, rfl⟩ := List.mem_map.mp listed
    exact .inr (Text.isDigit_of_mem_toDigits here)

theorem pieces_core (major minor patch : UInt64) :
    Text.pieces '.' (Parts.core major minor patch) =
      [major, minor, patch].map fun number => Nat.toDigits 10 number.toNat := by
  refine Text.pieces_join (List.cons_ne_nil _ _) fun word listed => ?_
  obtain ⟨number, _, rfl⟩ := List.mem_map.mp listed
  exact fun inside => absurd (Text.isDigit_of_mem_toDigits inside) (by decide)

theorem isCore_iff : isCore cs = true ↔ ∃ major minor patch, cs = Parts.core major minor patch := by
  constructor
  · intro core
    simp only [isCore, Bool.and_eq_true, beq_iff_eq, List.all_eq_true] at core
    obtain ⟨major, minor, patch, pieces⟩ := List.length_eq_three.mp core.1
    rw [pieces] at core
    obtain ⟨majorHeld, minorHeld, patchHeld⟩ := by simpa using core.2
    obtain ⟨major, rfl⟩ := isNumber_iff.mp majorHeld
    obtain ⟨minor, rfl⟩ := isNumber_iff.mp minorHeld
    obtain ⟨patch, rfl⟩ := isNumber_iff.mp patchHeld
    exact ⟨major, minor, patch, by rw [← Text.join_pieces '.' cs, pieces]; rfl⟩
  · rintro ⟨major, minor, patch, rfl⟩
    have number : ∀ number : UInt64, isNumber (Nat.toDigits 10 number.toNat) = true := fun number =>
      isNumber_iff.mpr ⟨number, rfl⟩
    rw [isCore, pieces_core]
    simp [number]

theorem not_mem_core {major minor patch : UInt64} {c : Char} (point : c ≠ '.')
    (digit : Text.isDigit c = false) : c ∉ Parts.core major minor patch := by
  intro inside
  obtain rfl | read := digit_or_point_of_mem_core inside
  · exact point rfl
  · rw [digit] at read
    cases read

/-- No plus sign stands in front of the marks of a build. -/
theorem not_mem_release {major minor patch : UInt64} {marks : List (List Char)}
    (preRelease : ∀ mark ∈ marks, isPreRelease mark = true) :
    '+' ∉ Parts.core major minor patch ++ marked '-' marks := by
  rw [List.mem_append, not_or]
  refine ⟨not_mem_core (by decide) rfl, ?_⟩
  cases marks with
  | nil => exact List.not_mem_nil
  | cons mark marks =>
    rw [marked, List.mem_cons, not_or]
    refine ⟨by decide, fun inside => ?_⟩
    obtain point | ⟨word, listed, here⟩ := Text.mem_join inside
    · cases point
    · exact absurd (isMark_of_isBuild (isBuild_of_isPreRelease (preRelease word listed)) here)
        (by decide)

theorem isRelease_iff : isRelease cs = true ↔ ∃ major minor patch marks,
    (∀ mark ∈ marks, isPreRelease mark = true) ∧
      cs = Parts.core major minor patch ++ marked '-' marks := by
  have free : ∀ {front}, isCore front = true → '-' ∉ front := by
    intro front core
    obtain ⟨major, minor, patch, rfl⟩ := isCore_iff.mp core
    exact not_mem_core (by decide) rfl
  have pointless : ∀ {mark}, isPreRelease mark = true → '.' ∉ mark := fun preRelease =>
    not_mem_of_isBuild (isBuild_of_isPreRelease preRelease)
  show isMarked '-' isCore isPreRelease cs = true ↔ _
  rw [isMarked_iff free pointless]
  constructor
  · rintro ⟨front, marks, core, preRelease, whole⟩
    obtain ⟨major, minor, patch, rfl⟩ := isCore_iff.mp core
    exact ⟨major, minor, patch, marks, preRelease, whole⟩
  · rintro ⟨major, minor, patch, marks, preRelease, whole⟩
    exact ⟨_, marks, isCore_iff.mpr ⟨major, minor, patch, rfl⟩, preRelease, whole⟩

/-- Versions are the texts of parts. -/
theorem isVersion_iff : isVersion cs = true ↔ ∃ parts : Parts, cs = parts.chars := by
  have free : ∀ {front}, isRelease front = true → '+' ∉ front := by
    intro front release
    obtain ⟨major, minor, patch, marks, preRelease, rfl⟩ := isRelease_iff.mp release
    exact not_mem_release preRelease
  show isMarked '+' isRelease isBuild cs = true ↔ _
  rw [isMarked_iff free not_mem_of_isBuild]
  constructor
  · rintro ⟨front, build, release, buildMarks, whole⟩
    obtain ⟨major, minor, patch, marks, preRelease, rfl⟩ := isRelease_iff.mp release
    exact ⟨⟨major, minor, patch, marks, build, preRelease, buildMarks⟩, whole⟩
  · rintro ⟨parts, rfl⟩
    exact ⟨_, parts.build, isRelease_iff.mpr ⟨_, _, _, _, parts.preReleaseMarks, rfl⟩,
      parts.buildMarks, rfl⟩

namespace Parts

theorem core_inj {major minor patch major' minor' patch' : UInt64}
    (same : core major minor patch = core major' minor' patch') :
    major = major' ∧ minor = minor' ∧ patch = patch' := by
  have pieces := congrArg (Text.pieces '.') same
  rw [pieces_core, pieces_core] at pieces
  have numbers := congrArg (List.map Text.decimalValue) pieces
  simpa [Text.decimalValue_toDigits, UInt64.toNat_inj] using numbers

/-- Different parts have different texts. -/
theorem chars_injective {parts parts' : Parts} (same : parts.chars = parts'.chars) :
    parts = parts' := by
  obtain ⟨release, build⟩ := append_marked_inj (not_mem_release parts.preReleaseMarks)
    (not_mem_release parts'.preReleaseMarks)
    (fun mark inside => not_mem_of_isBuild (parts.buildMarks mark inside))
    (fun mark inside => not_mem_of_isBuild (parts'.buildMarks mark inside)) same
  obtain ⟨numbers, preRelease⟩ := append_marked_inj (not_mem_core (by decide) rfl)
    (not_mem_core (by decide) rfl)
    (fun mark inside =>
      not_mem_of_isBuild (isBuild_of_isPreRelease (parts.preReleaseMarks mark inside)))
    (fun mark inside =>
      not_mem_of_isBuild (isBuild_of_isPreRelease (parts'.preReleaseMarks mark inside))) release
  obtain ⟨major, minor, patch⟩ := core_inj numbers
  cases parts
  cases parts'
  simp_all

end Parts

/-- A version is the text of its parts, and of no others. -/
theorem existsUnique_parts (version : Version) :
    ∃! parts : Parts, version.text.toList = parts.chars := by
  obtain ⟨parts, written⟩ := isVersion_iff.mp version.valid
  exact ⟨parts, written, fun other same => Parts.chars_injective (same.symm.trans written)⟩

/-- The version with some parts. -/
def ofParts (parts : Parts) : Version where
  text := String.ofList parts.chars
  valid := by
    rw [String.toList_ofList]
    exact isVersion_iff.mpr ⟨parts, rfl⟩

end Version

end PolicyLedger
