/-
**Commits that are made.**

A commit is made of any ids and any message if both names are on one line and both years have four
digits (`Commit.make_eq_ok_iff`). Its names have no blanks at their ends, its moments no fractions,
and its parent is not the id that stands for no object (`Commit.Keeps`). Such a commit is stored if
its payload fits a frame, and what is read back is the commit (`Commit.roundTrip_of_make`).
-/

import PolicyLedger.Proofs.Object.CommitRoundTrip
import PolicyLedger.Proofs.Object.Id

namespace PolicyLedger

open Time (Instant)

/-! ### Signatures -/

namespace Signature

/-- What stands for a name: the part without blanks at its ends, or a word if it has blanks only. -/
inductive StandsFor : String → String → Prop
  | unknown {given : String} (blank : ∀ c ∈ given.toList, Text.isBlank c = true) :
    StandsFor given "unknown"
  | visible {given kept : String} (seen : ∃ c ∈ given.toList, Text.isBlank c = false)
    (trimmed : Text.IsTrim given.toList kept.toList) : StandsFor given kept

/-- A name on one line and a moment in a year of four digits. -/
structure Allows (name : String) (moment : Instant) : Prop where
  lineFeed : '\n' ∉ name.toList
  carriageReturn : '\r' ∉ name.toList
  year : 0 ≤ moment.year ∧ moment.year ≤ 9999

/-- A signature has the name that stands for the given one, and the given second. -/
structure Keeps (signature : Signature) (name : String) (moment : Instant) : Prop where
  name : StandsFor name signature.name
  seconds : signature.moment.seconds = moment.seconds
  fraction : signature.moment.nanoseconds = 0

variable {name : String} {moment : Instant}

theorem standsFor_iff {kept : String} : StandsFor name kept ↔
    kept = if Text.isBlankText name then "unknown" else Text.trimmed name := by
  have blank : Text.isBlankText name = true ↔ ∀ c ∈ name.toList, Text.isBlank c = true :=
    List.all_eq_true
  constructor
  · rintro (blanks | ⟨⟨c, inside, visible⟩, trimmed⟩)
    · rw [if_pos (blank.mpr blanks)]
    · have seen : ¬ Text.isBlankText name = true := fun blanks => by
        rw [blank.mp blanks c inside] at visible
        cases visible
      rw [if_neg seen, Text.trimmed, Text.isTrim_iff.mp trimmed, String.ofList_toList]
  · intro same
    subst same
    split
    next blanks => exact .unknown (blank.mp blanks)
    next visible =>
      refine .visible ?_ (by rw [Text.trimmed, String.toList_ofList]; exact Text.isTrim_trim _)
      rw [blank] at visible
      push Not at visible
      simpa using visible

theorem checkName_eq_ok_iff {kept : String} : checkName name = .ok kept ↔
    ('\n' ∉ name.toList ∧ '\r' ∉ name.toList) ∧ StandsFor name kept := by
  have several : name.toList.any (fun c => c = '\n' || c = '\r') = true ↔
      ¬ ('\n' ∉ name.toList ∧ '\r' ∉ name.toList) := by
    simp [and_or_left, exists_or, ← not_or]
  rw [checkName, standsFor_iff]
  by_cases oneLine : '\n' ∉ name.toList ∧ '\r' ∉ name.toList
  · rw [if_neg fun found => several.mp found oneLine]
    cases Text.isBlankText name <;> simp [oneLine, unknownName, eq_comm]
  · rw [if_pos (several.mpr oneLine)]
    constructor
    · intro made
      cases made
    · exact fun allowed => absurd allowed.1 oneLine

theorem checkMoment_eq_ok_iff {kept : Instant} : checkMoment moment = .ok kept ↔
    (0 ≤ moment.year ∧ moment.year ≤ 9999) ∧ kept.seconds = moment.seconds ∧
      kept.nanoseconds = 0 := by
  obtain ⟨seconds, nanoseconds⟩ := kept
  rw [checkMoment]
  by_cases inRange : 0 ≤ moment.year ∧ moment.year ≤ 9999
  · simp [inRange, Instant.wholeSecond, eq_comm]
  · simp [inRange]

/-- **A signature is made** of a name on one line and a moment in a year of four digits. -/
theorem make_eq_ok_iff {signature : Signature} :
    make name moment = .ok signature ↔ Allows name moment ∧ signature.Keeps name moment := by
  constructor
  · intro made
    obtain ⟨kept, named, rest⟩ := Steps.bind_eq_ok.mp made
    obtain ⟨second, inRange, same⟩ := Steps.bind_eq_ok.mp rest
    obtain rfl := Except.ok.inj same
    obtain ⟨⟨lineFeed, carriageReturn⟩, stands⟩ := checkName_eq_ok_iff.mp named
    obtain ⟨year, seconds, fraction⟩ := checkMoment_eq_ok_iff.mp inRange
    exact ⟨⟨lineFeed, carriageReturn, year⟩, ⟨stands, seconds, fraction⟩⟩
  · rintro ⟨allowed, kept⟩
    refine Steps.bind_eq_ok.mpr ⟨signature.name, checkName_eq_ok_iff.mpr
      ⟨⟨allowed.lineFeed, allowed.carriageReturn⟩, kept.name⟩, ?_⟩
    exact Steps.bind_eq_ok.mpr ⟨signature.moment, checkMoment_eq_ok_iff.mpr
      ⟨allowed.year, kept.seconds, kept.fraction⟩, rfl⟩

theorem exists_keeps (name : String) (moment : Instant) :
    ∃ signature : Signature, signature.Keeps name moment :=
  ⟨⟨_, moment.wholeSecond⟩, standsFor_iff.mpr rfl, rfl, rfl⟩

end Signature

/-! ### Commits -/

namespace Commit

/-- What a commit keeps of the parts that it is made of. -/
structure Keeps (commit : Commit) (tree : ObjectId) (parent : Option ObjectId) (author : String)
    (authored : Instant) (committer : String) (committed : Instant) (message : String) :
    Prop where
  tree : commit.tree = tree
  parent : ∀ id, commit.parent = some id ↔ parent = some id ∧ id ≠ .zero
  author : commit.author.Keeps author authored
  committer : commit.committer.Keeps committer committed
  message : commit.message = message

variable {tree : ObjectId} {parent : Option ObjectId} {author committer message : String}
  {authored committed : Instant}

/-- The parent that is kept is one that stands for an object. -/
theorem filter_isZero_eq_some_iff {id : ObjectId} :
    parent.filter (fun id => !id.isZero) = some id ↔ parent = some id ∧ id ≠ .zero := by
  simp [Option.filter_eq_some_iff, ObjectId.isZero]

/-- **A commit is made** if both of its signatures are. -/
theorem make_eq_ok_iff {commit : Commit} :
    make tree parent author authored committer committed message = .ok commit ↔
      (Signature.Allows author authored ∧ Signature.Allows committer committed) ∧
        commit.Keeps tree parent author authored committer committed message := by
  constructor
  · intro made
    obtain ⟨first, authorMade, rest⟩ := Steps.bind_eq_ok.mp made
    obtain ⟨second, committerMade, same⟩ := Steps.bind_eq_ok.mp rest
    obtain rfl := Except.ok.inj same
    obtain ⟨allowedAuthor, keepsAuthor⟩ := Signature.make_eq_ok_iff.mp authorMade
    obtain ⟨allowedCommitter, keepsCommitter⟩ := Signature.make_eq_ok_iff.mp committerMade
    exact ⟨⟨allowedAuthor, allowedCommitter⟩, rfl, fun _ => filter_isZero_eq_some_iff,
      keepsAuthor, keepsCommitter, rfl⟩
  · rintro ⟨⟨allowedAuthor, allowedCommitter⟩, kept⟩
    refine Steps.bind_eq_ok.mpr ⟨commit.author,
      Signature.make_eq_ok_iff.mpr ⟨allowedAuthor, kept.author⟩, ?_⟩
    refine Steps.bind_eq_ok.mpr ⟨commit.committer,
      Signature.make_eq_ok_iff.mpr ⟨allowedCommitter, kept.committer⟩, ?_⟩
    have filtered : parent.filter (fun id => !id.isZero) = commit.parent :=
      Option.ext fun id => filter_isZero_eq_some_iff.trans (kept.parent id).symm
    rw [filtered, ← kept.tree, ← kept.message]
    rfl

/-- **What was made is read back.** A commit is made just if no name has a line feed or a carriage
return and both years have four digits. It keeps the ids and the message but for a parent that
stands for no object, the names without blanks at their ends, and the seconds. If its payload fits a
frame it is stored, and the commit that is read from the object is the same. -/
theorem roundTrip_of_make (treeMade : tree.IsMade)
    (parentMade : ∀ id, parent = some id → id.IsMade) :
    ((∃ commit, make tree parent author authored committer committed message = .ok commit) ↔
      Signature.Allows author authored ∧ Signature.Allows committer committed) ∧
    ∀ commit, make tree parent author authored committer committed message = .ok commit →
      commit.Keeps tree parent author authored committer committed message ∧
      (commit.encode.length < 4294967296 →
        ∃ object, commit.toObject = .ok object ∧ ofObject object = .ok commit) := by
  refine ⟨⟨fun ⟨commit, made⟩ => (make_eq_ok_iff.mp made).1, fun allowed => ?_⟩,
    fun commit made => ⟨(make_eq_ok_iff.mp made).2, fun fits => ?_⟩⟩
  · obtain ⟨first, keepsAuthor⟩ := Signature.exists_keeps author authored
    obtain ⟨second, keepsCommitter⟩ := Signature.exists_keeps committer committed
    refine ⟨⟨tree, parent.filter (fun id => !id.isZero), first, second, message⟩, ?_⟩
    exact make_eq_ok_iff.mpr ⟨allowed, rfl, fun _ => filter_isZero_eq_some_iff, keepsAuthor,
      keepsCommitter, rfl⟩
  · obtain ⟨writable, _⟩ := isWritable_of_make made (ObjectId.isMade_iff.mp treeMade)
      fun id there => ObjectId.isMade_iff.mp (parentMade id there)
    obtain ⟨object, stored⟩ := exists_toObject fits
    exact ⟨object, stored, ofObject_of_toObject writable stored⟩

/-- Half a leap second, a name with blanks around it, one of blanks only, and a message that begins
with empty lines. -/
theorem roundTrip_of_leapSecond :
    (ObjectId.of []).IsMade ∧ (∀ id, some ObjectId.zero = some id → id.IsMade) ∧
      Signature.Allows "\talice b " ⟨1483228799, 1500000000⟩ ∧
      Signature.Allows " " ⟨-62167219200, 1⟩ ∧
      ∃ commit object, make (.of []) (some .zero) "\talice b " ⟨1483228799, 1500000000⟩ " "
          ⟨-62167219200, 1⟩ "\n\ntree x" = .ok commit ∧
        commit = ⟨.of [], none, ⟨"alice b", ⟨1483228799, 0⟩⟩, ⟨"unknown", ⟨-62167219200, 0⟩⟩,
          "\n\ntree x"⟩ ∧
        commit.toObject = .ok object ∧ ofObject object = .ok commit := by
  have treeMade := ObjectId.IsMade.digest []
  have parentMade : ∀ id, some ObjectId.zero = some id → id.IsMade := fun id same =>
    Option.some.inj same ▸ .zero
  obtain ⟨allowed, restored⟩ := @roundTrip_of_make (.of []) (some .zero) "\talice b " " "
    "\n\ntree x" ⟨1483228799, 1500000000⟩ ⟨-62167219200, 1⟩ treeMade parentMade
  have made : make (.of []) (some .zero) "\talice b " ⟨1483228799, 1500000000⟩ " "
      ⟨-62167219200, 1⟩ "\n\ntree x" = .ok ⟨.of [], none, ⟨"alice b", ⟨1483228799, 0⟩⟩,
        ⟨"unknown", ⟨-62167219200, 0⟩⟩, "\n\ntree x"⟩ := by
    decide +kernel
  obtain ⟨object, stored, read⟩ := (restored _ made).2 (by decide +kernel)
  obtain ⟨allowsAuthor, allowsCommitter⟩ := allowed.mp ⟨_, made⟩
  exact ⟨treeMade, parentMade, allowsAuthor, allowsCommitter, _, object, made, rfl, stored, read⟩

end Commit

end PolicyLedger
