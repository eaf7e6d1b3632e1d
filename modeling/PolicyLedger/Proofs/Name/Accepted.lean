/-
**Names that are accepted.**

`PolicyName.IsName` has the rules for names, and just the names that follow them are accepted
(`PolicyName.check_eq_ok_iff`). A name has neither blanks nor capitals (`PolicyName.normalized_eq`),
so the rule against the reserved word is the same for the name as it is and in small letters.
-/

import PolicyLedger.Name
import PolicyLedger.Proofs.Object.BlobRoundTrip
import PolicyLedger.Proofs.Text.Case
import PolicyLedger.Proofs.Text.Split

namespace PolicyLedger

namespace PolicyName

/-! ### Characters of names -/

/-- A small letter or a digit. -/
def IsLetterOrDigit (c : Char) : Prop := ('a' ≤ c ∧ c ≤ 'z') ∨ ('0' ≤ c ∧ c ≤ '9')

/-- A character that a name may have inside. -/
def IsCharacter (c : Char) : Prop := IsLetterOrDigit c ∨ c = '-' ∨ c = '_'

variable {c : Char}

theorem isPlain_iff : isPlain c = true ↔ IsLetterOrDigit c := by
  simp only [isPlain, Text.isDigit, IsLetterOrDigit, Bool.or_eq_true, Bool.and_eq_true,
    decide_eq_true_eq]

theorem isInner_iff : isInner c = true ↔ IsCharacter c := by
  simp only [isInner, Bool.or_eq_true, beq_iff_eq, isPlain_iff, IsCharacter, or_assoc]

theorem IsCharacter.isBlank_eq (character : IsCharacter c) : Text.isBlank c = false := by
  obtain (⟨low, high⟩ | ⟨low, high⟩) | rfl | rfl := character
  · exact Text.isBlank_of_printable (Char.le_trans (by decide) low) (Char.le_trans high (by decide))
  · exact Text.isBlank_of_printable (Char.le_trans (by decide) low) (Char.le_trans high (by decide))
  · decide
  · decide

theorem IsCharacter.toLower_eq (character : IsCharacter c) : c.toLower = c := by
  refine Text.toLower_of_not_capital fun ⟨above, below⟩ => ?_
  obtain (⟨low, _⟩ | ⟨_, high⟩) | rfl | rfl := character
  · exact absurd (Char.le_trans low below) (by decide)
  · exact absurd (Char.le_trans above high) (by decide)
  · exact absurd above (by decide)
  · exact absurd below (by decide)

section Rows

variable {cs : List Char} (characters : ∀ c ∈ cs, IsCharacter c)

include characters

theorem lower_eq : Text.lower cs = cs := by
  rw [Text.lower, List.map_congr_left fun c inside => (characters c inside).toLower_eq]
  exact List.map_id' cs

/-- A row of such characters is in small letters and has no blanks. -/
theorem normalized_eq : normalized cs = cs := by
  have visible : ∀ c ∈ cs, (!Text.isBlank c) = true := fun c inside => by
    rw [(characters c inside).isBlank_eq, Bool.not_false]
  rw [normalized, Text.squeeze, List.filter_eq_self.mpr visible, lower_eq characters]

end Rows

/-! ### Names -/

/-- The rules for names: 1 to 254 bytes, the first and the last a letter or a digit, and not the
reserved word in front. -/
structure IsName (name : String) : Prop where
  filled : 1 ≤ (Bytes.ofText name).length
  short : (Bytes.ofText name).length ≤ 254
  characters : ∀ c ∈ name.toList, IsCharacter c
  first : ∃ c, name.toList.head? = some c ∧ IsLetterOrDigit c
  last : ∃ c, name.toList.getLast? = some c ∧ IsLetterOrDigit c
  free : ¬ "ztauth".toList <+: name.toList

theorem isWellFormed_iff {cs : List Char} :
    isWellFormed cs = true ↔ (∀ c ∈ cs, IsCharacter c) ∧
      (∃ c, cs.head? = some c ∧ IsLetterOrDigit c) ∧
      ∃ c, cs.getLast? = some c ∧ IsLetterOrDigit c := by
  simp only [isWellFormed, Bool.and_eq_true, List.all_eq_true, Option.any_eq_true, isInner_iff,
    isPlain_iff, and_assoc]

/-- **Just the names are accepted.** -/
theorem check_eq_ok_iff {name : String} : check name = .ok () ↔ IsName name := by
  have reserved : (Text.stripStart? reservedWord (Text.lower name.toList)).isSome = true ↔
      "ztauth".toList <+: Text.lower name.toList := Text.isSome_stripStart?_iff
  have empty : name.isEmpty = true ↔ (Bytes.ofText name).length = 0 := by
    rw [String.isEmpty_iff, List.length_eq_zero_iff]
    exact ⟨fun same => same ▸ rfl, Bytes.eq_empty_of_ofText⟩
  rw [check]
  constructor
  · intro checked
    split at checked
    · cases checked
    next filled =>
      split at checked
      · cases checked
      next short =>
        split at checked
        · cases checked
        next free =>
          split at checked
          next wellFormed =>
            obtain ⟨characters, first, last⟩ := isWellFormed_iff.mp wellFormed
            rw [reserved, lower_eq characters] at free
            exact ⟨Nat.one_le_iff_ne_zero.mpr (mt empty.mpr filled), Nat.le_of_not_lt short,
              characters, first, last, free⟩
          · cases checked
  · rintro ⟨filled, short, characters, first, last, free⟩
    have wellFormed := isWellFormed_iff.mpr ⟨characters, first, last⟩
    have fits : ¬ maxLength < (Bytes.ofText name).length := Nat.not_lt.mpr short
    rw [if_neg (mt empty.mp (Nat.one_le_iff_ne_zero.mp filled)), if_neg fits,
      if_neg (by rwa [reserved, lower_eq characters]), if_pos wellFormed]

end PolicyName

end PolicyLedger
