/-
**Written names.**

Every name has one written form. A name that is read has the text it was read from
(`text_of_ofText?`), and a name made of parts of names is read back from its text (`ofText?_text`).
-/

import Mathlib.Data.List.Forall2
import PolicyLedger.Policy.Name
import PolicyLedger.Proofs.Text.Split

namespace PolicyLedger.Policy.Name

/-- A name is made of parts of names. -/
def IsProper (name : Name) : Prop := ∀ part ∈ name.parts, isNamePart part = true

/-! ### Reading -/

theorem splitParts_ne_nil (fuel : Nat) (cs : List Char) : splitParts fuel cs ≠ [] := by
  cases fuel with
  | zero => simp [splitParts]
  | succ fuel =>
    rw [splitParts]
    split <;> simp

/-- Cutting a name into parts loses nothing. -/
theorem intercalate_splitParts (fuel : Nat) (cs : List Char) :
    [':', ':'].intercalate (splitParts fuel cs) = cs := by
  induction fuel generalizing cs with
  | zero => simp [splitParts]
  | succ fuel ih =>
    rw [splitParts]
    split
    · simp
    next part rest cut =>
      rw [List.intercalate_cons_of_ne_nil (splitParts_ne_nil fuel rest), ih]
      exact (Text.eq_append_of_splitFirst? cut).symm

theorem parts_of_ofParts? {parts : List String} {name : Name} (read : ofParts? parts = some name) :
    name.parts = parts := by
  rw [ofParts?] at read
  split at read
  · cases read
  next base path reversed =>
    split at read
    · obtain rfl := Option.some.inj read
      rw [Name.parts, ← List.reverse_cons, ← reversed, List.reverse_reverse]
    · cases read

/-- A name that is read has the text it was read from. -/
theorem text_of_ofText? {text : String} {name : Name} (read : ofText? text = some name) :
    name.text = text := by
  rw [Name.text, parts_of_ofParts? read]
  apply String.toList_inj.mp
  rw [String.toList_intercalate, List.map_map]
  have same : (String.toList ∘ String.ofList) = id := funext fun _ => String.toList_ofList
  rw [same, List.map_id]
  exact intercalate_splitParts _ _

theorem isProper_of_ofParts? {parts : List String} {name : Name}
    (read : ofParts? parts = some name) : name.IsProper := by
  have whole := parts_of_ofParts? read
  rw [ofParts?] at read
  split at read
  · cases read
  · split at read
    next all => exact fun part inside => List.all_eq_true.mp all part (whole ▸ inside)
    next => cases read

/-- The parts of a proper name make the name. -/
theorem ofParts?_parts {name : Name} (proper : name.IsProper) :
    ofParts? name.parts = some name := by
  have all : name.parts.all isNamePart = true := List.all_eq_true.mpr proper
  have reversed : name.parts.reverse = name.base :: name.path.reverse := by
    rw [parts, List.reverse_append, List.reverse_singleton, List.singleton_append]
  rw [ofParts?, reversed]
  simp only [all, if_true, List.reverse_reverse]

/-! ### Reading back -/

/-- There is no colon in a part of a name. -/
theorem colon_not_mem_of_isNamePart {part : String} (proper : isNamePart part = true) :
    ':' ∉ part.toList := by
  rw [isNamePart, Bool.and_eq_true, Bool.and_eq_true] at proper
  intro inside
  cases letters : part.toList with
  | nil =>
    rw [letters] at inside
    cases inside
  | cons c rest =>
    have identifier := proper.1.1
    rw [letters] at inside identifier
    rw [isIdentifier, Bool.and_eq_true, List.all_eq_true] at identifier
    obtain rfl | inside := List.mem_cons.mp inside
    · exact absurd identifier.1 (by decide)
    · exact absurd (identifier.2 _ inside) (by decide)

/-- Parts without colons are cut where they were joined. -/
theorem splitParts_intercalate {parts : List (List Char)} (nonempty : parts ≠ [])
    (free : ∀ part ∈ parts, ':' ∉ part) {fuel : Nat} (enough : parts.length ≤ fuel + 1) :
    splitParts fuel ([':', ':'].intercalate parts) = parts := by
  induction parts generalizing fuel with
  | nil => exact absurd rfl nonempty
  | cons part rest ih =>
    rw [List.forall_mem_cons] at free
    cases rest with
    | nil =>
      rw [List.intercalate_singleton]
      cases fuel with
      | zero => rfl
      | succ fuel =>
        rw [splitParts, Text.splitFirst?_of_not_mem free.1]
    | cons other others =>
      simp only [List.length_cons] at enough
      obtain ⟨fuel, rfl⟩ : ∃ less, fuel = less + 1 := ⟨fuel - 1, by omega⟩
      have first := @Text.splitFirst?_append ':' [':'] part free.1
        ([':', ':'].intercalate (other :: others))
      rw [List.intercalate_cons_of_ne_nil (List.cons_ne_nil _ _), List.append_assoc,
        List.cons_append, splitParts, first]
      show part :: splitParts fuel ([':', ':'].intercalate (other :: others)) = _
      rw [ih (List.cons_ne_nil _ _) free.2 (by rw [List.length_cons]; omega)]

theorem length_le_intercalate (parts : List (List Char)) :
    parts.length ≤ ([':', ':'].intercalate parts).length + 1 := by
  induction parts with
  | nil => simp
  | cons part rest ih =>
    cases rest with
    | nil => simp
    | cons other others =>
      rw [List.intercalate_cons_of_ne_nil (List.cons_ne_nil _ _)]
      simp only [List.length_cons, List.length_append] at ih ⊢
      omega

/-- A proper name is read back from its written form. -/
theorem ofText?_text {name : Name} (proper : name.IsProper) : ofText? name.text = some name := by
  have parts : name.text.toList = [':', ':'].intercalate (name.parts.map String.toList) := by
    rw [text, String.toList_intercalate]
    rfl
  have free : ∀ part ∈ name.parts.map String.toList, ':' ∉ part := by
    intro part inside
    obtain ⟨text, there, rfl⟩ := List.mem_map.mp inside
    exact colon_not_mem_of_isNamePart (proper text there)
  have nonempty : name.parts.map String.toList ≠ [] := by simp [Name.parts]
  have same : (String.ofList ∘ String.toList) = id := funext fun _ => String.ofList_toList
  rw [ofText?]
  simp only [parts]
  rw [splitParts_intercalate nonempty free (length_le_intercalate _), List.map_map, same,
    List.map_id, ofParts?_parts proper]

end PolicyLedger.Policy.Name
