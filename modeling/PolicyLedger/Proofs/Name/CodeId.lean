/-
**Ids of policies.**

A policy goes by its name, or by an id that was generated for it, which would be accepted as a name
as well (`check_of_generated`). What is accepted as a name is a visible text without blanks that is
short enough for a header (`isCodeId_of_check`), and it is in no reserved namespace
(`isReserved_of_isName`). So either can stand in a header and in the line of a tree entry, and no
identifier made of it is taken for one of the platform: `PolicyName.accepted_safe`.
-/

import PolicyLedger.Object.Header
import PolicyLedger.Proofs.Name.Accepted
import PolicyLedger.Proofs.Name.Reserved
import PolicyLedger.Proofs.Object.TreeRoundTrip

namespace PolicyLedger

/-- A digit of ids is a digit or a small letter. -/
theorem PolicyName.isLetterOrDigit_of_isDigit {c : Char} (digit : ObjectId.isDigit c = true) :
    IsLetterOrDigit c := by
  simp only [ObjectId.isDigit, Bool.or_eq_true, Bool.and_eq_true, decide_eq_true_eq] at digit
  exact digit.symm.imp_left fun letter => ⟨letter.1, Char.le_trans letter.2 (by decide)⟩

/-- No name is in the reserved namespace, as that begins with the reserved word. -/
theorem PolicyName.isReserved_of_isName {name : String} (isName : IsName name) :
    isReserved name = false := by
  rw [Bool.eq_false_iff, ne_eq, isReserved_iff, normalized_eq isName.characters]
  rintro (same | ⟨rest, begins⟩)
  · exact isName.free ⟨[], (List.append_nil _).trans same.symm⟩
  · exact isName.free ⟨separator ++ rest, (List.append_assoc _ _ _).symm.trans begins.symm⟩

/-- A field has something to be seen. -/
theorem TreeEntry.IsField.visible {value : String} (field : IsField value) :
    Text.isBlankText value = false := by
  obtain ⟨filled, free⟩ := field
  have nonempty : value.toList ≠ [] := by
    intro empty
    rw [String.toList_eq_nil_iff.mp empty] at filled
    cases filled
  obtain ⟨c, rest, whole⟩ := List.exists_cons_of_ne_nil nonempty
  have inside : c ∈ value.toList := whole ▸ List.mem_cons_self
  rw [Text.isBlankText, List.all_eq_false]
  exact ⟨c, inside, Bool.eq_false_iff.mp (Text.hasBlank_eq_false_iff.mp free c inside)⟩

namespace Authoring

/-- The ids that policies without a name are given: 32 lowercase hexadecimal digits. -/
def IsGeneratedId (id : String) : Prop :=
  id.toList.length = 32 ∧ ∀ c ∈ id.toList, ObjectId.isDigit c = true

/-- A text that a header and a tree entry can have as their code id. -/
structure IsCodeId (id : String) : Prop where
  field : TreeEntry.IsField id
  fits : (Bytes.ofText id).length ≤ Header.maxCodeIdLength

theorem isCodeId_of_check {id : String} (checked : PolicyName.check id = .ok ()) :
    IsCodeId id := by
  have isName := PolicyName.check_eq_ok_iff.mp checked
  refine ⟨⟨?_, ?_⟩, Nat.le_trans isName.short (by decide)⟩
  · rw [Bool.eq_false_iff, ne_eq, String.isEmpty_iff]
    rintro rfl
    exact absurd isName.filled (by decide)
  · exact Text.hasBlank_eq_false_iff.mpr fun c inside => (isName.characters c inside).isBlank_eq

/-- A generated id is accepted as the name of a policy. -/
theorem check_of_generated {id : String} (generated : IsGeneratedId id) :
    PolicyName.check id = .ok () := by
  obtain ⟨size, digits⟩ := generated
  obtain ⟨first, rest, whole⟩ : ∃ first rest, id.toList = first :: rest :=
    List.exists_cons_of_length_eq_add_one size
  have nonempty : id.toList ≠ [] := whole ▸ List.cons_ne_nil first rest
  have inside : first ∈ id.toList := whole ▸ List.mem_cons_self
  have plain : ∀ c ∈ id.toList, PolicyName.IsLetterOrDigit c := fun c inside =>
    PolicyName.isLetterOrDigit_of_isDigit (digits c inside)
  have bytes := Bytes.length_ofText_le id
  rw [size] at bytes
  refine PolicyName.check_eq_ok_iff.mpr ⟨Nat.one_le_iff_ne_zero.mpr fun empty => ?_,
    Nat.le_trans bytes (by decide), fun c inside => .inl (plain c inside),
    ⟨first, by rw [whole, List.head?_cons], plain first inside⟩,
    ⟨_, List.getLast?_eq_some_getLast nonempty, plain _ (List.getLast_mem nonempty)⟩,
    fun begins => ?_⟩
  · rw [Bytes.eq_empty_of_ofText (List.length_eq_zero_iff.mp empty)] at nonempty
    exact nonempty rfl
  · -- the reserved word does not begin with a digit of ids
    rw [whole] at begins
    obtain rfl : 'z' = first := (List.cons_prefix_cons.mp begins).1
    exact absurd (digits 'z' inside) (by decide)

theorem isGeneratedId_digits : IsGeneratedId "0123456789abcdef0123456789abcdef" :=
  ⟨by decide, List.all_eq_true.mp (by decide)⟩

end Authoring

/-- **Names are safe wherever they are used.** Just the texts are accepted that follow the rules for
names. An accepted name or a generated id is not reserved; it is a valid code id, so a header with it
is valid just if its types are known and agree; and every field of a tree entry may hold it, the name
and the code id among them. -/
theorem PolicyName.accepted_safe (name : String) :
    (check name = .ok () ↔ IsName name) ∧
    (check name = .ok () ∨ Authoring.IsGeneratedId name →
      isReserved name = false ∧
      (∀ header : Header, header.codeId = name →
        (header.validate = .ok () ↔ header.HasTypes)) ∧
      ∀ field, TreeEntry.checkField field name = .ok ()) := by
  refine ⟨check_eq_ok_iff, fun either => ?_⟩
  have accepted : check name = .ok () := either.elim id Authoring.check_of_generated
  have codeId := Authoring.isCodeId_of_check accepted
  refine ⟨isReserved_of_isName (check_eq_ok_iff.mp accepted), ?_,
    fun _ => TreeEntry.checkField_eq_ok_iff.mpr codeId.field⟩
  rintro header rfl
  rw [Header.validate_eq_ok_iff]
  exact and_iff_left ⟨codeId.field.visible, codeId.fits⟩

/-- A name with the reserved word inside, and a generated id. -/
theorem PolicyName.accepted_safe_of_innerWord :
    check "a_ztauth--0" = .ok () ∧ IsName "a_ztauth--0" ∧ isReserved "a_ztauth--0" = false ∧
    TreeEntry.checkField "name" "a_ztauth--0" = .ok () ∧
    Authoring.IsGeneratedId "0123456789abcdef0123456789abcdef" ∧
    (Header.mk true 2 0 2 "0123456789abcdef0123456789abcdef" 2).validate = .ok () := by
  obtain ⟨rules, safe⟩ := accepted_safe "a_ztauth--0"
  obtain ⟨-, safeId⟩ := accepted_safe "0123456789abcdef0123456789abcdef"
  have accepted : check "a_ztauth--0" = .ok () := by decide
  obtain ⟨free, -, fields⟩ := safe (.inl accepted)
  obtain ⟨-, headers, -⟩ := safeId (.inr Authoring.isGeneratedId_digits)
  exact ⟨accepted, rules.mp accepted, free, fields "name", Authoring.isGeneratedId_digits,
    (headers _ rfl).mpr ⟨.policy, rfl, rfl⟩⟩

end PolicyLedger
