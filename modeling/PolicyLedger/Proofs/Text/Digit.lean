/-
**Numbers by their digits.**

Core's `Nat.toDigits` writes decimal digits (`isDigit_of_mem_toDigits`), whose value is the number
again (`decimalValue_toDigits`), and no zero in front of others (`head?_toDigits`). Plain numbers
are the ones that are written in this way (`isPlainNumber_iff`).
-/

import Mathlib.Data.List.Basic
import PolicyLedger.Text.Digit

namespace PolicyLedger.Text

/-! ### Digits of a number -/

theorem isDigit_of_core {c : Char} (digit : c.isDigit = true) : isDigit c = true := by
  simpa [Char.isDigit, isDigit, Char.le_def] using digit

theorem isDigit_of_mem_toDigits {n : Nat} {c : Char} (inside : c ∈ Nat.toDigits 10 n) :
    isDigit c = true :=
  isDigit_of_core (Nat.isDigit_of_mem_toDigits (by decide) (by decide) inside)

theorem head?_toDigits {n : Nat} (positive : 0 < n) : (Nat.toDigits 10 n).head? ≠ some '0' := by
  induction n using Nat.strongRecOn with
  | ind n ih =>
    rw [Nat.toDigits_eq_if (by decide)]
    split
    next small =>
      have all : ∀ m : Fin 10, 0 < m.1 → [Nat.digitChar m.1].head? ≠ some '0' := by decide
      exact all ⟨n, small⟩ positive
    next large =>
      rw [List.head?_append_of_ne_nil _ Nat.toDigits_ne_nil]
      exact ih (n / 10) (by omega) (by omega)

theorem decimalValue_toDigits (value : Nat) : decimalValue (Nat.toDigits 10 value) = value :=
  Nat.ofDigitChars_ten_toDigits

/-! ### The number of some digits -/

variable {c : Char} {digits cs : List Char}

theorem toDigits_digit (digit : isDigit c = true) :
    c.toNat - 48 < 10 ∧ Nat.toDigits 10 (c.toNat - 48) = [c] := by
  simp only [isDigit, Bool.and_eq_true, decide_eq_true_eq] at digit
  have low : 48 ≤ c.toNat := digit.1
  have high : c.toNat ≤ 57 := digit.2
  have small : c.toNat - 48 < 10 := by omega
  refine ⟨small, ?_⟩
  rw [Nat.toDigits_of_lt_base small, List.cons.injEq, ← Char.toNat_inj,
    Nat.toNat_digitChar_of_lt_ten small]
  exact ⟨by omega, rfl⟩

/-- Digits behind those of a positive number are the digits of the number they continue. -/
theorem toDigits_append_digits {value : Nat} (positive : 0 < value)
    (all : ∀ c ∈ digits, isDigit c = true) :
    Nat.toDigits 10 value ++ digits = Nat.toDigits 10 (Nat.ofDigitChars 10 digits value) := by
  induction digits generalizing value with
  | nil => rw [List.append_nil, Nat.ofDigitChars_nil]
  | cons c digits ih =>
    rw [List.forall_mem_cons] at all
    obtain ⟨small, one⟩ := toDigits_digit all.1
    have longer := Nat.toDigits_append_toDigits (by decide) positive small
    rw [one] at longer
    rw [Nat.ofDigitChars_cons, ← ih (by omega) all.2]
    show _ = Nat.toDigits 10 (10 * value + (c.toNat - 48)) ++ digits
    rw [← longer, List.append_assoc, List.singleton_append]

/-! ### Plain numbers -/

theorem isPlainNumber_iff_isDigit : isPlainNumber cs = true ↔
    (cs ≠ [] ∧ ∀ c ∈ cs, isDigit c = true) ∧ (cs.head? ≠ some '0' ∨ cs.length = 1) := by
  simp only [isPlainNumber, isDigits, Bool.and_eq_true, Bool.or_eq_true, Bool.not_eq_true',
    List.isEmpty_eq_false_iff, List.all_eq_true, bne_iff_ne, beq_iff_eq]

theorem isPlainNumber_toDigits (value : Nat) : isPlainNumber (Nat.toDigits 10 value) = true := by
  refine isPlainNumber_iff_isDigit.mpr
    ⟨⟨Nat.toDigits_ne_nil, fun _ => isDigit_of_mem_toDigits⟩, ?_⟩
  obtain rfl | positive := Nat.eq_zero_or_pos value
  · exact .inr rfl
  · exact .inl (head?_toDigits positive)

theorem toDigits_decimalValue (plain : isPlainNumber cs = true) :
    Nat.toDigits 10 (decimalValue cs) = cs := by
  obtain ⟨⟨filled, all⟩, unpadded⟩ := isPlainNumber_iff_isDigit.mp plain
  obtain ⟨c, digits, rfl⟩ := List.exists_cons_of_ne_nil filled
  rw [List.forall_mem_cons] at all
  obtain ⟨_, one⟩ := toDigits_digit all.1
  have value : decimalValue (c :: digits) = Nat.ofDigitChars 10 digits (c.toNat - 48) := by
    show Nat.ofDigitChars 10 digits (10 * 0 + (c.toNat - 48)) = _
    rw [Nat.mul_zero, Nat.zero_add]
  obtain zero | positive := Nat.eq_zero_or_pos (c.toNat - 48)
  · -- a zero in front is alone
    rw [zero] at one
    obtain rfl : c = '0' := (List.cons.inj one).1.symm
    obtain other | alone := unpadded
    · exact absurd rfl other
    · rw [List.length_cons, Nat.add_eq_right, List.length_eq_zero_iff] at alone
      rw [alone]
      rfl
  · rw [value, ← toDigits_append_digits positive all.2, one, List.singleton_append]

/-- Plain numbers are the digits of their values. -/
theorem isPlainNumber_iff : isPlainNumber cs = true ↔ cs = Nat.toDigits 10 (decimalValue cs) := by
  constructor
  · exact fun plain => (toDigits_decimalValue plain).symm
  · intro written
    rw [written]
    exact isPlainNumber_toDigits _

end PolicyLedger.Text
