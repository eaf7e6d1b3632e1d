/-
**Blanks at the ends.**

Trimming takes a text apart into blanks and what is left (`exists_blanks`, `exists_trimRight`), so it
leaves characters of the text only (`mem_of_mem_trim`); what it leaves is the one part with visible
ends that has nothing but blanks around it (`isTrim_iff`). Printable ASCII characters but the space
are no blanks (`isBlank_of_printable`).
-/

import Mathlib.Data.List.Basic
import PolicyLedger.Text.Blank

namespace PolicyLedger.Text

/-- From the exclamation mark to the tilde there are no blanks. -/
theorem isBlank_of_printable {c : Char} (low : '!' ≤ c) (high : c ≤ '~') : isBlank c = false := by
  have above : 33 ≤ c.toNat := low
  have below : c.toNat ≤ 126 := high
  rw [Bool.eq_false_iff]
  intro blank
  simp only [isBlank, Bool.or_eq_true, Bool.and_eq_true, decide_eq_true_eq, beq_iff_eq] at blank
  omega

theorem hasBlank_eq_false_iff {text : String} :
    hasBlank text = false ↔ ∀ c ∈ text.toList, isBlank c = false := by
  simp only [hasBlank, List.any_eq_false, Bool.not_eq_true]

theorem trimLeft_of_visible {c : Char} (visible : isBlank c = false) (cs : List Char) :
    trimLeft (c :: cs) = c :: cs := by
  rw [trimLeft, List.dropWhile_cons_of_neg (by simp [visible])]

/-- Blanks at the end are those of the last part that has something else. -/
theorem trimRight_append (front back : List Char) :
    trimRight (front ++ back) =
      if trimRight back = [] then trimRight front else front ++ trimRight back := by
  simp only [trimRight, List.reverse_append, List.dropWhile_append, List.reverse_eq_nil_iff,
    List.isEmpty_iff]
  split
  · rfl
  · rw [List.reverse_append, List.reverse_reverse]

/-- A visible character stays with what follows it. -/
theorem trimRight_cons {c : Char} (visible : isBlank c = false) (cs : List Char) :
    trimRight (c :: cs) = c :: trimRight cs := by
  have alone : trimRight [c] = [c] := by simp [trimRight, visible]
  rw [← List.singleton_append, trimRight_append]
  split
  next blank => rw [alone, blank]
  next => rfl

/-- What stands behind the blanks at the beginning. -/
theorem exists_blanks (cs : List Char) :
    ∃ blanks, cs = blanks ++ trimLeft cs ∧ ∀ c ∈ blanks, isBlank c = true :=
  ⟨cs.takeWhile isBlank, List.takeWhile_append_dropWhile.symm,
    List.all_eq_true.mp List.all_takeWhile⟩

theorem visible_of_trimLeft {cs more : List Char} {c : Char} (begins : trimLeft cs = c :: more) :
    isBlank c = false := by
  have stopped := List.head?_dropWhile_not isBlank cs
  rw [trimLeft] at begins
  rw [begins] at stopped
  simpa using stopped

/-- What is left of the end is a beginning. -/
theorem exists_trimRight (cs : List Char) : ∃ blanks, cs = trimRight cs ++ blanks := by
  refine ⟨(cs.reverse.takeWhile isBlank).reverse, ?_⟩
  rw [trimRight, ← List.reverse_append, List.takeWhile_append_dropWhile, List.reverse_reverse]

/-- Trimming leaves characters of the text only. -/
theorem mem_of_mem_trim {cs : List Char} {c : Char} (inside : c ∈ trim cs) : c ∈ cs := by
  obtain ⟨front, wholeLeft, _⟩ := exists_blanks cs
  obtain ⟨back, wholeRight⟩ := exists_trimRight (trimLeft cs)
  rw [wholeLeft, wholeRight]
  exact List.mem_append_right front (List.mem_append_left back inside)

/-! ### Visible ends -/

variable {cs : List Char} {c : Char}

theorem trimLeft_ne_nil (last : cs.getLast? = some c) (visible : isBlank c = false) :
    trimLeft cs ≠ [] := by
  obtain ⟨blanks, whole, white⟩ := exists_blanks cs
  intro empty
  rw [empty, List.append_nil] at whole
  rw [white c (whole ▸ List.mem_of_getLast? last)] at visible
  cases visible

/-- A visible character at the end stays there. -/
theorem getLast?_trimLeft (last : cs.getLast? = some c) (visible : isBlank c = false) :
    (trimLeft cs).getLast? = some c := by
  obtain ⟨blanks, whole, _⟩ := exists_blanks cs
  have nonempty := trimLeft_ne_nil last visible
  rwa [whole, List.getLast?_append_of_ne_nil _ nonempty] at last

theorem trimRight_of_getLast? (last : cs.getLast? = some c) (visible : isBlank c = false) :
    trimRight cs = cs := by
  obtain ⟨front, rfl⟩ := List.getLast?_eq_some_iff.mp last
  rw [trimRight, List.reverse_append]
  simp [visible]

theorem trim_of_getLast? (last : cs.getLast? = some c) (visible : isBlank c = false) :
    trim cs = trimLeft cs :=
  trimRight_of_getLast? (getLast?_trimLeft last visible) visible

/-! ### What is left of a text -/

/-- A text is another one with blanks around it, and the other has none at its ends. -/
structure IsTrim (text core : List Char) : Prop where
  within : ∃ front back, text = front ++ (core ++ back) ∧
    (∀ c ∈ front, isBlank c = true) ∧ ∀ c ∈ back, isBlank c = true
  first : ∀ c ∈ core.head?, isBlank c = false
  last : ∀ c ∈ core.getLast?, isBlank c = false

theorem trimLeft_append_of_blank {front : List Char} (blank : ∀ c ∈ front, isBlank c = true)
    (cs : List Char) : trimLeft (front ++ cs) = trimLeft cs :=
  List.dropWhile_append_of_pos blank

theorem trimRight_append_of_blank {back : List Char} (blank : ∀ c ∈ back, isBlank c = true)
    (cs : List Char) : trimRight (cs ++ back) = trimRight cs := by
  have reversed : ∀ c ∈ back.reverse, isBlank c = true := fun c inside =>
    blank c (List.mem_reverse.mp inside)
  rw [trimRight, List.reverse_append, List.dropWhile_append_of_pos reversed]
  rfl

/-- Blanks around a text with visible ends are what trimming drops. -/
theorem IsTrim.trim_eq {text core : List Char} (left : IsTrim text core) : trim text = core := by
  obtain ⟨front, back, rfl, leading, trailing⟩ := left.within
  rw [trim, trimLeft_append_of_blank leading]
  cases core with
  | nil =>
    have blanks := trimLeft_append_of_blank trailing []
    rw [List.append_nil] at blanks
    rw [List.nil_append, blanks]
    rfl
  | cons c core =>
    rw [List.cons_append, trimLeft_of_visible (left.first c rfl), ← List.cons_append,
      trimRight_append_of_blank trailing]
    have last := List.getLast?_eq_some_getLast (List.cons_ne_nil c core)
    exact trimRight_of_getLast? last (left.last _ last)

theorem isTrim_trim (text : List Char) : IsTrim text (trim text) := by
  obtain ⟨front, whole, leading⟩ := exists_blanks text
  obtain ⟨back, rest, trailing⟩ := exists_blanks (trimLeft text).reverse
  have split : trimLeft text = trim text ++ back.reverse := by
    rw [trim, trimRight, ← List.reverse_append, ← trimLeft, ← rest, List.reverse_reverse]
  refine ⟨⟨front, back.reverse, split ▸ whole, leading, fun c inside =>
    trailing c (List.mem_reverse.mp inside)⟩, fun c begins => ?_, fun c ends => ?_⟩
  · obtain ⟨more, first⟩ := List.head?_eq_some_iff.mp begins
    rw [first, List.cons_append] at split
    exact visible_of_trimLeft split
  · obtain ⟨more, last⟩ := List.getLast?_eq_some_iff.mp ends
    have reversed : trimLeft (trimLeft text).reverse = c :: more.reverse := by
      rw [← List.reverse_reverse (trimLeft (trimLeft text).reverse)]
      show (trim text).reverse = _
      rw [last, List.reverse_append]
      rfl
    exact visible_of_trimLeft reversed

theorem isTrim_iff {text core : List Char} : IsTrim text core ↔ trim text = core :=
  ⟨IsTrim.trim_eq, fun same => same ▸ isTrim_trim text⟩

end PolicyLedger.Text
