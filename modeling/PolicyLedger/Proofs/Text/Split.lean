/-
**Parts that were joined.**

Words without a separator are cut where they were joined: at the first separator (`splitFirst?_append`)
and at all of them (`pieces_join`). Lines that are not empty are cut from what follows an empty line
(`splitFirst?_join`).
-/

import PolicyLedger.Text.Split

namespace PolicyLedger.Text

variable {separator : Char} {expected : List Char}

theorem isSome_stripStart?_iff {cs : List Char} :
    (stripStart? expected cs).isSome = true ↔ expected <+: cs := by
  rw [Option.isSome_iff_exists]
  refine exists_congr fun rest => ⟨fun stripped => (eq_append_of_stripStart? stripped).symm, ?_⟩
  rintro rfl
  exact stripStart?_append expected rest

/-! ### The first separator -/

theorem splitFirst?_cons_of_ne {c : Char} (other : separator ≠ c) (cs : List Char) :
    splitFirst? (separator :: expected) (c :: cs) =
      (splitFirst? (separator :: expected) cs).map fun (before, after) => (c :: before, after) := by
  rw [splitFirst?, stripStart?, if_neg other]

/-- A word without the separator's first character passes. -/
theorem splitFirst?_append_of_not_mem {word : List Char} (free : separator ∉ word)
    (cs : List Char) :
    splitFirst? (separator :: expected) (word ++ cs) =
      (splitFirst? (separator :: expected) cs).map fun (before, after) =>
        (word ++ before, after) := by
  induction word with
  | nil => simp
  | cons c word ih =>
    rw [List.mem_cons, not_or] at free
    rw [List.cons_append, splitFirst?_cons_of_ne free.1, ih free.2, Option.map_map]
    rfl

theorem splitFirst?_of_not_mem {cs : List Char} (free : separator ∉ cs) :
    splitFirst? (separator :: expected) cs = none := by
  have passed := @splitFirst?_append_of_not_mem separator expected cs free []
  rw [List.append_nil] at passed
  rw [passed]
  rfl

/-- A word without the separator's first character is cut off in front of the separator. -/
theorem splitFirst?_append {word : List Char} (free : separator ∉ word) (rest : List Char) :
    splitFirst? (separator :: expected) (word ++ separator :: (expected ++ rest)) =
      some (word, rest) := by
  have stripped : stripStart? (separator :: expected) (separator :: (expected ++ rest)) =
      some rest := stripStart?_append (separator :: expected) rest
  rw [splitFirst?_append_of_not_mem free, splitFirst?, stripped]
  simp

/-! ### All separators -/

theorem pieces_append {word : List Char} (free : separator ∉ word) {cs first : List Char}
    {others : List (List Char)} (rest : pieces separator cs = first :: others) :
    pieces separator (word ++ cs) = (word ++ first) :: others := by
  induction word with
  | nil => exact rest
  | cons c word ih =>
    rw [List.mem_cons, not_or] at free
    rw [List.cons_append, pieces, if_neg (Ne.symm free.1), ih free.2]
    rfl

theorem not_mem_of_mem_pieces {cs piece : List Char} (inside : piece ∈ pieces separator cs) :
    separator ∉ piece := by
  induction cs generalizing piece with
  | nil =>
    obtain rfl := List.mem_singleton.mp inside
    exact List.not_mem_nil
  | cons c cs ih =>
    rw [pieces] at inside
    by_cases same : c = separator
    · rw [if_pos same] at inside
      obtain rfl | inside := List.mem_cons.mp inside
      · exact List.not_mem_nil
      · exact ih inside
    · rw [if_neg same] at inside
      obtain ⟨first, others, rest⟩ := List.exists_cons_of_ne_nil (pieces_ne_nil separator cs)
      rw [rest] at inside ih
      obtain rfl | inside := List.mem_cons.mp inside
      · rw [List.mem_cons, not_or]
        exact ⟨Ne.symm same, ih List.mem_cons_self⟩
      · exact ih (List.mem_cons_of_mem _ inside)

theorem pieces_of_not_mem {word : List Char} (free : separator ∉ word) :
    pieces separator word = [word] := by
  have alone := pieces_append free (show pieces separator [] = [[]] from rfl)
  rwa [List.append_nil] at alone

/-- Words without the separator are the pieces of what they are joined to. -/
theorem pieces_join {words : List (List Char)} (nonempty : words ≠ [])
    (free : ∀ word ∈ words, separator ∉ word) : pieces separator (join separator words) = words := by
  induction words with
  | nil => exact absurd rfl nonempty
  | cons word words ih =>
    rw [List.forall_mem_cons] at free
    cases words with
    | nil => exact pieces_of_not_mem free.1
    | cons other others =>
      have cut : pieces separator (separator :: join separator (other :: others)) =
          [] :: other :: others := by
        rw [pieces, if_pos rfl, ih (List.cons_ne_nil _ _) free.2]
      rw [join, pieces_append free.1 cut, List.append_nil]

/-- A character of joined words is the separator or in one of them. -/
theorem mem_join {words : List (List Char)} {c : Char} (inside : c ∈ join separator words) :
    c = separator ∨ ∃ word ∈ words, c ∈ word := by
  induction words with
  | nil => cases inside
  | cons word words ih =>
    cases words with
    | nil => exact .inr ⟨word, List.mem_cons_self, inside⟩
    | cons other others =>
      rw [join, List.mem_append, List.mem_cons] at inside
      obtain here | same | later := inside
      · exact .inr ⟨word, List.mem_cons_self, here⟩
      · exact .inl same
      · obtain same | ⟨found, listed, there⟩ := ih later
        · exact .inl same
        · exact .inr ⟨found, List.mem_cons_of_mem _ listed, there⟩

/-- Words with a separator behind each of them are joined words with one behind the last. -/
theorem flatMap_eq_join {words : List (List Char)} (nonempty : words ≠ []) :
    words.flatMap (· ++ [separator]) = join separator words ++ [separator] := by
  induction words with
  | nil => exact absurd rfl nonempty
  | cons word words ih =>
    cases words with
    | nil => simp [join]
    | cons other others =>
      rw [List.flatMap_cons, ih (List.cons_ne_nil _ _), join, List.append_assoc, List.append_assoc]
      rfl

/-! ### Lines before an empty line -/

/-- Lines that are not empty end at the first empty line. -/
theorem splitFirst?_join {lines : List (List Char)} (nonempty : lines ≠ [])
    (free : ∀ line ∈ lines, separator ∉ line) (filled : ∀ line ∈ lines, line ≠ [])
    (rest : List Char) :
    splitFirst? [separator, separator]
        (join separator lines ++ separator :: separator :: rest) =
      .some (join separator lines, rest) := by
  induction lines with
  | nil => exact absurd rfl nonempty
  | cons line lines ih =>
    rw [List.forall_mem_cons] at free filled
    cases lines with
    | nil => exact splitFirst?_append free.1 rest
    | cons other others =>
      have later := ih (List.cons_ne_nil _ _) free.2 filled.2
      obtain ⟨c, cs, begins⟩ := List.exists_cons_of_ne_nil
        (filled.2 other List.mem_cons_self)
      have visible : separator ≠ c := by
        rintro rfl
        exact free.2 other List.mem_cons_self (begins ▸ List.mem_cons_self)
      have first : ∃ after, join separator (other :: others) = c :: after := by
        cases others with
        | nil => exact ⟨cs, begins⟩
        | cons next more => exact ⟨cs ++ separator :: join separator (next :: more), by
            rw [join, begins, List.cons_append]⟩
      obtain ⟨after, whole⟩ := first
      rw [join, List.append_assoc, List.cons_append, splitFirst?_append_of_not_mem free.1]
      rw [whole, List.cons_append] at later ⊢
      rw [splitFirst?, stripStart?, if_pos rfl, stripStart?, if_neg visible, later]
      rfl

end PolicyLedger.Text
