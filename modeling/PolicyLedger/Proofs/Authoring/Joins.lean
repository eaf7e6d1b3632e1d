/-
**Parts that the cut joins.**

A comment that a carriage return ends goes on for the cut, up to the line feed. The semicolons in
between end no part, so the cut joins parts that the tokens end (`joins_cut`). It ends no other
parts, unless a text begins in between and goes on behind the line feed (`Apart` says that none
does).
-/

import PolicyLedger.Proofs.Authoring.Cut

namespace PolicyLedger.Statements

open Policy (isLineEnd)

/-! ### Joined neighbours -/

/-- Parts are others with some neighbours joined. -/
inductive Joins : List (List Char) → List (List Char) → Prop
  | last (part : List Char) : Joins [part] [part]
  | keep (part : List Char) {joined parts : List (List Char)} (rest : Joins joined parts) :
    Joins (part :: joined) (part :: parts)
  | join (first : List Char) {second : List Char} {joined parts : List (List Char)}
    (rest : Joins (second :: joined) parts) : Joins ((first ++ second) :: joined) (first :: parts)

namespace Joins

variable {joined parts : List (List Char)}

theorem prepend (c : Char) (joins : Joins joined parts) :
    Joins (prepend c joined) (prepend c parts) := by
  cases joins with
  | last part => exact .last (c :: part)
  | keep part rest => exact .keep (c :: part) rest
  | join first rest => exact .join (c :: first) rest

theorem length_le (joins : Joins joined parts) : joined.length ≤ parts.length := by
  induction joins with
  | last part => exact Nat.le_refl _
  | keep part rest ih => exact Nat.succ_le_succ ih
  | join first rest ih => exact Nat.le_succ_of_le ih

/-- As many parts are the same parts. -/
theorem eq_of_length_le (joins : Joins joined parts) (many : parts.length ≤ joined.length) :
    joined = parts := by
  induction joins with
  | last part => rfl
  | keep part rest ih => rw [ih (Nat.le_of_succ_le_succ many)]
  | join first rest ih => exact absurd (Nat.lt_of_lt_of_le many rest.length_le) (Nat.lt_irrefl _)

/-- One part less is two neighbours joined. -/
theorem exists_of_length (joins : Joins joined parts) (less : parts.length = joined.length + 1) :
    ∃ front first second back, parts = front ++ first :: second :: back ∧
      joined = front ++ (first ++ second) :: back := by
  induction joins with
  | last part => cases less
  | @keep part joined parts rest ih =>
    obtain ⟨front, first, second, back, rfl, rfl⟩ := ih (Nat.succ.inj less)
    exact ⟨part :: front, first, second, back, rfl, rfl⟩
  | @join first second joined parts rest ih =>
    obtain rfl := rest.eq_of_length_le (Nat.le_of_eq (Nat.succ.inj less))
    exact ⟨[], first, second, joined, rfl, rfl⟩

end Joins

/-! ### Comments that go on -/

/-- The cut is where the reader of tokens is, or in a comment. -/
def Behind (mode other : Mode) : Prop := mode = other ∨ mode = .comment

/-- No comment of the cut ends inside a text. The first mode is the one of the cut, the other the
one of the reader of tokens. -/
def Apart (mode other : Mode) : List Char → Prop
  | [] => True
  | c :: rest =>
    (mode = .comment → c = '\n' → other = .code ∨ other = .comment) ∧
      Apart (mode.step (· == '\n') c rest.head?) (other.step isLineEnd c rest.head?) rest

theorem Behind.step {mode other : Mode} (behind : Behind mode other) {c : Char}
    {following : Option Char}
    (outside : mode = .comment → c = '\n' → other = .code ∨ other = .comment) :
    Behind (mode.step (· == '\n') c following) (other.step isLineEnd c following) := by
  by_cases comment : mode = .comment
  · subst comment
    by_cases newline : c = '\n'
    · left
      obtain rfl | rfl := outside rfl newline <;> subst newline <;> rfl
    · right
      rw [Mode.step, if_neg (by simpa using newline)]
  · obtain rfl := behind.resolve_right comment
    left
    cases mode with
    | comment => exact absurd rfl comment
    | _ => rfl

/-- The cut joins parts that the tokens end. -/
theorem joins_cutWhere {mode other : Mode} {source : List Char} (behind : Behind mode other)
    (apart : Apart mode other source) :
    Joins (cutWhere (· == '\n') mode source) (cutWhere isLineEnd other source) := by
  induction source generalizing mode other with
  | nil => exact .last []
  | cons c rest ih =>
    obtain ⟨outside, apart⟩ := apart
    have joins := ih (behind.step outside) apart
    rw [cutWhere, cutWhere]
    by_cases ending : other = .code ∧ c = ';'
    · obtain ⟨rfl, rfl⟩ := ending
      rw [if_pos (show Mode.code = .code ∧ ';' = ';' from ⟨rfl, rfl⟩)]
      obtain rfl | rfl := behind
      · rw [if_pos ⟨rfl, rfl⟩]
        exact .keep [';'] joins
      · -- the comment of the cut hides the semicolon
        rw [if_neg (by decide)]
        obtain ⟨second, others, parts⟩ := List.exists_cons_of_ne_nil
          (cutWhere_ne_nil (· == '\n') (Mode.comment.step (· == '\n') ';' rest.head?) rest)
        rw [parts] at joins ⊢
        exact .join [';'] joins
    · have passes : ¬ (mode = .code ∧ c = ';') := by
        rintro ⟨rfl, same⟩
        obtain rfl | comment := behind
        · exact ending ⟨rfl, same⟩
        · cases comment
      rw [if_neg ending, if_neg passes]
      exact joins.prepend c

/-- The cut of a source joins parts that its tokens end. -/
theorem joins_cut {source : List Char} (apart : Apart .code .code source) :
    Joins (cut .code source) (lexicalCut source) := by
  rw [cut_eq_cutWhere]
  exact joins_cutWhere (.inl rfl) apart

end PolicyLedger.Statements
