/-
**Levels of expressions.**

The readers of expressions stand on levels, from primaries to disjunctions, and each reads an
operand on the level below. A row of an operator is read from left to right, and what was read so
far is handed on: `Reads` says what the reader of a level makes of some tokens, `Leads` what it
hands on after them. Both hold for tokens in front of others, as long as these go on with no
operator of the level (`Above`), and for every fuel of ten times the number of tokens and the level.

What is read on a level leads on the level above (`Reads.leads`), and what leads is read
(`Leads.reads`). So every operand is read on every level (`Operand.reads`).
-/

import Mathlib.Data.Nat.Init
import PolicyLedger.Policy.Parser
import PolicyLedger.Proofs.Policy.Renders

namespace PolicyLedger.Policy

/-! ### Tokens between operands -/

/-- The words that comparisons are written with. -/
def comparisonWords : List String := ["in", "has", "like", "is"]

/-- The lowest level whose reader goes on with a token behind an operand; no reader goes on with the
tokens of level 8. -/
def Token.level : Token → Nat
  | .mark .openParen | .mark .colons => 0
  | .mark .dot | .mark .openBracket => 1
  | .mark .times => 3
  | .mark .plus | .mark .minus => 4
  | .mark .equal | .mark .notEqual | .mark .less | .mark .lessEqual | .mark .greater
  | .mark .greaterEqual => 5
  | .mark .and => 6
  | .mark .or => 7
  | .identifier word => if word ∈ comparisonWords then 5 else 8
  | _ => 8

/-- Holds of the tokens that an operand without a sign begins with. -/
def Token.opensOperand : Token → Bool
  | .identifier word => word ≠ "if"
  | .number _ | .text _ => true
  | .mark found => found = .openParen ∨ found = .openBracket ∨ found = .openBrace

/-- Holds of the tokens that an expression begins with. -/
def Token.opens : Token → Bool
  | .mark found =>
    found = .openParen ∨ found = .openBracket ∨ found = .openBrace ∨ found = .not ∨ found = .minus
  | _ => true

theorem Token.opens_of_opensOperand {token : Token} (opens : token.opensOperand = true) :
    token.opens = true := by
  cases token with
  | mark found => cases found <;> first | rfl | cases opens
  | _ => rfl

namespace Parser

/-- Tokens behind an operand go on with no operator below a level. -/
def Above (level : Nat) (rest : List Token) : Prop :=
  ∀ token, rest.head? = some token → level ≤ token.level

theorem Above.mono {level lower : Nat} {rest : List Token} (above : Above level rest)
    (le : lower ≤ level) : Above lower rest :=
  fun token head => Nat.le_trans le (above token head)

theorem above_cons {level : Nat} {token : Token} {rest : List Token} (le : level ≤ token.level) :
    Above level (token :: rest) := by
  intro other head
  exact Option.some.inj head ▸ le

/-! ### Readers by their levels -/

/-- The reader of a level. -/
def reader : Nat → Nat → List Token → Option (Expr × List Token)
  | 0 => primary?
  | 1 => member?
  | 2 => signed?
  | 3 => product?
  | 4 => sum?
  | 5 => relation?
  | 6 => conjunction?
  | _ => expr?

/-- The reader of what follows an operand on a level with rows. -/
def tail? : Nat → Nat → Expr → List Token → Option (Expr × List Token)
  | 1 => accesses?
  | 3 => productTail?
  | 4 => sumTail?
  | 6 => conjunctionTail?
  | _ => disjunctionTail?

/-- The levels with rows. -/
def rowLevels : List Nat := [1, 3, 4, 6, 7]

/-- Some tokens are read as an expression on a level. -/
def Reads (level : Nat) (tokens : List Token) (expr : Expr) : Prop :=
  ∀ rest fuel, Above (level + 1) rest → 10 * tokens.length + level ≤ fuel →
    reader level fuel (tokens ++ rest) = some (expr, rest)

/-- The reader of a level with rows hands an expression on after some tokens. -/
def Leads (level : Nat) (tokens : List Token) (expr : Expr) : Prop :=
  ∀ rest fuel result, Above level rest → 10 * tokens.length + level ≤ fuel →
    (∀ left, fuel ≤ left + tokens.length → tail? level left expr rest = result) →
      reader level fuel (tokens ++ rest) = result

/-- Tokens begin with one that begins no conditional. -/
def NoConditional (tokens : List Token) : Prop :=
  ∃ token rest, tokens = token :: rest ∧ token ≠ .identifier "if"

/-- Tokens begin with one that an operand without a sign begins with. -/
def OpensOperand (tokens : List Token) : Prop :=
  ∃ token rest, tokens = token :: rest ∧ token.opensOperand = true

variable {level fuel : Nat} {tokens more rest : List Token} {left right expr : Expr}

theorem NoConditional.ne_nil (begins : NoConditional tokens) : tokens ≠ [] := by
  obtain ⟨token, rest, rfl, _⟩ := begins
  exact List.cons_ne_nil token rest

theorem NoConditional.append (begins : NoConditional tokens) (more : List Token) :
    NoConditional (tokens ++ more) := by
  obtain ⟨token, rest, rfl, other⟩ := begins
  exact ⟨token, rest ++ more, rfl, other⟩

theorem NoConditional.word?_if (begins : NoConditional tokens) : word? "if" tokens = none := by
  obtain ⟨token, rest, rfl, other⟩ := begins
  cases token with
  | identifier word => exact if_neg fun same => other (congrArg Token.identifier same)
  | _ => rfl

theorem OpensOperand.append (opens : OpensOperand tokens) (more : List Token) :
    OpensOperand (tokens ++ more) := by
  obtain ⟨token, rest, rfl, first⟩ := opens
  exact ⟨token, rest ++ more, rfl, first⟩

theorem OpensOperand.noConditional (opens : OpensOperand tokens) : NoConditional tokens := by
  obtain ⟨token, rest, rfl, first⟩ := opens
  refine ⟨token, rest, rfl, ?_⟩
  rintro rfl
  exact absurd first (by decide)

/-- No sign stands in front of an operand. -/
theorem OpensOperand.countMarks_eq {mark : Mark} (opens : OpensOperand tokens)
    (sign : mark = .not ∨ mark = .minus) : countMarks mark tokens = (0, tokens) := by
  obtain ⟨token, rest, rfl, first⟩ := opens
  cases token with
  | mark found =>
    have other : found ≠ mark := by
      rintro rfl
      obtain rfl | rfl := sign <;> cases first
    rw [countMarks, if_neg other]
  | _ => rfl

/-! ### From level to level -/

/-- A reader of a level with rows reads an operand on the level below and goes on. -/
theorem reader_succ (row : level + 1 ∈ rowLevels) (begins : NoConditional tokens) :
    reader (level + 1) (fuel + 1) tokens =
      (reader level fuel tokens >>= fun (left, rest) => tail? (level + 1) fuel left rest) := by
  simp only [rowLevels, List.mem_cons, List.not_mem_nil, or_false, Nat.reduceEqDiff] at row
  obtain rfl | rfl | rfl | rfl | rfl := row
  case inr.inr.inr.inr =>
    show expr? (fuel + 1) tokens = _
    rw [expr?, begins.word?_if]
    rfl
  all_goals rfl

/-- Where no operator of a level follows, a row ends. -/
theorem tail?_of_above (row : level ∈ rowLevels) (above : Above (level + 1) rest) :
    tail? level (fuel + 1) left rest = some (left, rest) := by
  simp only [rowLevels, List.mem_cons, List.not_mem_nil, or_false] at row
  cases rest with
  | nil => obtain rfl | rfl | rfl | rfl | rfl := row <;> rfl
  | cons token rest =>
    have least := above token rfl
    cases token with
    | mark mark =>
      obtain rfl | rfl | rfl | rfl | rfl := row <;> cases mark <;>
        first | rfl | exact absurd least (by decide)
    | _ => obtain rfl | rfl | rfl | rfl | rfl := row <;> rfl

/-- What is read on a level leads on the level above. -/
theorem Reads.leads (reads : Reads level tokens expr) (row : level + 1 ∈ rowLevels)
    (begins : NoConditional tokens) : Leads (level + 1) tokens expr := by
  intro rest fuel result above enough final
  have length := List.length_pos_iff.mpr begins.ne_nil
  obtain ⟨fuel, rfl⟩ : ∃ less, fuel = less + 1 := ⟨fuel - 1, by omega⟩
  have read := reads rest fuel above (by omega)
  rw [reader_succ row (begins.append rest), read]
  exact final fuel (by omega)

/-- What leads on a level is read on it. -/
theorem Leads.reads (leads : Leads level tokens expr) (row : level ∈ rowLevels) :
    Reads level tokens expr := by
  intro rest fuel above enough
  have positive : 0 < level := by
    rw [Nat.pos_iff_ne_zero]
    rintro rfl
    exact absurd row (by decide)
  refine leads rest fuel _ (above.mono (Nat.le_succ level)) enough fun left large => ?_
  obtain ⟨left, rfl⟩ : ∃ less, left = less + 1 := ⟨left - 1, by omega⟩
  exact tail?_of_above row above

/-- Without a comparison behind it, a sum is read where one may stand. -/
theorem Reads.relation (reads : Reads 4 tokens expr) : Reads 5 tokens expr := by
  intro rest fuel above enough
  obtain ⟨fuel, rfl⟩ : ∃ less, fuel = less + 1 := ⟨fuel - 1, by omega⟩
  have read : sum? fuel (tokens ++ rest) = _ := reads rest fuel (above.mono (by omega)) (by omega)
  show relation? (fuel + 1) (tokens ++ rest) = _
  rw [relation?, read]
  cases rest with
  | nil => rfl
  | cons token rest =>
    have least := above token rfl
    cases token with
    | mark mark => cases mark <;> first | rfl | exact absurd least (by decide)
    | identifier word =>
      have other : word ∉ comparisonWords := fun inside => by
        rw [Token.level, if_pos inside] at least
        exact absurd least (by decide)
      simp only [comparisonWords, List.mem_cons, List.not_mem_nil, or_false, not_or] at other
      obtain ⟨noIn, noHas, noLike, noIs⟩ := other
      show (if word = "in" then _ else _) = _
      rw [if_neg noIn, if_neg noHas, if_neg noLike, if_neg noIs]
      rfl
    | _ => rfl

/-- What is read with a sign, or on a level above, is read on the next level. -/
theorem Reads.succ (reads : Reads level tokens expr) (begins : NoConditional tokens)
    (large : 2 ≤ level) (small : level ≤ 6) : Reads (level + 1) tokens expr := by
  by_cases sum : level = 4
  · subst sum
    exact reads.relation
  · have row : level + 1 ∈ rowLevels := by
      obtain rfl | rfl | rfl | rfl : level = 2 ∨ level = 3 ∨ level = 5 ∨ level = 6 := by omega
      all_goals decide
    exact (reads.leads row begins).reads row

theorem Reads.lift {higher : Nat} (reads : Reads level tokens expr) (begins : NoConditional tokens)
    (large : 2 ≤ level) (le : level ≤ higher) (small : higher ≤ 7) : Reads higher tokens expr := by
  induction higher, le using Nat.le_induction with
  | base => exact reads
  | succ higher le ih => exact (ih (by omega)).succ begins (by omega) (by omega)

/-! ### Operands -/

/-- Tokens that need no parentheses as an operand. -/
structure Operand (tokens : List Token) (expr : Expr) : Prop where
  leads : Leads 1 tokens expr
  opens : OpensOperand tokens

namespace Operand

theorem of_reads (reads : Reads 0 tokens expr) (opens : OpensOperand tokens) :
    Operand tokens expr :=
  ⟨reads.leads (by decide) opens.noConditional, opens⟩

/-- An operand without a sign is read where a sign may stand. -/
theorem signed (operand : Operand tokens expr) : Reads 2 tokens expr := by
  intro rest fuel above enough
  obtain ⟨fuel, rfl⟩ : ∃ less, fuel = less + 1 := ⟨fuel - 1, by omega⟩
  have opens := operand.opens.append rest
  have read := operand.leads.reads (by decide) rest fuel (above.mono (by omega)) (by omega)
  show signed? (fuel + 1) (tokens ++ rest) = _
  rw [signed?, opens.countMarks_eq (.inl rfl)]
  simp only [Nat.lt_irrefl, if_false, opens.countMarks_eq (.inr rfl), Nat.not_lt_zero]
  exact read

/-- An operand is read on every level. -/
theorem reads (operand : Operand tokens expr) (positive : 1 ≤ level) (small : level ≤ 7) :
    Reads level tokens expr := by
  by_cases member : level = 1
  · exact member ▸ operand.leads.reads (by decide)
  · exact operand.signed.lift operand.opens.noConditional (by decide) (by omega) small

/-- An operand leads on every level with rows. -/
theorem leads_row (operand : Operand tokens expr) (row : level ∈ rowLevels) :
    Leads level tokens expr := by
  have begins := operand.opens.noConditional
  simp only [rowLevels, List.mem_cons, List.not_mem_nil, or_false] at row
  obtain rfl | rfl | rfl | rfl | rfl := row
  · exact operand.leads
  all_goals exact (operand.reads (by decide) (by decide)).leads (by decide) begins

end Operand

end Parser

end PolicyLedger.Policy
