/-
**Long conditions.**

Operands joined by an operator are read from left to right, each one level further out than those
before it, so the depth of a condition grows with its length. `chainPolicy` has a condition of some
truth values and `chainSource` is its source (`parseAll?_chainSource`); the condition is shallow up
to 62 operands (`isShallow_chainPolicy`).
-/

import PolicyLedger.Policy.Parser
import PolicyLedger.Proofs.Policy.JsonRoundTrip
import PolicyLedger.Proofs.Policy.Lexes

namespace PolicyLedger.Policy

/-! ### The policy -/

/-- The truth value that is always an operand. -/
def truth : Expr := .literal (.bool true)

/-- An expression joined with a number of further operands. -/
def chain (left : Expr) : Nat → Expr
  | 0 => left
  | more + 1 => chain (.binary .and left truth) more

/-- A policy with a condition of one operand and a number of further ones. -/
def chainPolicy (more : Nat) : Policy :=
  { effect := .permit
    principal := .all
    action := .all
    resource := .all
    conditions := [⟨.onlyWhen, chain truth more⟩]
    annotations := KeyMap.empty.insert "id" (some "p") }

theorem depth_chain {left : Expr} (positive : 1 ≤ left.toJson.depth) (more : Nat) :
    (chain left more).toJson.depth = left.toJson.depth + 2 * more := by
  induction more generalizing left with
  | zero => rfl
  | succ more ih =>
    have longer : (Expr.binary .and left truth).toJson.depth = left.toJson.depth + 2 := by
      simp only [Expr.toJson, Expr.tagged, truth, Literal.toJson, Json.depth, Json.depthMembers]
      omega
    rw [chain, ih (by omega), longer]
    omega

/-- A condition is shallow up to 62 operands. -/
theorem isShallow_chainPolicy (more : Nat) : (chainPolicy more).IsShallow ↔ more ≤ 61 := by
  have depth : (chain truth more).toJson.depth = 1 + 2 * more :=
    @depth_chain truth (Nat.le_refl 1) more
  simp only [IsShallow, chainPolicy, List.forall_mem_singleton, depth, Json.Reader.maxDepth]
  omega

/-- Each further operand is written with as many characters. -/
theorem length_write_chain (left : Expr) (more : Nat) :
    (Json.write (chain left more).toJson).length =
      (Json.write left.toJson).length + 39 * more := by
  induction more generalizing left with
  | zero => rfl
  | succ more ih =>
    have longer : (Json.write (Expr.binary .and left truth).toJson).length =
        (Json.write left.toJson).length + 39 := by
      simp [Expr.toJson, Expr.tagged, truth, Literal.toJson, Json.write, Json.writeMembers,
        BinaryOp.symbol, Json.writeText, Json.escape]
    rw [chain, ih, longer]
    omega

/-! ### Its tokens -/

/-- The tokens of further operands in front of others. -/
def operandTokens (rest : List Token) : Nat → List Token
  | 0 => rest
  | more + 1 => .mark .and :: .identifier "true" :: operandTokens rest more

namespace Parser

variable {fuel : Nat} {rest : List Token}

/-- A truth value in front of a further operand or the end of a condition is read alone. -/
theorem relation?_truth {more : Nat} :
    relation? (fuel + 6) (.identifier "true" :: operandTokens (.mark .closeBrace :: rest) more) =
      some (truth, operandTokens (.mark .closeBrace :: rest) more) := by
  cases more <;> rfl

/-- Further operands are joined with what stands on their left. -/
theorem conjunctionTail?_operands (left : Expr) (more : Nat) :
    conjunctionTail? (more + fuel + 7) left (operandTokens (.mark .closeBrace :: rest) more) =
      some (chain left more, .mark .closeBrace :: rest) := by
  induction more generalizing left with
  | zero => rfl
  | succ more ih =>
    rw [operandTokens, show more + 1 + fuel + 7 = more + 1 + fuel + 6 + 1 from rfl,
      conjunctionTail?, relation?_truth]
    show conjunctionTail? _ (.binary .and left truth) _ = _
    rw [show more + 1 + fuel + 6 = more + fuel + 7 by omega, ih]
    rfl

/-- A row of operands is read up to the end of its condition. -/
theorem expr?_operands (more : Nat) :
    expr? (more + fuel + 9)
        (.identifier "true" :: operandTokens (.mark .closeBrace :: rest) more) =
      some (chain truth more, .mark .closeBrace :: rest) := by
  have operands : conjunction? (more + fuel + 8)
      (.identifier "true" :: operandTokens (.mark .closeBrace :: rest) more) =
        some (chain truth more, .mark .closeBrace :: rest) := by
    rw [conjunction?, show more + fuel + 7 = more + fuel + 1 + 6 from rfl, relation?_truth]
    exact conjunctionTail?_operands truth more
  rw [expr?, operands]
  rfl

/-- The tokens of the policy. -/
def chainTokens (more : Nat) : List Token :=
  [.mark .at, .identifier "id", .mark .openParen, .text ['p'], .mark .closeParen,
    .identifier "permit", .mark .openParen, .identifier "principal", .mark .comma,
    .identifier "action", .mark .comma, .identifier "resource", .mark .closeParen,
    .identifier "when", .mark .openBrace, .identifier "true"] ++
    operandTokens [.mark .closeBrace, .mark .semicolon] more

theorem room_operandTokens (more : Nat) :
    room (operandTokens [.mark .closeBrace, .mark .semicolon] more) = 2 * more + 1 := by
  induction more with
  | zero => rfl
  | succ more ih =>
    show room (operandTokens _ more) + 1 + 1 = _
    rw [ih]
    omega

theorem policy?_chainTokens (more : Nat) :
    policy? (chainTokens more) = some (chainPolicy more, []) := by
  have fuel : fuelFor (.identifier "true" ::
      operandTokens [.mark .closeBrace, .mark .semicolon] more) = more + (19 * more + 21) + 9 := by
    show 10 * (room (operandTokens _ more) + 1) + 10 = _
    rw [room_operandTokens]
    omega
  have read : expr? (fuelFor (.identifier "true" ::
      operandTokens [.mark .closeBrace, .mark .semicolon] more)) (.identifier "true" ::
        operandTokens [.mark .closeBrace, .mark .semicolon] more) =
      some (chain truth more, [.mark .closeBrace, .mark .semicolon]) := by
    rw [fuel]
    exact expr?_operands more
  have conditions : conditions?
      (room (operandTokens [.mark .closeBrace, .mark .semicolon] more) + 4)
      (.identifier "when" :: .mark .openBrace :: .identifier "true" ::
        operandTokens [.mark .closeBrace, .mark .semicolon] more) =
      some ([⟨.onlyWhen, chain truth more⟩], []) := by
    show (expr? _ _ >>= _) = _
    rw [read]
    rfl
  show (conditions? _ _ >>= _) = _
  refine (congrArg (· >>= _) conditions).trans ?_
  rfl

end Parser

/-! ### Its source -/

/-- Further operands in front of other characters. -/
def operandChars (rest : List Char) : Nat → List Char
  | 0 => rest
  | more + 1 => '&' :: '&' :: 't' :: 'r' :: 'u' :: 'e' :: operandChars rest more

/-- The source of the policy. -/
def chainSource (more : Nat) : List Char :=
  "@id(\"p\")permit(principal,action,resource)when\x7btrue".toList ++
    operandChars ['\x7d', ';'] more

/-- A word in front of a further operand or the end of a condition ends there. -/
theorem next?_truth (more : Nat) :
    Token.next? ('t' :: 'r' :: 'u' :: 'e' :: operandChars ['\x7d', ';'] more) =
      some (.identifier "true", operandChars ['\x7d', ';'] more) := by
  cases more <;> rfl

theorem lexes_operandChars (more : Nat) :
    Lexes (operandChars ['\x7d', ';'] more)
      (operandTokens [.mark .closeBrace, .mark .semicolon] more) := by
  induction more with
  | zero => exact .token (.stop _) rfl (.token (.stop _) rfl (.done (.stop _)))
  | succ more ih => exact .token (.stop _) rfl (.token (.stop _) (next?_truth more) ih)

theorem lexes_chainSource (more : Nat) : Lexes (chainSource more) (Parser.chainTokens more) := by
  refine .token (.stop _) rfl (.token (.stop _) rfl (.token (.stop _) rfl (.token (.stop _) rfl
    (.token (.stop _) rfl (.token (.stop _) rfl (.token (.stop _) rfl (.token (.stop _) rfl
    (.token (.stop _) rfl (.token (.stop _) rfl (.token (.stop _) rfl (.token (.stop _) rfl
    (.token (.stop _) rfl (.token (.stop _) rfl (.token (.stop _) rfl ?_))))))))))))))
  exact .token (.stop _) (next?_truth more) (lexes_operandChars more)

/-- The source is the policy. -/
theorem parseAll?_chainSource (more : Nat) :
    parseAll? (chainSource more) = some [chainPolicy more] := by
  rw [parseAll?, tokens?_eq_some_iff.mpr (lexes_chainSource more), Option.bind_some]
  show (Parser.policy? (Parser.chainTokens more) >>= _) = _
  rw [Parser.policy?_chainTokens]
  rfl

theorem carriageReturn_not_mem_operandChars (more : Nat) :
    '\r' ∉ operandChars ['\x7d', ';'] more := by
  induction more with
  | zero => decide
  | succ more ih =>
    simp only [operandChars, List.mem_cons, not_or]
    exact ⟨by decide, by decide, by decide, by decide, by decide, by decide, ih⟩

/-- The source has one line. -/
theorem carriageReturn_not_mem_chainSource (more : Nat) : '\r' ∉ chainSource more := by
  intro inside
  obtain inside | inside := List.mem_append.mp inside
  · simp at inside
  · exact carriageReturn_not_mem_operandChars more inside

end PolicyLedger.Policy
