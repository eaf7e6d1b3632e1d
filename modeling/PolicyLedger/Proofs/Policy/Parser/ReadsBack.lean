/-
**Expressions that are written are read back.**

The characters of an expression are read as tokens, and these are read as the expression
(`IsWritten`). This is shown for each construct from its parts, and an induction over the expression
puts it together (`isWritten`). What a part needs on its place is said by how it is written there:
in parentheses or not, an operand is read on every level (`IsWritten.enclosed`), and a row of one
operator leads on its level (`IsWritten.enclosedRow`).
-/

import PolicyLedger.Proofs.Policy.Parser.Constructs

namespace PolicyLedger.Policy

open PolicyLedger.Policy.Parser (Reads Leads Operand Opens OpensOperand NoConditional ReadsItems
  ReadsFields ReadsKey attributeTokens methodTokens)

/-- What holds of the tokens of a written expression. -/
structure Writes (tokens : List Token) (expr : Expr) : Prop where
  reads : Reads 7 tokens expr
  opens : Opens tokens
  atomic : expr.isAtomic = true → Operand tokens expr
  row : ∀ op, expr.isRowOf op = true → Leads op.token.level tokens expr ∧ NoConditional tokens

/-- An expression is written with tokens that are read as the expression. -/
def IsWritten (expr : Expr) : Prop := ∃ tokens, Renders expr.print tokens ∧ Writes tokens expr

/-! ### Parts of an expression -/

section Parts

variable {cs : List Char} {tokens : List Token} {expr : Expr}

/-- An operand that is no row is written. -/
theorem IsWritten.of_operand (renders : Renders expr.print tokens) (operand : Operand tokens expr)
    (noRow : ∀ op, expr.isRowOf op = false) : IsWritten expr := by
  refine ⟨tokens, renders, operand.reads (by decide) (by decide), operand.opens.opens,
    fun _ => operand, fun op row => ?_⟩
  rw [noRow op] at row
  cases row

/-- What needs parentheses as an operand and is no row is written. -/
theorem IsWritten.of_reads {level : Nat} (renders : Renders expr.print tokens)
    (reads : Reads level tokens expr) (begins : NoConditional tokens) (opens : Opens tokens)
    (large : 2 ≤ level) (small : level ≤ 7) (noOperand : expr.isAtomic = false)
    (noRow : ∀ op, expr.isRowOf op = false) : IsWritten expr := by
  refine ⟨tokens, renders, reads.lift begins large small (by decide), opens, fun atomic => ?_,
    fun op row => ?_⟩
  · rw [noOperand] at atomic
    cases atomic
  · rw [noRow op] at row
    cases row

/-- Characters in parentheses. -/
theorem Renders.parens (renders : Renders cs tokens) :
    Renders ('(' :: cs ++ [')']) (.mark .openParen :: (tokens ++ [.mark .closeParen])) :=
  .mark_append (by rfl : Mark.openParen.extension? = none)
    (renders.append (.mark .closeParen nofun) (breaks_cons (by decide)))

/-- In parentheses or not, an operand is read as one. -/
theorem IsWritten.enclosed (written : IsWritten expr) :
    ∃ tokens, Renders (Expr.enclose expr.isAtomic expr.print) tokens ∧ Operand tokens expr := by
  obtain ⟨tokens, renders, writes⟩ := written
  rw [Expr.enclose]
  cases atomic : expr.isAtomic with
  | true => exact ⟨tokens, renders, writes.atomic atomic⟩
  | false => exact ⟨_, renders.parens, writes.reads.parens⟩

/-- A row of an operator leads on its level without parentheses, and any other operand does. -/
theorem IsWritten.enclosedRow (written : IsWritten expr) {op : BinaryOp}
    (chained : op.isChained = true) :
    ∃ tokens, Renders (Expr.enclose (expr.isAtomic || expr.isRowOf op) expr.print) tokens ∧
      Leads op.token.level tokens expr ∧ NoConditional tokens ∧ Opens tokens := by
  have row : op.token.level ∈ Parser.rowLevels := by
    cases op <;> first | decide | cases chained
  cases inRow : expr.isRowOf op with
  | false =>
    rw [Bool.or_false]
    obtain ⟨tokens, renders, operand⟩ := written.enclosed
    exact ⟨tokens, renders, operand.leads_row row, operand.opens.noConditional,
      operand.opens.opens⟩
  | true =>
    rw [Bool.or_true]
    obtain ⟨tokens, renders, writes⟩ := written
    exact ⟨tokens, renders, (writes.row op inRow).1, (writes.row op inRow).2, writes.opens⟩

/-- A name is written as an identifier or between quotation marks. -/
theorem exists_key (name : String) :
    ∃ tokens, Renders (printName name) tokens ∧ ReadsKey tokens name := by
  rw [printName, isPlainName]
  by_cases part : isNamePart name = true
  · rw [if_pos part]
    exact ⟨_, .word (isIdentifier_of_isNamePart part), Parser.readsKey_identifier part⟩
  · rw [if_neg part]
    exact ⟨_, renders_quote name, Parser.readsKey_text (textOf?_escapeText name)⟩

theorem breaks_comma (more : List Char) : Breaks (',' :: more) := breaks_cons (by decide)

/-- A comma and a blank stand between two parts. -/
theorem Renders.comma {second : List Char} {back : List Token} (renders : Renders cs tokens)
    (next : Renders second back) :
    Renders (cs ++ [',', ' '] ++ second) (tokens ++ .mark .comma :: back) := by
  rw [List.append_assoc]
  exact renders.append (.mark_append (by rfl : Mark.comma.extension? = none) next.space)
    (breaks_comma _)

/-- Items that are written one by one are written with commas between them. -/
theorem exists_items {items : List Expr} (written : ∀ item ∈ items, IsWritten item) :
    ∃ tokens, Renders (separate [',', ' '] (Expr.printItems items)) tokens ∧
      ReadsItems tokens items := by
  induction items with
  | nil => exact ⟨[], .nil, .nil⟩
  | cons item rest ih =>
    rw [List.forall_mem_cons] at written
    obtain ⟨tokens, renders, writes⟩ := written.1
    cases rest with
    | nil => exact ⟨tokens, renders, .singleton writes.reads writes.opens⟩
    | cons other rest =>
      obtain ⟨back, next, others⟩ := ih written.2
      exact ⟨_, renders.comma next, .cons writes.reads writes.opens others⟩

theorem Renders.colon {second : List Char} {back : List Token} (renders : Renders cs tokens)
    (next : Renders second back) :
    Renders (cs ++ chars ": " ++ second) (tokens ++ .mark .colon :: back) := by
  have separated : Renders (':' :: ' ' :: second) (.mark .colon :: back) := by
    constructor
    · intro more others breaks follows
      exact lexes_mark .colon (by simp [Mark.extension?]) (next.space.lexes breaks follows)
    · rw [List.mem_cons, not_or]
      exact ⟨by decide, next.space.noReturn⟩
  rw [List.append_assoc]
  exact renders.append separated (breaks_cons (by decide))

/-- Fields whose values are written one by one are written with commas between them. -/
theorem exists_fields {fields : List (String × Expr)}
    (written : ∀ field ∈ fields, IsWritten field.2) :
    ∃ tokens, Renders (separate [',', ' '] (Expr.printFields fields)) tokens ∧
      ReadsFields tokens fields := by
  induction fields with
  | nil => exact ⟨[], .nil, .nil⟩
  | cons field rest ih =>
    rw [List.forall_mem_cons] at written
    obtain ⟨name, value⟩ := field
    obtain ⟨tokens, renders, writes⟩ := written.1
    obtain ⟨front, rendersKey, readsKey⟩ := exists_key name
    have rendersField := rendersKey.colon renders
    cases rest with
    | nil => exact ⟨_, rendersField, .singleton readsKey writes.reads⟩
    | cons other rest =>
      obtain ⟨back, next, others⟩ := ih written.2
      refine ⟨_, rendersField.comma next, ?_⟩
      rw [List.append_assoc, List.cons_append]
      exact .cons readsKey writes.reads others

/-- A call in the form of a method. -/
theorem Renders.method {name : String} {front : List Char} {back : List Token}
    (renders : Renders front back) (identifier : isIdentifier name.toList = true)
    (args : Renders cs tokens) :
    Renders (front ++ '.' :: chars name ++ '(' :: cs ++ [')'])
      (back ++ methodTokens name tokens) := by
  have inner : Renders (chars name ++ ('(' :: cs ++ [')']))
      (.identifier name :: .mark .openParen :: (tokens ++ [.mark .closeParen])) :=
    (Renders.word identifier).append args.parens (breaks_cons (by decide))
  have dotted : Renders ('.' :: (chars name ++ ('(' :: cs ++ [')']))) (methodTokens name tokens) :=
    .mark_append (by rfl : Mark.dot.extension? = none) inner
  have whole := renders.append dotted (breaks_cons (by decide))
  simpa only [List.append_assoc, List.cons_append] using whole

end Parts

/-! ### Constructs -/

section Constructs

variable {arg left right : Expr}

theorem int?_toInt (value : Int64) :
    Parser.int? value.toInt = some (.literal (.int value)) := by
  have low := value.le_toInt
  have high := value.toInt_lt
  rw [Parser.int?, if_pos ⟨by simpa using low, by simpa using high⟩, Int64.ofInt_toInt]

theorem isWritten_int (value : Int64) : IsWritten (.literal (.int value)) := by
  have read := int?_toInt value
  have sign : value < 0 ↔ value.toInt < 0 := Int64.lt_iff_toInt_lt
  by_cases negative : value.toInt < 0
  · have digits : Renders (Text.intDigits value.toInt)
        [.mark .minus, .number value.toInt.natAbs] := by
      rw [Text.intDigits, if_pos negative]
      exact .mark_append (by rfl : Mark.minus.extension? = none) (.number _)
    have same : value.toInt = -(value.toInt.natAbs : Int) := by omega
    rw [same] at read
    refine .of_reads digits (Parser.reads_negative read) ⟨_, _, rfl, by rintro ⟨⟩⟩ ⟨_, _, rfl, rfl⟩
      (by decide) (by decide) ?_ fun _ => rfl
    rw [Expr.isAtomic, decide_eq_true (sign.mpr negative)]
    rfl
  · have digits : Renders (Text.intDigits value.toInt) [.number value.toInt.natAbs] := by
      rw [Text.intDigits, if_neg negative]
      exact .number _
    have same : value.toInt = (value.toInt.natAbs : Int) := by omega
    rw [same] at read
    exact .of_operand digits (Parser.operand_number read) fun _ => rfl

theorem isWritten_literal {value : Literal} (proper : value.IsProper) :
    IsWritten (.literal value) := by
  cases value with
  | bool value =>
    have word : Renders (Literal.print (.bool value))
        [.identifier (if value then "true" else "false")] := by
      cases value <;> exact .word (by decide)
    exact .of_operand word (Parser.operand_bool value) fun _ => rfl
  | int value => exact isWritten_int value
  | text value =>
    exact .of_operand (renders_quote value) (Parser.operand_text (textOf?_escapeText value))
      fun _ => rfl
  | entity uid => exact .of_operand (renders_uid proper) (Parser.operand_entity proper) fun _ => rfl

theorem isWritten_var (part : Variable) : IsWritten (.var part) :=
  .of_operand (.word (by cases part <;> decide)) (Parser.operand_var part) fun _ => rfl

/-- A mark of negation stands in front of anything that begins with no equals sign. -/
theorem Renders.not {cs : List Char} {tokens : List Token} (renders : Renders cs tokens)
    (opens : OpensOperand tokens) : Renders ('!' :: cs) (.mark .not :: tokens) where
  lexes {more _} breaks follows := by
    refine lexes_mark .not (fun c extended head => ?_) (renders.lexes breaks follows)
    obtain rfl := Option.some.inj extended
    obtain ⟨token, rest, rfl, first⟩ := opens
    obtain ⟨after, begins⟩ : ∃ after, cs ++ more = '=' :: after :=
      List.head?_eq_some_iff.mp head
    -- only the mark of equality begins with this sign
    cases renders.lexes breaks follows with
    | token skips read =>
      rw [begins] at skips
      cases skips with
      | stop =>
        cases Token.reads_of_next? read with
        | identifier _ letter => exact absurd letter (by decide)
        | number _ _ digit => exact absurd digit (by decide)
        | @mark _ _ _ mark _ _ _ read =>
          have whole := (Token.mark?_eq_some_iff.mp read).1
          cases mark <;> first | exact absurd (List.cons.inj whole).1 (by decide) | cases first
      | blank white => exact absurd white (by decide)
  noReturn := by
    rw [List.mem_cons, not_or]
    exact ⟨by decide, renders.noReturn⟩

theorem isWritten_not (written : IsWritten arg) : IsWritten (.not arg) := by
  obtain ⟨tokens, renders, operand⟩ := written.enclosed
  exact .of_reads (renders.not operand.opens) operand.not ⟨_, _, rfl, nofun⟩ ⟨_, _, rfl, rfl⟩
    (by decide) (by decide) rfl fun _ => rfl

theorem isWritten_negate (written : IsWritten arg) : IsWritten (.negate arg) := by
  obtain ⟨tokens, renders, writes⟩ := written
  exact .of_reads (.mark_append (by rfl : Mark.minus.extension? = none) renders.parens)
    writes.reads.parens.negate ⟨_, _, rfl, nofun⟩ ⟨_, _, rfl, rfl⟩ (by decide) (by decide) rfl
    fun _ => rfl

theorem isWritten_isEmpty (written : IsWritten arg) : IsWritten (.isEmpty arg) := by
  obtain ⟨tokens, renders, operand⟩ := written.enclosed
  have call : Parser.method? arg "isEmpty" [] = some (.isEmpty arg) := rfl
  refine .of_operand ?_ ⟨operand.leads.method .nil call, operand.opens.append _⟩ fun _ => rfl
  have whole := renders.method (by decide : isIdentifier "isEmpty".toList = true) .nil
  rw [List.append_assoc, List.append_assoc] at whole
  exact whole

theorem isWritten_method {op : BinaryOp} (method : op.isMethod = true) (first : IsWritten left)
    (second : IsWritten right) : IsWritten (.binary op left right) := by
  obtain ⟨tokens, renders, operand⟩ := first.enclosed
  obtain ⟨back, next, writes⟩ := second
  have identifier : isIdentifier op.symbol.toList = true := by
    cases op <;> first | decide | cases method
  have call : Parser.method? left op.symbol [right] = some (.binary op left right) := by
    cases op <;> first | rfl | cases method
  have noChain : op.isChained = false := by cases op <;> first | rfl | cases method
  refine .of_operand ?_ ⟨operand.leads.method (.singleton writes.reads writes.opens) call,
    operand.opens.append _⟩ fun other => ?_
  · rw [Expr.print, if_pos method]
    exact renders.method identifier next
  · rw [Expr.isRowOf, Bool.and_eq_false_imp]
    intro same
    rw [of_decide_eq_true same, noChain]

/-- A word or a mark stands between blanks. -/
theorem Renders.spaced {front back word : List Char} {first second : List Token} {token : Token}
    (renders : Renders front first) (inner : Renders word [token]) (next : Renders back second) :
    Renders (front ++ (' ' :: word ++ [' ']) ++ back) (first ++ token :: second) := by
  have inner := inner.append next.space (breaks_cons (by decide))
  have whole := renders.append inner.space (breaks_cons (by decide))
  simpa only [List.append_assoc, List.cons_append, List.nil_append] using whole

theorem Renders.worded {front back : List Char} {first second : List Token} {word : String}
    (renders : Renders front first) (identifier : isIdentifier word.toList = true)
    (next : Renders back second) :
    Renders (front ++ (' ' :: chars word ++ [' ']) ++ back)
      (first ++ .identifier word :: second) :=
  renders.spaced (.word identifier) next

theorem Renders.operator {front back : List Char} {first second : List Token} (op : BinaryOp)
    (renders : Renders front first) (next : Renders back second) :
    Renders (front ++ ' ' :: chars op.symbol ++ ' ' :: back) (first ++ op.token :: second) := by
  have whole := renders.spaced (renders_symbol op) next
  rw [← List.append_assoc, List.append_assoc] at whole
  exact whole

/-- A row of an operator is written with its further operand behind it. -/
theorem isWritten_row {op : BinaryOp} (chained : op.isChained = true) (first : IsWritten left)
    (second : IsWritten right) : IsWritten (.binary op left right) := by
  obtain ⟨front, renders, leads, begins, opens⟩ := first.enclosedRow chained
  obtain ⟨back, next, operand⟩ := second.enclosed
  have level : op.token.level ∈ Parser.rowLevels ∧ 2 ≤ op.token.level - 1 ∧
      op.token.level ≤ 7 ∧ op.isMethod = false := by
    cases op <;> first | exact ⟨by decide, by decide, by decide, rfl⟩ | cases chained
  obtain ⟨row, low, high, infixed⟩ := level
  have whole := leads.binary chained (operand.reads (by omega) (by omega))
  refine ⟨_, ?_, (whole.reads row).lift (begins.append _) (by omega) high (by decide),
    opens.append _, fun atomic => ?_, fun other same => ?_⟩
  · rw [Expr.print_infix infixed]
    exact renders.operator op next
  · rw [Expr.isAtomic, infixed] at atomic
    cases atomic
  · rw [Expr.isRowOf, Bool.and_eq_true] at same
    obtain rfl := of_decide_eq_true same.1
    exact ⟨whole, begins.append _⟩

theorem isWritten_comparison {op : BinaryOp} (compares : op.token.level = 5)
    (infixed : op.isMethod = false) (first : IsWritten left) (second : IsWritten right) :
    IsWritten (.binary op left right) := by
  obtain ⟨front, renders, operand⟩ := first.enclosed
  obtain ⟨back, next, other⟩ := second.enclosed
  have noChain : op.isChained = false := by cases op <;> first | rfl | cases compares
  have noRow : ∀ (row : BinaryOp) expr, row = op → Expr.isRowOf row expr = false := by
    rintro row expr rfl
    cases expr with
    | binary other _ _ =>
      rw [Expr.isRowOf, Bool.and_eq_false_imp]
      exact fun _ => noChain
    | _ => rfl
  refine .of_reads ?_ (Reads.comparison compares (operand.reads (by decide) (by decide))
    (other.reads (by decide) (by decide))) (operand.opens.noConditional.append _)
    (operand.opens.opens.append _) (by decide) (by decide) infixed fun row => ?_
  · rw [Expr.print_infix infixed, noRow op left rfl, Bool.or_false]
    exact renders.operator op next
  · rw [Expr.isRowOf, Bool.and_eq_false_imp]
    intro same
    rw [of_decide_eq_true same, noChain]

theorem isWritten_binary (op : BinaryOp) (first : IsWritten left) (second : IsWritten right) :
    IsWritten (.binary op left right) := by
  by_cases method : op.isMethod = true
  · exact isWritten_method method first second
  by_cases chained : op.isChained = true
  · exact isWritten_row chained first second
  have compares : op.token.level = 5 := by
    cases op <;> first | rfl | exact absurd rfl method | exact absurd rfl chained
  exact isWritten_comparison compares (by simpa using method) first second

theorem isWritten_attr (written : IsWritten left) (name : String) :
    IsWritten (.attr left name) := by
  obtain ⟨tokens, renders, operand⟩ := written.enclosed
  by_cases part : isNamePart name = true
  · refine .of_operand ?_ ⟨operand.leads.attr part, operand.opens.append _⟩ fun _ => rfl
    have access : Renders ('.' :: chars name) [.mark .dot, .identifier name] :=
      .mark_append (by rfl : Mark.dot.extension? = none)
        (.word (isIdentifier_of_isNamePart part))
    rw [Expr.print, printAccess, isPlainName, if_pos part]
    exact renders.append access (breaks_cons (by decide))
  · refine .of_operand ?_ ⟨operand.leads.index (textOf?_escapeText name),
      operand.opens.append _⟩ fun _ => rfl
    have access : Renders ('[' :: (Text.quote name ++ [']'])) [.mark .openBracket,
        .text (Text.escapeText name.toList), .mark .closeBracket] :=
      .mark_append (by rfl : Mark.openBracket.extension? = none)
        ((renders_quote name).append (.mark .closeBracket (by decide)) (breaks_cons (by decide)))
    rw [Expr.print, printAccess, isPlainName, if_neg part]
    exact renders.append access (breaks_cons (by decide))

/-- Attributes with dots between them. -/
theorem renders_attributes {first : String} {others : List String}
    (parts : ∀ name ∈ first :: others, isNamePart name = true) :
    Renders (separate ['.'] ((first :: others).map chars))
      (.identifier first :: attributeTokens others) := by
  induction others generalizing first with
  | nil => exact .word (isIdentifier_of_isNamePart (parts first List.mem_cons_self))
  | cons other others ih =>
    rw [List.forall_mem_cons] at parts
    have dotted : Renders ('.' :: separate ['.'] ((other :: others).map chars))
        (.mark .dot :: .identifier other :: attributeTokens others) :=
      .mark_append (by rfl : Mark.dot.extension? = none) (ih parts.2)
    have whole := (Renders.word (isIdentifier_of_isNamePart parts.1)).append dotted
      (breaks_cons (by decide))
    show Renders (chars first ++ ['.'] ++ separate ['.'] ((other :: others).map chars)) _
    rw [List.append_assoc]
    exact whole

theorem isWritten_has {first : String} {others : List String} (written : IsWritten left)
    (parts : others ≠ [] → ∀ name ∈ first :: others, isNamePart name = true) :
    IsWritten (.has left first others) := by
  obtain ⟨tokens, renders, operand⟩ := written.enclosed
  have begins := operand.opens.noConditional
  have opens := operand.opens.opens
  have sum := operand.reads (by decide : 1 ≤ 4) (by decide)
  have identifier : isIdentifier "has".toList = true := by decide
  by_cases path : others = []
  · subst path
    by_cases part : isNamePart first = true
    · refine .of_reads ?_ (@Reads.hasPath _ _ _ [] sum (List.forall_mem_singleton.mpr part))
        (begins.append _) (opens.append _) (by decide) (by decide) rfl fun _ => rfl
      rw [Expr.print, List.isEmpty_nil, if_pos rfl, printName, isPlainName, if_pos part]
      exact renders.worded identifier (.word (isIdentifier_of_isNamePart part))
    · refine .of_reads ?_ (sum.hasText (textOf?_escapeText first)) (begins.append _)
        (opens.append _) (by decide) (by decide) rfl fun _ => rfl
      rw [Expr.print, List.isEmpty_nil, if_pos rfl, printName, isPlainName, if_neg part]
      exact renders.worded identifier (renders_quote first)
  · refine .of_reads ?_ (sum.hasPath (parts path)) (begins.append _) (opens.append _) (by decide)
      (by decide) rfl fun _ => rfl
    rw [Expr.print, if_neg (by simpa using path)]
    exact renders.worded identifier (renders_attributes (parts path))

theorem isWritten_like (written : IsWritten left) (pattern : List PatternElement) :
    IsWritten (.like left pattern) := by
  obtain ⟨tokens, renders, operand⟩ := written.enclosed
  have text : Renders ('"' :: pattern.flatMap PatternElement.print ++ ['"'])
      [.text (pattern.flatMap PatternElement.print)] :=
    .text (passes_pattern pattern) fun inside => by
      obtain ⟨element, _, there⟩ := List.mem_flatMap.mp inside
      exact element.noReturn there
  refine .of_reads ?_ ((operand.reads (by decide) (by decide)).like (patternOf?_print pattern))
    (operand.opens.noConditional.append _) (operand.opens.opens.append _) (by decide) (by decide)
    rfl fun _ => rfl
  rw [Expr.print, List.append_assoc]
  exact (renders.worded (by decide : isIdentifier "like".toList = true) text)

theorem isWritten_is {type : Name} (written : IsWritten left) (proper : type.IsProper) :
    IsWritten (.is left type) := by
  obtain ⟨tokens, renders, operand⟩ := written.enclosed
  exact .of_reads (renders.worded (by decide : isIdentifier "is".toList = true)
    (renders_name proper)) ((operand.reads (by decide) (by decide)).is proper)
    (operand.opens.noConditional.append _) (operand.opens.opens.append _) (by decide) (by decide)
    rfl fun _ => rfl

theorem isWritten_isWithin {type : Name} {group : Expr} (written : IsWritten left)
    (proper : type.IsProper) (second : IsWritten group) :
    IsWritten (.isWithin left type group) := by
  obtain ⟨front, renders, operand⟩ := written.enclosed
  obtain ⟨back, next, other⟩ := second.enclosed
  have within := (renders_name proper).worded (by decide : isIdentifier "in".toList = true) next
  refine .of_reads ?_ ((operand.reads (by decide) (by decide)).isWithin proper
    (other.reads (by decide) (by decide))) (operand.opens.noConditional.append _)
    (operand.opens.opens.append _) (by decide) (by decide) rfl fun _ => rfl
  have whole := renders.worded (by decide : isIdentifier "is".toList = true) within
  rw [← List.append_assoc, ← List.append_assoc] at whole
  exact whole

theorem isWritten_ite {condition yes no : Expr} (first : IsWritten condition)
    (second : IsWritten yes) (third : IsWritten no) : IsWritten (.ite condition yes no) := by
  obtain ⟨tokens, renders, writes⟩ := first
  obtain ⟨front, rendersYes, writesYes⟩ := second
  obtain ⟨back, rendersNo, writesNo⟩ := third
  have reads := Parser.reads_ite writes.reads writesYes.reads writesNo.reads
  refine ⟨_, ?_, reads, ⟨_, _, rfl, rfl⟩, nofun, nofun⟩
  have inner := renders.worded (by decide : isIdentifier "then".toList = true)
    (rendersYes.worded (by decide : isIdentifier "else".toList = true) rendersNo)
  have whole := (Renders.word (by decide : isIdentifier "if".toList = true)).append inner.space
    (breaks_cons (by decide))
  have print : Expr.print (.ite condition yes no) = chars "if" ++ ' ' :: (condition.print ++
      (' ' :: chars "then" ++ [' ']) ++ (yes.print ++ (' ' :: chars "else" ++ [' ']) ++
        no.print)) := by
    rw [Expr.print]
    simp only [List.append_assoc]
    rfl
  rw [print]
  exact whole

theorem isWritten_set {items : List Expr} (written : ∀ item ∈ items, IsWritten item) :
    IsWritten (.set items) := by
  obtain ⟨tokens, renders, reads⟩ := exists_items written
  have whole : Renders ('[' :: (separate [',', ' '] (Expr.printItems items) ++ [']']))
      (.mark .openBracket :: (tokens ++ [.mark .closeBracket])) :=
    .mark_append (by rfl : Mark.openBracket.extension? = none)
      (renders.append (.mark .closeBracket nofun) (breaks_cons (by decide)))
  refine .of_operand ?_ (Parser.operand_set reads) fun _ => rfl
  rw [Expr.print]
  exact whole

theorem isWritten_record {fields : List (String × Expr)}
    (sorted : fields.Pairwise fun a b => a.1 < b.1)
    (written : ∀ field ∈ fields, IsWritten field.2) : IsWritten (.record fields) := by
  obtain ⟨tokens, renders, reads⟩ := exists_fields written
  have whole : Renders ('\x7b' :: (separate [',', ' '] (Expr.printFields fields) ++ ['\x7d']))
      (.mark .openBrace :: (tokens ++ [.mark .closeBrace])) :=
    .mark_append (by rfl : Mark.openBrace.extension? = none)
      (renders.append (.mark .closeBrace nofun) (breaks_cons (by decide)))
  refine .of_operand ?_ (Parser.operand_record reads sorted) fun _ => rfl
  rw [Expr.print]
  exact whole

theorem isIdentifier_name (function : Extension) : isIdentifier function.name.toList = true := by
  cases function <;> decide

/-- A call in the form of a function. -/
theorem isWritten_function {function : Extension} {args : List Expr}
    (noMethod : function.isMethod = false) (written : ∀ arg ∈ args, IsWritten arg) :
    IsWritten (.call function args) := by
  obtain ⟨tokens, renders, reads⟩ := exists_items written
  have whole := (Renders.word (isIdentifier_name function)).append renders.parens
    (breaks_cons (by decide))
  refine .of_operand ?_ (Parser.operand_call noMethod reads) fun _ => rfl
  cases args with
  | nil =>
    rw [Expr.print]
    exact whole
  | cons first others =>
    rw [Expr.print]
    simp only [noMethod, Bool.false_eq_true, if_false, List.append_assoc]
    exact whole

theorem isWritten_methodCall {function : Extension} {receiver : Expr} {args : List Expr}
    (method : function.isMethod = true) (first : IsWritten receiver)
    (written : ∀ arg ∈ args, IsWritten arg) : IsWritten (.call function (receiver :: args)) := by
  obtain ⟨front, renders, operand⟩ := first.enclosed
  obtain ⟨back, next, reads⟩ := exists_items written
  have call : Parser.method? receiver function.name args =
      some (.call function (receiver :: args)) := by
    cases function <;> first | rfl | cases method
  refine .of_operand ?_ ⟨operand.leads.method reads call, operand.opens.append _⟩ fun _ => rfl
  rw [Expr.print]
  simp only [method, if_true]
  exact renders.method (isIdentifier_name function) next

theorem isWritten_call {function : Extension} {args : List Expr}
    (receiver : function.isMethod = true → args ≠ []) (written : ∀ arg ∈ args, IsWritten arg) :
    IsWritten (.call function args) := by
  cases method : function.isMethod with
  | false => exact isWritten_function method written
  | true =>
    obtain ⟨first, others, rfl⟩ := List.exists_cons_of_ne_nil (receiver method)
    rw [List.forall_mem_cons] at written
    exact isWritten_methodCall method written.1 written.2

end Constructs

/-! ### Whole expressions -/

mutual

/-- Every proper expression is written with tokens that are read as the expression. -/
theorem isWritten : (expr : Expr) → expr.IsProper → IsWritten expr
  | .literal _, proper => isWritten_literal proper
  | .var part, _ => isWritten_var part
  | .not arg, proper => isWritten_not (isWritten arg proper)
  | .negate arg, proper => isWritten_negate (isWritten arg proper)
  | .isEmpty arg, proper => isWritten_isEmpty (isWritten arg proper)
  | .binary op left right, proper =>
    isWritten_binary op (isWritten left proper.1) (isWritten right proper.2)
  | .attr left name, proper => isWritten_attr (isWritten left proper) name
  | .has left _ _, proper => isWritten_has (isWritten left proper.1) proper.2
  | .like left pattern, proper => isWritten_like (isWritten left proper) pattern
  | .is left _, proper => isWritten_is (isWritten left proper.1) proper.2
  | .isWithin left _ group, proper =>
    isWritten_isWithin (isWritten left proper.1) proper.2.1 (isWritten group proper.2.2)
  | .ite condition yes no, proper =>
    isWritten_ite (isWritten condition proper.1) (isWritten yes proper.2.1)
      (isWritten no proper.2.2)
  | .set items, proper => isWritten_set (isWritten_items items proper)
  | .record fields, proper => isWritten_record proper.1 (isWritten_fields fields proper.2)
  | .call _ args, proper => isWritten_call proper.2 (isWritten_items args proper.1)

theorem isWritten_items : (items : List Expr) → Expr.ItemsAreProper items →
    ∀ item ∈ items, IsWritten item
  | [], _ => nofun
  | item :: rest, proper =>
    List.forall_mem_cons.mpr ⟨isWritten item proper.1, isWritten_items rest proper.2⟩

theorem isWritten_fields : (fields : List (String × Expr)) → Expr.FieldsAreProper fields →
    ∀ field ∈ fields, IsWritten field.2
  | [], _ => nofun
  | (_, value) :: rest, proper =>
    List.forall_mem_cons.mpr ⟨isWritten value proper.1, isWritten_fields rest proper.2⟩

end

end PolicyLedger.Policy
