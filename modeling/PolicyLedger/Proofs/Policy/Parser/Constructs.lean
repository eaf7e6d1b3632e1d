/-
**What the readers make of each construct.**

There is a statement for each construct of the language: given what is read of its parts, its tokens
are read as the whole, on the level where the construct belongs. Rows of operators and accesses lead
on their level, since more of them may follow; comparisons, signs, conditionals and primaries are
read. Items and fields are read up to their closing mark (`ReadsItems`, `ReadsFields`).
-/

import PolicyLedger.Proofs.KeyMap
import PolicyLedger.Proofs.Policy.Parser.Levels

namespace PolicyLedger.Policy.Parser

variable {level fuel : Nat} {tokens front back rest : List Token} {left right expr : Expr}

/-! ### Names -/

theorem moreParts_partTokens {part : String} {parts : List String}
    (ends : moreParts rest = ([], rest)) :
    moreParts (.mark .colons :: partTokens (part :: parts) ++ rest) = (part :: parts, rest) := by
  induction parts generalizing part with
  | nil =>
    show (part :: (moreParts rest).1, (moreParts rest).2) = _
    rw [ends]
  | cons other parts ih =>
    show (part :: (moreParts (.mark .colons :: partTokens (other :: parts) ++ rest)).1,
      (moreParts (.mark .colons :: partTokens (other :: parts) ++ rest)).2) = _
    rw [ih]

/-- A name is read where no further part follows. -/
theorem name?_partTokens {name : Name} (proper : name.IsProper)
    (ends : moreParts rest = ([], rest)) :
    name? (partTokens name.parts ++ rest) = some (name, rest) := by
  have whole := Name.ofParts?_parts proper
  obtain ⟨first, parts, same⟩ : ∃ first parts, name.parts = first :: parts :=
    List.exists_cons_of_ne_nil (by simp [Name.parts])
  rw [same] at whole ⊢
  have read : ∀ {tokens}, moreParts tokens = (parts, rest) →
      name? (.identifier first :: tokens) = some (name, rest) := by
    intro tokens given
    show (Name.ofParts? (first :: (moreParts tokens).1)).map
      (fun name => (name, (moreParts tokens).2)) = _
    rw [given]
    exact congrArg (Option.map _) whole
  cases parts with
  | nil => exact read ends
  | cons other parts => exact read (moreParts_partTokens ends)

theorem moreParts_of_above (above : Above 1 rest) : moreParts rest = ([], rest) := by
  cases rest with
  | nil => rfl
  | cons token rest =>
    have least := above token rfl
    cases token with
    | mark mark => cases mark <;> first | rfl | exact absurd least (by decide)
    | _ => rfl

theorem exists_tokens_eq (uid : EntityUid) :
    ∃ first ∈ uid.type.parts, ∃ after,
      uid.tokens = .identifier first :: .mark .colons :: after := by
  obtain ⟨first, others, parts⟩ : ∃ first others, uid.type.parts = first :: others :=
    List.exists_cons_of_ne_nil (by simp [Name.parts])
  rw [EntityUid.tokens, parts]
  cases others with
  | nil => exact ⟨first, List.mem_cons_self, _, rfl⟩
  | cons other others => exact ⟨first, List.mem_cons_self, _, rfl⟩

/-- The name of an entity is read in front of anything. -/
theorem entity?_tokens {uid : EntityUid} (proper : uid.IsProper) (rest : List Token) :
    entity? (uid.tokens ++ rest) = some (uid, rest) := by
  have type := @name?_partTokens (.mark .colons :: .text (Text.escapeText uid.id.toList) :: rest)
    uid.type proper rfl
  rw [entity?, EntityUid.tokens, List.append_assoc]
  refine (congrArg (· >>= _) type).trans ?_
  show (textOf? _ >>= _) = _
  rw [textOf?_escapeText]
  rfl

/-! ### Rows of operators -/

theorem tail?_binary {op : BinaryOp} (chained : op.isChained = true) :
    tail? op.token.level (fuel + 1) left (op.token :: tokens) =
      (reader (op.token.level - 1) fuel tokens >>= fun (right, rest) =>
        tail? op.token.level fuel (.binary op left right) rest) := by
  cases op <;> first | rfl | cases chained

/-- A row goes on with an operator and another operand. -/
theorem Leads.binary {op : BinaryOp} (chained : op.isChained = true)
    (leads : Leads op.token.level front left) (reads : Reads (op.token.level - 1) back right) :
    Leads op.token.level (front ++ op.token :: back) (.binary op left right) := by
  have bounds : 1 ≤ op.token.level ∧ op.token.level ≤ 7 := by
    cases op <;> first | exact ⟨by decide, by decide⟩ | cases chained
  intro rest fuel result above enough final
  simp only [List.length_append, List.length_cons] at enough final
  rw [List.append_assoc, List.cons_append]
  refine leads _ fuel result (above_cons (Nat.le_refl _)) (by omega) fun next large => ?_
  obtain ⟨next, rfl⟩ : ∃ less, next = less + 1 := ⟨next - 1, by omega⟩
  have read := reads rest next (above.mono (by omega)) (by omega)
  rw [tail?_binary chained, read]
  exact final next (by omega)

/-! ### Items and fields -/

/-- Tokens begin with one that an expression begins with. -/
def Opens (tokens : List Token) : Prop :=
  ∃ token rest, tokens = token :: rest ∧ token.opens = true

theorem OpensOperand.opens (opens : OpensOperand tokens) : Opens tokens := by
  obtain ⟨token, rest, same, first⟩ := opens
  exact ⟨token, rest, same, Token.opens_of_opensOperand first⟩

theorem Opens.append (opens : Opens tokens) (more : List Token) : Opens (tokens ++ more) := by
  obtain ⟨token, rest, rfl, first⟩ := opens
  exact ⟨token, rest ++ more, rfl, first⟩

/-- No expression begins with a closing mark. -/
theorem Opens.expect?_eq_none {mark : Mark} (opens : Opens tokens)
    (other : Token.opens (.mark mark) = false) (more : List Token) :
    expect? mark (tokens ++ more) = none := by
  obtain ⟨token, rest, rfl, first⟩ := opens
  cases token with
  | mark found =>
    refine if_neg ?_
    rintro rfl
    rw [other] at first
    cases first
  | _ => rfl

/-- Tokens are read as some items in front of either closing mark. -/
def ReadsItems (tokens : List Token) (items : List Expr) : Prop :=
  ∀ close rest fuel, close = .closeParen ∨ close = .closeBracket →
    10 * tokens.length + 8 ≤ fuel →
      items? fuel close (tokens ++ .mark close :: rest) = some (items, rest)

theorem expect?_mark (mark : Mark) (rest : List Token) :
    expect? mark (.mark mark :: rest) = some rest := if_pos rfl

theorem expect?_mark_ne {mark found : Mark} (other : found ≠ mark) (rest : List Token) :
    expect? mark (.mark found :: rest) = none := if_neg other

namespace ReadsItems

theorem nil : ReadsItems [] [] := by
  intro close rest fuel _ enough
  obtain ⟨fuel, rfl⟩ : ∃ less, fuel = less + 1 := ⟨fuel - 1, by omega⟩
  rw [List.nil_append, items?, expect?_mark]

theorem items?_succ {close : Mark} (closing : close = .closeParen ∨ close = .closeBracket)
    (reads : Reads 7 tokens expr) (opens : Opens tokens) (above : Above 8 rest)
    (enough : 10 * tokens.length + 7 ≤ fuel) :
    items? (fuel + 1) close (tokens ++ rest) =
      match expect? .comma rest with
      | some rest => (items? fuel close rest).map fun (items, rest) => (expr :: items, rest)
      | none => (expect? close rest).map fun rest => ([expr], rest) := by
  have other : Token.opens (.mark close) = false := by obtain rfl | rfl := closing <;> rfl
  have read : expr? fuel (tokens ++ rest) = some (expr, rest) := reads rest fuel above enough
  rw [items?, opens.expect?_eq_none other, read]
  rfl

theorem singleton (reads : Reads 7 tokens expr) (opens : Opens tokens) :
    ReadsItems tokens [expr] := by
  intro close rest fuel closing enough
  obtain ⟨fuel, rfl⟩ : ∃ less, fuel = less + 1 := ⟨fuel - 1, by omega⟩
  have above : Above 8 (.mark close :: rest) := by
    obtain rfl | rfl := closing <;> exact above_cons (by decide)
  have noComma : close ≠ .comma := by obtain rfl | rfl := closing <;> decide
  rw [items?_succ closing reads opens above (by omega), expect?_mark_ne noComma, expect?_mark]
  rfl

theorem cons {items : List Expr} (reads : Reads 7 tokens expr) (opens : Opens tokens)
    (others : ReadsItems back items) :
    ReadsItems (tokens ++ .mark .comma :: back) (expr :: items) := by
  intro close rest fuel closing enough
  simp only [List.length_append, List.length_cons] at enough
  obtain ⟨fuel, rfl⟩ : ∃ less, fuel = less + 1 := ⟨fuel - 1, by omega⟩
  rw [List.append_assoc, List.cons_append,
    items?_succ closing reads opens (above_cons (by decide)) (by omega), expect?_mark]
  simp only [others close rest fuel closing (by omega), Option.map_some]

end ReadsItems

/-- Tokens are read as a key in front of a colon. -/
def ReadsKey (tokens : List Token) (key : String) : Prop :=
  Opens tokens ∧ ∀ rest, key? (tokens ++ .mark .colon :: rest) = some (key, rest)

theorem readsKey_identifier {name : String} (part : isNamePart name = true) :
    ReadsKey [.identifier name] name :=
  ⟨⟨_, _, rfl, rfl⟩, fun rest => by
    show (if isAttribute name then some (name, rest) else none) = _
    rw [isAttribute, if_pos part]⟩

theorem readsKey_text {raw : List Char} {name : String} (read : textOf? raw = some name) :
    ReadsKey [.text raw] name :=
  ⟨⟨_, _, rfl, rfl⟩, fun rest => by
    show (textOf? raw).map _ = _
    rw [read]
    rfl⟩

/-- Tokens are read as further fields of a record. -/
def ReadsFields (tokens : List Token) (fields : List (String × Expr)) : Prop :=
  ∀ done rest fuel, (done ++ fields).Pairwise (fun a b => a.1 < b.1) →
    10 * tokens.length + 8 ≤ fuel →
      fields? fuel done (tokens ++ .mark .closeBrace :: rest) = some (done ++ fields, rest)

namespace ReadsFields

theorem nil : ReadsFields [] [] := by
  intro done rest fuel _ enough
  obtain ⟨fuel, rfl⟩ : ∃ less, fuel = less + 1 := ⟨fuel - 1, by omega⟩
  rw [List.nil_append, fields?, expect?_mark, List.append_nil]

variable {key : String} {done : List (String × Expr)}

theorem fields?_succ (readsKey : ReadsKey front key) (reads : Reads 7 back expr)
    (last : ∀ field ∈ done, field.1 < key) (above : Above 8 rest)
    (enough : 10 * back.length + 7 ≤ fuel) :
    fields? (fuel + 1) done (front ++ .mark .colon :: (back ++ rest)) =
      match expect? .comma rest with
      | some rest => fields? fuel (done ++ [(key, expr)]) rest
      | none => (expect? .closeBrace rest).map fun rest => (done ++ [(key, expr)], rest) := by
  have read : expr? fuel (back ++ rest) = some (expr, rest) := reads rest fuel above enough
  have fresh : ¬ (done.any fun field => field.1 = key) = true := by
    rw [List.any_eq_true]
    rintro ⟨field, inside, same⟩
    have before := last field inside
    rw [of_decide_eq_true same] at before
    exact String.lt_irrefl key before
  rw [fields?, readsKey.1.expect?_eq_none rfl, readsKey.2]
  show (expr? fuel (back ++ rest) >>= _) = _
  rw [read]
  show (if (done.any fun field => field.1 = key) = true then none else _) = _
  rw [KeyMap.place_eq_append last]
  exact if_neg fresh

theorem singleton (readsKey : ReadsKey front key) (reads : Reads 7 back expr) :
    ReadsFields (front ++ .mark .colon :: back) [(key, expr)] := by
  intro done rest fuel sorted enough
  simp only [List.length_append, List.length_cons] at enough
  obtain ⟨fuel, rfl⟩ : ∃ less, fuel = less + 1 := ⟨fuel - 1, by omega⟩
  have last : ∀ field ∈ done, field.1 < key := fun field inside =>
    (List.pairwise_append.mp sorted).2.2 field inside _ List.mem_cons_self
  rw [List.append_assoc, List.cons_append,
    fields?_succ readsKey reads last (above_cons (by decide)) (by omega)]
  rfl

theorem cons {fields : List (String × Expr)} (readsKey : ReadsKey front key)
    (reads : Reads 7 back expr) (others : ReadsFields tokens fields) :
    ReadsFields (front ++ .mark .colon :: (back ++ .mark .comma :: tokens))
      ((key, expr) :: fields) := by
  intro done rest fuel sorted enough
  simp only [List.length_append, List.length_cons] at enough
  obtain ⟨fuel, rfl⟩ : ∃ less, fuel = less + 1 := ⟨fuel - 1, by omega⟩
  have last : ∀ field ∈ done, field.1 < key := fun field inside =>
    (List.pairwise_append.mp sorted).2.2 field inside _ List.mem_cons_self
  rw [List.append_cons] at sorted
  rw [List.append_assoc, List.cons_append, List.append_assoc, List.cons_append,
    fields?_succ readsKey reads last (above_cons (by decide)) (by omega), expect?_mark]
  show fields? fuel (done ++ [(key, expr)]) (tokens ++ .mark .closeBrace :: rest) = _
  rw [others _ rest fuel sorted (by omega), ← List.append_cons]

end ReadsFields

/-! ### Accesses -/

/-- An access that is made of some tokens goes on after an operand. -/
theorem Leads.access {access : List Token} {result : Expr} (leads : Leads 1 front left)
    (begins : ∀ rest, Above 1 (access ++ rest))
    (step : ∀ rest fuel, Above 1 rest → 10 * access.length ≤ fuel + 1 →
      accesses? (fuel + 1) left (access ++ rest) = accesses? fuel result rest)
    (nonempty : access ≠ []) : Leads 1 (front ++ access) result := by
  have length := List.length_pos_iff.mpr nonempty
  intro rest fuel outcome above enough final
  simp only [List.length_append] at enough final
  rw [List.append_assoc]
  refine leads _ fuel outcome (begins rest) (by omega) fun next large => ?_
  obtain ⟨next, rfl⟩ : ∃ less, next = less + 1 := ⟨next - 1, by omega⟩
  exact (step rest next above (by omega)).trans (final next (by omega))

theorem Leads.attr {name : String} (leads : Leads 1 front left)
    (part : isNamePart name = true) :
    Leads 1 (front ++ [.mark .dot, .identifier name]) (.attr left name) := by
  refine leads.access (fun rest => above_cons (by decide)) (fun rest fuel above _ => ?_)
    (List.cons_ne_nil _ _)
  have noCall : ∀ after, rest ≠ .mark .openParen :: after := by
    rintro after rfl
    exact absurd (above _ rfl) (by decide)
  show accesses? (fuel + 1) left (.mark .dot :: .identifier name :: rest) = _
  rw [accesses?, isAttribute, if_pos part]
  exact noCall

theorem Leads.index {raw : List Char} {name : String} (leads : Leads 1 front left)
    (read : textOf? raw = some name) :
    Leads 1 (front ++ [.mark .openBracket, .text raw, .mark .closeBracket]) (.attr left name) := by
  refine leads.access (fun rest => above_cons (by decide)) (fun rest fuel above _ => ?_)
    (List.cons_ne_nil _ _)
  show (textOf? raw >>= _) = _
  rw [read]
  rfl

/-- The tokens of a call in the form of a method. -/
def methodTokens (name : String) (args : List Token) : List Token :=
  .mark .dot :: .identifier name :: .mark .openParen :: (args ++ [.mark .closeParen])

theorem Leads.method {name : String} {args : List Expr} (leads : Leads 1 front left)
    (items : ReadsItems tokens args) (call : method? left name args = some expr) :
    Leads 1 (front ++ methodTokens name tokens) expr := by
  refine leads.access (fun rest => above_cons (by decide)) (fun rest fuel above enough => ?_)
    (List.cons_ne_nil _ _)
  simp only [methodTokens, List.length_cons, List.length_append, List.length_nil] at enough
  have read := items .closeParen rest fuel (.inl rfl) (by omega)
  show (items? fuel .closeParen ((tokens ++ [.mark .closeParen]) ++ rest) >>= _) = _
  rw [List.append_assoc, List.singleton_append, read]
  show (method? left name args >>= _) = _
  rw [call]
  rfl

/-! ### Comparisons -/

theorem Reads.comparison {op : BinaryOp} (compares : op.token.level = 5)
    (first : Reads 4 front left) (second : Reads 4 back right) :
    Reads 5 (front ++ op.token :: back) (.binary op left right) := by
  intro rest fuel above enough
  simp only [List.length_append, List.length_cons] at enough
  obtain ⟨fuel, rfl⟩ : ∃ less, fuel = less + 1 := ⟨fuel - 1, by omega⟩
  have begins : Above 5 (op.token :: (back ++ rest)) := above_cons (Nat.le_of_eq compares.symm)
  have readLeft : sum? fuel _ = _ := first _ fuel begins (by omega)
  have readRight : sum? fuel _ = _ := second rest fuel (above.mono (by omega)) (by omega)
  rw [List.append_assoc, List.cons_append]
  show relation? (fuel + 1) (front ++ op.token :: (back ++ rest)) = _
  rw [relation?, readLeft]
  cases op
  case equal | notEqual | less | lessEqual | greater | greaterEqual | isIn =>
    show (sum? fuel (back ++ rest) >>= _) = _
    rw [readRight]
    rfl
  all_goals cases compares

/-- A word that a comparison is written with stands behind a sum, and what follows it is read. -/
theorem Reads.worded {word : String} (reads : Reads 4 front left)
    (inside : word ∈ comparisonWords)
    (step : ∀ rest fuel, Above 6 rest → 10 * back.length + 4 ≤ fuel →
      sum? fuel (front ++ .identifier word :: (back ++ rest)) =
        some (left, .identifier word :: (back ++ rest)) →
      relation? (fuel + 1) (front ++ .identifier word :: (back ++ rest)) = some (expr, rest)) :
    Reads 5 (front ++ .identifier word :: back) expr := by
  intro rest fuel above enough
  simp only [List.length_append, List.length_cons] at enough
  obtain ⟨fuel, rfl⟩ : ∃ less, fuel = less + 1 := ⟨fuel - 1, by omega⟩
  have begins : Above 5 (.identifier word :: (back ++ rest)) :=
    above_cons (Nat.le_of_eq (if_pos inside).symm)
  rw [List.append_assoc, List.cons_append]
  exact step rest fuel above (by omega) (reads _ fuel begins (by omega))

theorem Reads.hasText {raw : List Char} {name : String} (reads : Reads 4 front left)
    (read : textOf? raw = some name) :
    Reads 5 (front ++ [.identifier "has", .text raw]) (.has left name []) := by
  refine reads.worded (by decide) fun rest fuel _ _ readLeft => ?_
  rw [relation?, readLeft]
  show (textOf? raw).map _ = _
  rw [read]
  rfl

/-- The tokens of further attributes. -/
def attributeTokens (names : List String) : List Token :=
  names.flatMap fun name => [.mark .dot, .identifier name]

theorem moreAttributes_tokens {names : List String}
    (parts : ∀ name ∈ names, isNamePart name = true) (above : Above 2 rest) :
    moreAttributes (attributeTokens names ++ rest) = some (names, rest) := by
  induction names with
  | nil =>
    cases rest with
    | nil => rfl
    | cons token rest =>
      have least := above token rfl
      cases token with
      | mark mark => cases mark <;> first | rfl | exact absurd least (by decide)
      | _ => rfl
  | cons name names ih =>
    rw [List.forall_mem_cons] at parts
    show moreAttributes (.mark .dot :: .identifier name :: (attributeTokens names ++ rest)) = _
    rw [moreAttributes, isAttribute, if_pos parts.1, ih parts.2]
    rfl

theorem Reads.hasPath {first : String} {others : List String} (reads : Reads 4 front left)
    (parts : ∀ name ∈ first :: others, isNamePart name = true) :
    Reads 5 (front ++ .identifier "has" :: .identifier first :: attributeTokens others)
      (.has left first others) := by
  rw [List.forall_mem_cons] at parts
  refine reads.worded (by decide) fun rest fuel above _ readLeft => ?_
  rw [relation?, readLeft]
  show (if isAttribute first then (moreAttributes (attributeTokens others ++ rest)).map _
    else none) = _
  rw [isAttribute, if_pos parts.1, moreAttributes_tokens parts.2 (above.mono (by omega))]
  rfl

theorem Reads.like {raw : List Char} {pattern : List PatternElement} (reads : Reads 4 front left)
    (read : patternOf? raw = some pattern) :
    Reads 5 (front ++ [.identifier "like", .text raw]) (.like left pattern) := by
  refine reads.worded (by decide) fun rest fuel _ _ readLeft => ?_
  rw [relation?, readLeft]
  show (patternOf? raw).map _ = _
  rw [read]
  rfl

theorem Reads.is {type : Name} (reads : Reads 4 front left) (proper : type.IsProper) :
    Reads 5 (front ++ .identifier "is" :: partTokens type.parts) (.is left type) := by
  refine reads.worded (by decide) fun rest fuel above _ readLeft => ?_
  have named := name?_partTokens proper (moreParts_of_above (above.mono (by omega)))
  have noIn : word? "in" rest = none := by
    cases rest with
    | nil => rfl
    | cons token rest =>
      have least := above token rfl
      cases token with
      | identifier word =>
        refine if_neg ?_
        rintro rfl
        exact absurd least (by decide)
      | _ => rfl
  rw [relation?, readLeft]
  show (name? (partTokens type.parts ++ rest) >>= _) = _
  rw [named]
  show (match word? "in" rest with | some rest => _ | none => _) = _
  rw [noIn]
  rfl

theorem Reads.isWithin {type : Name} {group : Expr} (reads : Reads 4 front left)
    (proper : type.IsProper) (second : Reads 4 back group) :
    Reads 5 (front ++ .identifier "is" :: (partTokens type.parts ++ .identifier "in" :: back))
      (.isWithin left type group) := by
  refine reads.worded (by decide) fun rest fuel above enough readLeft => ?_
  simp only [List.length_append, List.length_cons] at enough
  have named := @name?_partTokens (.identifier "in" :: (back ++ rest)) type proper rfl
  have readGroup : sum? fuel _ = _ := second rest fuel (above.mono (by omega)) (by omega)
  rw [List.append_assoc] at readLeft ⊢
  rw [relation?, readLeft]
  show (name? (partTokens type.parts ++ .identifier "in" :: (back ++ rest)) >>= _) = _
  rw [named]
  show (sum? fuel (back ++ rest) >>= _) = _
  rw [readGroup]
  rfl

/-! ### Signs and conditionals -/

theorem Operand.not (operand : Operand tokens expr) :
    Reads 2 (.mark .not :: tokens) (.not expr) := by
  intro rest fuel above enough
  rw [List.length_cons] at enough
  obtain ⟨fuel, rfl⟩ : ∃ less, fuel = less + 1 := ⟨fuel - 1, by omega⟩
  have opens := operand.opens.append rest
  have read : member? fuel (tokens ++ rest) = _ :=
    operand.leads.reads (by decide) rest fuel (above.mono (by omega)) (by omega)
  have count : countMarks .not (.mark .not :: (tokens ++ rest)) = (1, tokens ++ rest) := by
    rw [countMarks, if_pos rfl, opens.countMarks_eq (.inl rfl)]
  show signed? (fuel + 1) (.mark .not :: (tokens ++ rest)) = _
  rw [signed?, count]
  show (member? fuel (tokens ++ rest)).map _ = _
  rw [read]
  rfl

/-- A minus in front of a parenthesis belongs to no number. -/
theorem Operand.negate (operand : Operand (.mark .openParen :: tokens) expr) :
    Reads 2 (.mark .minus :: .mark .openParen :: tokens) (.negate expr) := by
  intro rest fuel above enough
  simp only [List.length_cons] at enough
  obtain ⟨fuel, rfl⟩ : ∃ less, fuel = less + 1 := ⟨fuel - 1, by omega⟩
  have read : member? fuel (.mark .openParen :: (tokens ++ rest)) = _ :=
    operand.leads.reads (by decide) rest fuel (above.mono (by omega)) (by
      rw [List.length_cons]
      omega)
  show (member? fuel (.mark .openParen :: (tokens ++ rest))).map _ = _
  rw [read]
  rfl

/-- A minus in front of a number that no access follows belongs to the number. -/
theorem reads_negative {value : Nat} (read : int? (-(value : Int)) = some expr) :
    Reads 2 [.mark .minus, .number value] expr := by
  intro rest fuel above enough
  obtain ⟨fuel, rfl⟩ : ∃ less, fuel = less + 1 := ⟨fuel - 1, by omega⟩
  have alone : startsAccess rest = false := by
    cases rest with
    | nil => rfl
    | cons token rest =>
      have least := above token rfl
      cases token with
      | mark mark => cases mark <;> first | rfl | exact absurd least (by decide)
      | _ => rfl
  show (if startsAccess rest then _ else (int? (-(value : Int))).map _) = _
  rw [if_neg (by rw [alone]; decide), read]
  rfl

theorem reads_ite {condition yes no : Expr} (first : Reads 7 tokens condition)
    (second : Reads 7 front yes) (third : Reads 7 back no) :
    Reads 7 (.identifier "if" :: (tokens ++ .identifier "then" :: (front ++ .identifier "else" ::
      back))) (.ite condition yes no) := by
  intro rest fuel above enough
  simp only [List.length_append, List.length_cons] at enough
  obtain ⟨fuel, rfl⟩ : ∃ less, fuel = less + 1 := ⟨fuel - 1, by omega⟩
  have readFirst : expr? fuel _ = _ := first (.identifier "then" :: (front ++
    .identifier "else" :: (back ++ rest))) fuel (above_cons (by decide)) (by omega)
  have readSecond : expr? fuel _ = _ := second (.identifier "else" :: (back ++ rest)) fuel
    (above_cons (by decide)) (by omega)
  have readThird : expr? fuel _ = _ := third rest fuel above (by omega)
  rw [List.cons_append, List.append_assoc, List.cons_append, List.append_assoc, List.cons_append]
  show (expr? fuel (tokens ++ .identifier "then" :: (front ++ .identifier "else" ::
    (back ++ rest))) >>= _) = _
  rw [readFirst]
  show (expr? fuel (front ++ .identifier "else" :: (back ++ rest)) >>= _) = _
  rw [readSecond]
  show (expr? fuel (back ++ rest) >>= _) = _
  rw [readThird]
  rfl

/-! ### Primaries -/

/-- A primary that is made of some tokens is an operand. -/
theorem operand_of_primary (opens : OpensOperand tokens)
    (step : ∀ rest fuel, Above 1 rest → 10 * tokens.length ≤ fuel + 1 →
      primary? (fuel + 1) (tokens ++ rest) = some (expr, rest)) : Operand tokens expr := by
  refine .of_reads (fun rest fuel above enough => ?_) opens
  have length := List.length_pos_iff.mpr opens.noConditional.ne_nil
  obtain ⟨fuel, rfl⟩ : ∃ less, fuel = less + 1 := ⟨fuel - 1, by omega⟩
  exact step rest fuel above (by omega)

theorem operand_bool (value : Bool) :
    Operand [.identifier (if value then "true" else "false")] (.literal (.bool value)) := by
  cases value <;> exact operand_of_primary ⟨_, _, rfl, by decide⟩ fun rest fuel _ _ => rfl

theorem operand_number {value : Nat} (read : int? value = some expr) :
    Operand [.number value] expr := by
  refine operand_of_primary ⟨_, _, rfl, rfl⟩ fun rest fuel _ _ => ?_
  rw [List.singleton_append, primary?, read, Option.map_some]

theorem operand_text {raw : List Char} {value : String} (read : textOf? raw = some value) :
    Operand [.text raw] (.literal (.text value)) := by
  refine operand_of_primary ⟨_, _, rfl, rfl⟩ fun rest fuel _ _ => ?_
  show (textOf? raw).map _ = _
  rw [read]
  rfl

/-- An expression in parentheses is an operand. -/
theorem Reads.parens (reads : Reads 7 tokens expr) :
    Operand (.mark .openParen :: (tokens ++ [.mark .closeParen])) expr := by
  refine operand_of_primary ⟨_, _, rfl, by decide⟩ fun rest fuel _ enough => ?_
  simp only [List.length_cons, List.length_append, List.length_nil] at enough
  have read : expr? fuel _ = _ :=
    reads (.mark .closeParen :: rest) fuel (above_cons (by decide)) (by omega)
  rw [List.cons_append, List.append_assoc]
  show (expr? fuel (tokens ++ .mark .closeParen :: rest) >>= _) = _
  rw [read]
  rfl

theorem operand_set {items : List Expr} (read : ReadsItems tokens items) :
    Operand (.mark .openBracket :: (tokens ++ [.mark .closeBracket])) (.set items) := by
  refine operand_of_primary ⟨_, _, rfl, by decide⟩ fun rest fuel _ enough => ?_
  simp only [List.length_cons, List.length_append, List.length_nil] at enough
  rw [List.cons_append, List.append_assoc]
  show (items? fuel .closeBracket (tokens ++ .mark .closeBracket :: rest)).map _ = _
  rw [read .closeBracket rest fuel (.inr rfl) (by omega)]
  rfl

theorem operand_record {fields : List (String × Expr)} (read : ReadsFields tokens fields)
    (sorted : fields.Pairwise fun a b => a.1 < b.1) :
    Operand (.mark .openBrace :: (tokens ++ [.mark .closeBrace])) (.record fields) := by
  refine operand_of_primary ⟨_, _, rfl, by decide⟩ fun rest fuel _ enough => ?_
  simp only [List.length_cons, List.length_append, List.length_nil] at enough
  rw [List.cons_append, List.append_assoc]
  show (fields? fuel [] (tokens ++ .mark .closeBrace :: rest)).map _ = _
  rw [read [] rest fuel sorted (by omega)]
  rfl

/-- A word that is no literal is a primary of its own kind, which what follows decides. -/
theorem primary?_identifier {word : String} (noTrue : word ≠ "true") (noFalse : word ≠ "false")
    (rest : List Token) :
    primary? (fuel + 1) (.identifier word :: rest) =
      match rest with
      | .mark .colons :: _ =>
        (entity? (.identifier word :: rest)).map fun (uid, rest) => (.literal (.entity uid), rest)
      | .mark .openParen :: rest =>
        match (Extension.ofName? word).filter fun function => !function.isMethod with
        | some function =>
          (items? fuel .closeParen rest).map fun (args, rest) => (.call function args, rest)
        | none => none
      | rest => (Variable.ofWord? word).map fun part => (.var part, rest) := by
  show (if word = "true" then _ else if word = "false" then _ else _) = _
  exact (if_neg noTrue).trans (if_neg noFalse)

theorem operand_var (part : Variable) : Operand [.identifier part.word] (.var part) := by
  refine operand_of_primary ⟨_, _, rfl, by cases part <;> decide⟩ fun rest fuel above _ => ?_
  have words : part.word ≠ "true" ∧ part.word ≠ "false" ∧
      Variable.ofWord? part.word = some part := by cases part <;> decide
  rw [List.singleton_append, primary?_identifier words.1 words.2.1]
  split
  · exact absurd (above _ rfl) (by decide)
  · exact absurd (above _ rfl) (by decide)
  · rw [words.2.2]
    rfl

/-- No part of a name is a word of the language. -/
theorem ne_of_isNamePart {name : String} (part : isNamePart name = true) {word : String}
    (inside : word ∈ languageWords) : name ≠ word := by
  rintro rfl
  rw [isNamePart, Bool.and_eq_true, Bool.and_eq_true] at part
  have outside := part.1.2
  rw [List.contains_iff_mem.mpr inside] at outside
  cases outside

theorem operand_entity {uid : EntityUid} (proper : uid.IsProper) :
    Operand uid.tokens (.literal (.entity uid)) := by
  obtain ⟨first, inside, after, tokens⟩ := exists_tokens_eq uid
  have part : isNamePart first = true := proper first inside
  refine operand_of_primary ⟨_, _, tokens, ?_⟩ fun rest fuel _ _ => ?_
  · exact decide_eq_true (ne_of_isNamePart part (by decide))
  · have read := entity?_tokens proper rest
    rw [tokens, List.cons_append] at read ⊢
    rw [primary?_identifier (ne_of_isNamePart part (by decide))
      (ne_of_isNamePart part (by decide))]
    show (entity? (.identifier first :: (.mark .colons :: after ++ rest))).map _ = _
    rw [read]
    rfl

theorem operand_call {function : Extension} {args : List Expr}
    (noMethod : function.isMethod = false) (items : ReadsItems tokens args) :
    Operand (.identifier function.name :: .mark .openParen :: (tokens ++ [.mark .closeParen]))
      (.call function args) := by
  have words : function.name ≠ "true" ∧ function.name ≠ "false" ∧ function.name ≠ "if" := by
    cases function <;> decide
  have found : (Extension.ofName? function.name).filter (fun function => !function.isMethod) =
      some function := by
    rw [Extension.ofName?_name, Option.filter_some, noMethod]
    rfl
  refine operand_of_primary ⟨_, _, rfl, decide_eq_true words.2.2⟩ fun rest fuel _ enough => ?_
  simp only [List.length_cons, List.length_append, List.length_nil] at enough
  rw [List.cons_append, List.cons_append, List.append_assoc,
    primary?_identifier words.1 words.2.1]
  simp only [found, List.singleton_append]
  rw [items .closeParen rest fuel (.inl rfl) (by omega)]
  rfl

end PolicyLedger.Policy.Parser
