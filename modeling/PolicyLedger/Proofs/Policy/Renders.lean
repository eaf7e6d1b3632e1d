/-
**Characters that are written for tokens.**

`Renders cs tokens` says that `cs` are read as `tokens`, whatever comes after them, as long as it
begins with no character that a word or a mark could go on with (`Breaks`). What is written piece by
piece is read piece by piece (`Renders.append`), and a mark that no longer one begins with may stand
in front of anything (`Renders.mark_append`).
-/

import PolicyLedger.Proofs.Json.Scalars
import PolicyLedger.Proofs.Policy.Escapes
import PolicyLedger.Proofs.Policy.Proper

namespace PolicyLedger.Policy

/-! ### Tokens in front of others -/

section Tokens

variable {more : List Char} {others : List Token}

theorem lexes_blank {c : Char} (white : Text.isBlank c = true) (lexes : Lexes more others) :
    Lexes (c :: more) others := by
  cases lexes with
  | done skips => exact .done (.blank white skips)
  | token skips read lexes => exact .token (.blank white skips) read lexes

/-- A row of characters of one class is taken up to a character of another one. -/
theorem span_append {p : Char → Bool} {word : List Char} (inside : ∀ c ∈ word, p c = true)
    (stops : ∀ c, more.head? = some c → p c = false) :
    (word ++ more).takeWhile p = word ∧ (word ++ more).dropWhile p = more := by
  rw [List.takeWhile_append_of_pos inside, List.dropWhile_append_of_pos inside]
  cases more with
  | nil => exact ⟨List.append_nil word, rfl⟩
  | cons c more =>
    have stop := stops c rfl
    rw [List.takeWhile_cons_of_neg (by simp [stop]), List.dropWhile_cons_of_neg (by simp [stop])]
    exact ⟨List.append_nil word, rfl⟩

theorem quote_ne_of_isIdentifierPart {c : Char} (part : isIdentifierPart c = true) : c ≠ '"' := by
  rintro rfl
  exact absurd part (by decide)

/-- An identifier is read where no identifier goes on. -/
theorem lexes_word {name : String} (identifier : isIdentifier name.toList = true)
    (stops : ∀ c, more.head? = some c → isIdentifierPart c = false) (lexes : Lexes more others) :
    Lexes (name.toList ++ more) (.identifier name :: others) := by
  cases letters : name.toList with
  | nil =>
    rw [letters] at identifier
    cases identifier
  | cons c rest =>
    rw [letters, isIdentifier, Bool.and_eq_true, List.all_eq_true] at identifier
    have part : isIdentifierPart c = true := by rw [isIdentifierPart, identifier.1, Bool.true_or]
    obtain ⟨taken, dropped⟩ := span_append identifier.2 stops
    have same : String.ofList (c :: rest) = name := letters ▸ String.ofList_toList
    refine .token (.stop _) ?_ lexes
    rw [List.cons_append, Token.next?, if_neg (quote_ne_of_isIdentifierPart part),
      if_pos identifier.1, taken, dropped, same]

theorem not_isIdentifierStart_of_isDigit {c : Char} (digit : Text.isDigit c = true) :
    isIdentifierStart c = false := by
  rw [Bool.eq_false_iff]
  intro start
  simp only [Text.isDigit, isIdentifierStart, Text.isLetter, Bool.or_eq_true, Bool.and_eq_true,
    decide_eq_true_eq, beq_iff_eq, Char.le_def, UInt32.le_iff_toNat_le] at digit start
  obtain (start | start) | start := start
  · simp at start digit
    omega
  · simp at start digit
    omega
  · subst start
    simp at digit

/-- A number is read where no digit follows. -/
theorem lexes_number (value : Nat) (stops : ∀ c, more.head? = some c → isIdentifierPart c = false)
    (lexes : Lexes more others) :
    Lexes (Nat.toDigits 10 value ++ more) (.number value :: others) := by
  have decimal := Text.decimalValue_toDigits value
  have all : ∀ c ∈ Nat.toDigits 10 value, Text.isDigit c = true := fun _ =>
    Text.isDigit_of_mem_toDigits
  obtain ⟨first, rest, digits⟩ := List.exists_cons_of_ne_nil (@Nat.toDigits_ne_nil value 10)
  rw [digits, List.forall_mem_cons] at all
  have part : isIdentifierPart first = true := by rw [isIdentifierPart, all.1, Bool.or_true]
  have start := not_isIdentifierStart_of_isDigit all.1
  have stopsDigits : ∀ c, more.head? = some c → Text.isDigit c = false := fun c head =>
    (Bool.or_eq_false_iff.mp (stops c head)).2
  obtain ⟨taken, dropped⟩ := span_append all.2 stopsDigits
  refine .token (.stop _) ?_ lexes
  rw [digits, List.cons_append, Token.next?, if_neg (quote_ne_of_isIdentifierPart part),
    if_neg (by rw [start]; decide), if_pos all.1, dropped]
  show some (Token.number (Text.decimalValue (first :: (rest ++ more).takeWhile _)), _) = _
  rw [taken, ← digits, decimal]

/-- A mark is read where no longer one is written. -/
theorem lexes_mark (mark : Mark)
    (short : ∀ c, mark.extension? = some c → more.head? ≠ some c) (lexes : Lexes more others) :
    Lexes (mark.chars ++ more) (.mark mark :: others) := by
  have read := Token.mark?_eq_some_iff.mpr ⟨rfl, short⟩
  refine .token (.stop _) ?_ lexes
  obtain ⟨first, rest, chars, quote, start, digit⟩ : ∃ first rest, mark.chars = first :: rest ∧
      first ≠ '"' ∧ isIdentifierStart first = false ∧ Text.isDigit first = false := by
    cases mark <;> exact ⟨_, _, rfl, by decide, by decide, by decide⟩
  rw [chars, List.cons_append] at read ⊢
  rw [Token.next?, if_neg quote, if_neg (by rw [start]; decide), if_neg (by rw [digit]; decide),
    read]
  rfl

/-- A text is read up to its closing quotation mark. -/
theorem lexes_text {raw : List Char} (passes : Passes raw) (lexes : Lexes more others) :
    Lexes ('"' :: (raw ++ '"' :: more)) (.text raw :: others) := by
  refine .token (.stop _) ?_ lexes
  rw [Token.next?, if_pos rfl, passes, Token.rawText?_quote]
  show some (Token.text (raw ++ []), more) = _
  rw [List.append_nil]

end Tokens

/-! ### Pieces of a source -/

/-- No word and no mark in front goes on. -/
def Breaks (more : List Char) : Prop :=
  ∀ c, more.head? = some c → isIdentifierPart c = false ∧ c ≠ '='

theorem breaks_nil : Breaks [] := nofun

theorem breaks_cons {c : Char} {more : List Char} (other : isIdentifierPart c = false ∧ c ≠ '=') :
    Breaks (c :: more) := by
  intro d head
  exact Option.some.inj head ▸ other

theorem Breaks.append {first more : List Char} (breaks : Breaks first) (next : Breaks more) :
    Breaks (first ++ more) := by
  cases first with
  | nil => exact next
  | cons c first => exact fun d head => breaks d head

/-- Characters are read as tokens, and they have no carriage return. -/
structure Renders (cs : List Char) (tokens : List Token) : Prop where
  lexes {more : List Char} {others : List Token} (breaks : Breaks more)
    (follows : Lexes more others) : Lexes (cs ++ more) (tokens ++ others)
  noReturn : '\r' ∉ cs

namespace Renders

variable {first second : List Char} {front back : List Token}

theorem nil : Renders [] [] := ⟨fun _ follows => follows, nofun⟩

theorem append (renders : Renders first front) (next : Renders second back)
    (breaks : Breaks second) : Renders (first ++ second) (front ++ back) where
  lexes stops follows := by
    rw [List.append_assoc, List.append_assoc]
    exact renders.lexes (breaks.append stops) (next.lexes stops follows)
  noReturn := by
    rw [List.mem_append, not_or]
    exact ⟨renders.noReturn, next.noReturn⟩

theorem blank {c : Char} (white : Text.isBlank c = true) (other : c ≠ '\r')
    (renders : Renders second back) : Renders (c :: second) back where
  lexes stops follows := lexes_blank white (renders.lexes stops follows)
  noReturn := by
    rw [List.mem_cons, not_or]
    exact ⟨Ne.symm other, renders.noReturn⟩

theorem space (renders : Renders second back) : Renders (' ' :: second) back :=
  blank (by decide) (by decide) renders

theorem noReturn_mark (mark : Mark) : '\r' ∉ mark.chars := by
  cases mark <;> decide

/-- A mark that no longer one begins with may stand in front of anything. -/
theorem mark_append {mark : Mark} (alone : mark.extension? = none)
    (renders : Renders second back) : Renders (mark.chars ++ second) (.mark mark :: back) where
  lexes stops follows := by
    rw [List.append_assoc]
    refine lexes_mark mark (fun c extended => ?_) (renders.lexes stops follows)
    rw [alone] at extended
    cases extended
  noReturn := by
    rw [List.mem_append, not_or]
    exact ⟨noReturn_mark mark, renders.noReturn⟩

/-- A mark ends before a break, but a single colon needs more. -/
theorem mark (mark : Mark) (other : mark ≠ .colon) : Renders mark.chars [.mark mark] where
  lexes {more _} breaks follows := by
    refine lexes_mark mark (fun c extended head => ?_) follows
    have plain := (breaks c head).2
    cases mark <;> first | exact other rfl | cases extended
    all_goals exact plain rfl
  noReturn := noReturn_mark mark

theorem word {name : String} (identifier : isIdentifier name.toList = true) :
    Renders (chars name) [.identifier name] where
  lexes breaks follows := lexes_word identifier (fun c head => (breaks c head).1) follows
  noReturn inside := by
    cases letters : name.toList with
    | nil =>
      rw [letters] at identifier
      cases identifier
    | cons c rest =>
      rw [letters, isIdentifier, Bool.and_eq_true, List.all_eq_true] at identifier
      rw [chars, letters] at inside
      obtain rfl | inside := List.mem_cons.mp inside
      · exact absurd identifier.1 (by decide)
      · exact absurd (identifier.2 _ inside) (by decide)

theorem number (value : Nat) : Renders (Nat.toDigits 10 value) [.number value] where
  lexes breaks follows := lexes_number value (fun c head => (breaks c head).1) follows
  noReturn inside := absurd (Text.isDigit_of_mem_toDigits inside) (by decide)

theorem text {raw : List Char} (passes : Passes raw) (noReturn : '\r' ∉ raw) :
    Renders ('"' :: raw ++ ['"']) [.text raw] where
  lexes {more _} _ follows := by
    rw [List.append_assoc]
    exact lexes_text passes follows
  noReturn := by
    simp only [List.cons_append, List.mem_cons, List.mem_append, List.not_mem_nil, or_false]
    rintro (same | inside | same)
    · exact absurd same (by decide)
    · exact noReturn inside
    · exact absurd same (by decide)

end Renders

/-! ### Names and texts -/

theorem renders_quote (text : String) :
    Renders (Text.quote text) [.text (Text.escapeText text.toList)] :=
  have forms := Forms.of_escapeText text.toList
  .text forms.passes forms.noReturn

theorem isIdentifier_of_isNamePart {name : String} (part : isNamePart name = true) :
    isIdentifier name.toList = true := by
  rw [isNamePart, Bool.and_eq_true, Bool.and_eq_true] at part
  exact part.1.1

/-- The tokens of a name's parts. -/
def partTokens : List String → List Token
  | [] => []
  | [part] => [.identifier part]
  | part :: other :: rest => .identifier part :: .mark .colons :: partTokens (other :: rest)

/-- The parts of a name are read where no identifier goes on. -/
theorem lexes_parts {parts : List String} (proper : ∀ part ∈ parts, isNamePart part = true)
    {more : List Char} {others : List Token}
    (stops : ∀ c, more.head? = some c → isIdentifierPart c = false) (lexes : Lexes more others) :
    Lexes ([':', ':'].intercalate (parts.map String.toList) ++ more)
      (partTokens parts ++ others) := by
  induction parts with
  | nil => exact lexes
  | cons part rest ih =>
    rw [List.forall_mem_cons] at proper
    have identifier := isIdentifier_of_isNamePart proper.1
    cases rest with
    | nil =>
      rw [List.map_singleton, List.intercalate_singleton]
      exact lexes_word identifier stops lexes
    | cons other rest =>
      have after := lexes_mark .colons (by simp [Mark.extension?]) (ih proper.2)
      rw [List.map_cons, List.intercalate_cons_of_ne_nil (by simp), List.append_assoc,
        List.append_assoc]
      exact lexes_word identifier (by simp [isIdentifierPart, isIdentifierStart, Text.isLetter,
        Text.isDigit]) after

theorem toList_text (name : Name) :
    name.text.toList = [':', ':'].intercalate (name.parts.map String.toList) := by
  rw [Name.text, String.toList_intercalate]
  rfl

theorem noReturn_name {name : Name} (proper : name.IsProper) : '\r' ∉ chars name.text := by
  suffices all : ∀ parts : List String, (∀ part ∈ parts, isNamePart part = true) →
      '\r' ∉ [':', ':'].intercalate (parts.map String.toList) by
    rw [chars, toList_text]
    exact all name.parts proper
  intro parts proper
  induction parts with
  | nil => exact nofun
  | cons part rest ih =>
    rw [List.forall_mem_cons] at proper
    have first := (Renders.word (isIdentifier_of_isNamePart proper.1)).noReturn
    cases rest with
    | nil =>
      rw [List.map_singleton, List.intercalate_singleton]
      exact first
    | cons other rest =>
      rw [List.map_cons, List.intercalate_cons_of_ne_nil (by simp)]
      simp only [List.mem_append, not_or]
      exact ⟨⟨first, by decide⟩, ih proper.2⟩

theorem renders_name {name : Name} (proper : name.IsProper) :
    Renders (chars name.text) (partTokens name.parts) where
  lexes breaks follows := by
    rw [chars, toList_text]
    exact lexes_parts proper (fun c head => (breaks c head).1) follows
  noReturn := noReturn_name proper

/-- The tokens of an entity's name. -/
def EntityUid.tokens (uid : EntityUid) : List Token :=
  partTokens uid.type.parts ++ [.mark .colons, .text (Text.escapeText uid.id.toList)]

theorem renders_uid {uid : EntityUid} (proper : uid.IsProper) : Renders uid.print uid.tokens where
  lexes breaks follows := by
    have id := lexes_mark .colons (by simp [Mark.extension?])
      ((renders_quote uid.id).lexes breaks follows)
    rw [EntityUid.print, EntityUid.tokens, chars, toList_text, List.append_assoc,
      List.append_assoc, List.append_assoc]
    exact lexes_parts proper (by simp [isIdentifierPart, isIdentifierStart, Text.isLetter,
      Text.isDigit]) id
  noReturn := by
    have id := (renders_quote uid.id).noReturn
    rw [EntityUid.print, List.mem_append, List.mem_append, not_or, not_or]
    exact ⟨⟨noReturn_name proper, by decide⟩, id⟩

/-! ### Operators -/

/-- The token that an operator is written with. -/
def BinaryOp.token : BinaryOp → Token
  | equal => .mark .equal
  | notEqual => .mark .notEqual
  | less => .mark .less
  | lessEqual => .mark .lessEqual
  | greater => .mark .greater
  | greaterEqual => .mark .greaterEqual
  | and => .mark .and
  | or => .mark .or
  | plus => .mark .plus
  | minus => .mark .minus
  | times => .mark .times
  | op => .identifier op.symbol

/-- An operator that is no method is written between its operands. -/
theorem Expr.print_infix {op : BinaryOp} (infixed : op.isMethod = false) (left right : Expr) :
    (binary op left right).print =
      enclose (left.isAtomic || left.isRowOf op) left.print ++ ' ' :: chars op.symbol ++
        ' ' :: enclose right.isAtomic right.print := by
  rw [print, infixed, if_neg Bool.false_ne_true]

theorem renders_symbol (op : BinaryOp) : Renders (chars op.symbol) [op.token] := by
  cases op
  case equal => exact .mark .equal nofun
  case notEqual => exact .mark .notEqual nofun
  case less => exact .mark .less nofun
  case lessEqual => exact .mark .lessEqual nofun
  case greater => exact .mark .greater nofun
  case greaterEqual => exact .mark .greaterEqual nofun
  case and => exact .mark .and nofun
  case or => exact .mark .or nofun
  case plus => exact .mark .plus nofun
  case minus => exact .mark .minus nofun
  case times => exact .mark .times nofun
  all_goals exact .word (by decide)

end PolicyLedger.Policy
