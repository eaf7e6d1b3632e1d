/-
**Tokens as a relation.**

The reader of tokens works on fuel. Here the same is said without: `Skips` is a gap of blanks and
comments, and `Lexes` a row of gaps and tokens up to the end (`tokens?_eq_some_iff`). A token is cut
out of the characters it begins with, and only the next character matters besides (`next?_split`),
so gaps and tokens are the same in front of anything that begins with the same character
(`Skips.split`).
-/

import PolicyLedger.Policy.Token

namespace PolicyLedger.Policy

/-- Holds of the characters that end a comment. -/
def isLineEnd (c : Char) : Bool := c == '\n' || c == '\r'

/-- A row of characters begins with blanks and comments, and the others follow. -/
inductive Skips : List Char → List Char → Prop
  | stop (cs : List Char) : Skips cs cs
  | blank {c : Char} {cs rest : List Char} (white : Text.isBlank c = true) (skips : Skips cs rest) :
    Skips (c :: cs) rest
  | comment {body after rest : List Char} (inside : ∀ c ∈ body, isLineEnd c = false)
    (ended : ∀ c, after.head? = some c → isLineEnd c = true) (skips : Skips after rest) :
    Skips ('/' :: '/' :: (body ++ after)) rest

/-- A row of characters is a row of tokens with gaps around them. -/
inductive Lexes : List Char → List Token → Prop
  | done {cs : List Char} (skips : Skips cs []) : Lexes cs []
  | token {cs rest after : List Char} {token : Token} {tokens : List Token} (skips : Skips cs rest)
    (read : Token.next? rest = some (token, after)) (lexes : Lexes after tokens) :
    Lexes cs (token :: tokens)

/-! ### Gaps -/

namespace Skips

theorem of_trimLeft {cs rest : List Char} (skips : Skips (Text.trimLeft cs) rest) :
    Skips cs rest := by
  induction cs with
  | nil => exact skips
  | cons c cs ih =>
    rw [Text.trimLeft, List.dropWhile_cons] at skips
    by_cases white : Text.isBlank c = true
    · rw [if_pos white] at skips
      exact .blank white (ih skips)
    · rw [if_neg white] at skips
      exact skips

/-- A line runs to its end. -/
theorem head?_dropWhile_line {cs : List Char} (c : Char)
    (first : (cs.dropWhile fun c => c ≠ '\n' ∧ c ≠ '\r').head? = some c) : isLineEnd c = true := by
  have stopped := List.head?_dropWhile_not (fun c => decide (c ≠ '\n' ∧ c ≠ '\r')) cs
  rw [first] at stopped
  simpa [isLineEnd, Decidable.or_iff_not_imp_left] using stopped

theorem of_mem_takeWhile_line {cs : List Char} {c : Char}
    (inside : c ∈ cs.takeWhile fun c => c ≠ '\n' ∧ c ≠ '\r') : isLineEnd c = false := by
  have test := List.all_eq_true.mp List.all_takeWhile c inside
  simpa [isLineEnd] using test

/-- What the reader skips is a gap. -/
theorem of_skip (fuel : Nat) (cs : List Char) : Skips cs (Token.skip fuel cs) := by
  induction fuel generalizing cs with
  | zero => exact .stop cs
  | succ fuel ih =>
    rw [Token.skip]
    refine of_trimLeft ?_
    split
    next body begins =>
      rw [begins]
      have whole := List.takeWhile_append_dropWhile (p := fun c => c ≠ '\n' ∧ c ≠ '\r') (l := body)
      have skips := Skips.comment (fun _ => @of_mem_takeWhile_line body _)
        head?_dropWhile_line (ih (body.dropWhile fun c => c ≠ '\n' ∧ c ≠ '\r'))
      rw [whole] at skips
      exact skips
    · exact .stop _

theorem length_le {cs rest : List Char} (skips : Skips cs rest) : rest.length ≤ cs.length := by
  induction skips with
  | stop => exact Nat.le_refl _
  | blank _ _ ih => exact Nat.le_succ_of_le ih
  | comment _ _ _ ih =>
    simp only [List.length_cons, List.length_append]
    omega

/-- A gap is the same in front of what begins with the same character. -/
theorem split {cs rest : List Char} (skips : Skips cs rest) :
    ∃ gap, cs = gap ++ rest ∧ ∀ other : List Char, other.head? = rest.head? →
      Skips (gap ++ other) other := by
  induction skips with
  | stop cs => exact ⟨[], rfl, fun other _ => .stop other⟩
  | @blank c _ _ white _ ih =>
    obtain ⟨gap, rfl, same⟩ := ih
    exact ⟨c :: gap, rfl, fun other begins => .blank white (same other begins)⟩
  | @comment body after rest inside ended _ ih =>
    obtain ⟨gap, rfl, same⟩ := ih
    refine ⟨'/' :: '/' :: (body ++ gap), by simp, fun other begins => ?_⟩
    have skips := Skips.comment inside (fun c first => ended c ?_) (same other begins)
    · rw [← List.append_assoc] at skips
      exact skips
    · rw [List.head?_append, ← begins, ← List.head?_append]
      exact first

end Skips

/-! ### Marks -/

namespace Mark

/-- The written form of a mark. -/
def chars : Mark → List Char
  | .at => ['@']
  | dot => ['.']
  | comma => [',']
  | semicolon => [';']
  | colon => [':']
  | colons => [':', ':']
  | openParen => ['(']
  | closeParen => [')']
  | openBrace => ['\x7b']
  | closeBrace => ['\x7d']
  | openBracket => ['[']
  | closeBracket => [']']
  | equal => ['=', '=']
  | notEqual => ['!', '=']
  | less => ['<']
  | lessEqual => ['<', '=']
  | greater => ['>']
  | greaterEqual => ['>', '=']
  | or => ['|', '|']
  | and => ['&', '&']
  | plus => ['+']
  | minus => ['-']
  | times => ['*']
  | not => ['!']

/-- The character that makes a mark a longer one. -/
def extension? : Mark → Option Char
  | colon => some ':'
  | less | greater | not => some '='
  | _ => none

end Mark

/-- A mark is read where it is written and no longer one is. -/
theorem Token.mark?_eq_some_iff {cs after : List Char} {mark : Mark} :
    Token.mark? cs = some (mark, after) ↔
      cs = mark.chars ++ after ∧ ∀ c, mark.extension? = some c → after.head? ≠ some c := by
  constructor
  · intro read
    unfold Token.mark? at read
    split at read
    case h_25 => cases read
    all_goals
      obtain ⟨rfl, rfl⟩ := Prod.mk.inj (Option.some.inj read)
      refine ⟨rfl, fun c extended first => ?_⟩
      cases extended
    all_goals
      obtain ⟨more, rfl⟩ := List.head?_eq_some_iff.mp first
      simp_all
  · rintro ⟨rfl, shortest⟩
    cases mark
    case colon | less | greater | not =>
      have other := shortest _ rfl
      rcases after with _ | ⟨c, after⟩
      · rfl
      · simp_all [Mark.chars, Token.mark?]
    all_goals rfl

/-! ### Words of tokens -/

namespace Token

theorem rawText?_quote (rest : List Char) : rawText? ('"' :: rest) = some ([], rest) := by
  simp [rawText?]

theorem rawText?_cons {c : Char} (rest : List Char) (noQuote : c ≠ '"') (noEscape : c ≠ '\\') :
    rawText? (c :: rest) = (rawText? rest).map fun (read, rest) => (c :: read, rest) := by
  rw [rawText?, if_neg noQuote, if_neg noEscape]
  exact fun _ _ same => absurd same noEscape

/-- The characters of texts end with the quotation mark, whatever follows it. -/
theorem rawText?_split {cs raw after : List Char} (read : rawText? cs = some (raw, after)) :
    cs = raw ++ '"' :: after ∧ ∀ other, rawText? (raw ++ '"' :: other) = some (raw, other) := by
  induction cs using rawText?.induct generalizing raw with
  | case1 => cases read
  | case2 rest => simp [rawText?] at read
  | case3 c rest plain ih =>
    rw [rawText?, if_neg plain] at read
    obtain ⟨⟨inner, left⟩, found, equal⟩ := Option.map_eq_some_iff.mp read
    obtain ⟨rfl, rfl⟩ := Prod.mk.inj equal
    obtain ⟨rfl, same⟩ := ih found
    refine ⟨rfl, fun other => ?_⟩
    rw [List.cons_append, List.cons_append, rawText?, if_neg plain, same]
    rfl
  | case4 rest =>
    rw [rawText?_quote] at read
    obtain ⟨rfl, rfl⟩ := Prod.mk.inj (Option.some.inj read)
    exact ⟨rfl, rawText?_quote⟩
  | case5 rest => simp_all [rawText?]
  | case6 c rest _ noQuote noEscape ih =>
    rw [rawText?_cons rest noQuote noEscape] at read
    obtain ⟨⟨inner, left⟩, found, equal⟩ := Option.map_eq_some_iff.mp read
    obtain ⟨rfl, rfl⟩ := Prod.mk.inj equal
    obtain ⟨rfl, same⟩ := ih found
    refine ⟨rfl, fun other => ?_⟩
    rw [List.cons_append, rawText?_cons _ noQuote noEscape, same]
    rfl

theorem takeWhile_append_of_head? {p : Char → Bool} {cs other : List Char}
    (same : other.head? = (cs.dropWhile p).head?) :
    (cs.takeWhile p ++ other).takeWhile p = cs.takeWhile p ∧
      (cs.takeWhile p ++ other).dropWhile p = other := by
  have stopped := List.head?_dropWhile_not p cs
  have inside := List.all_eq_true.mp (List.all_takeWhile (p := p) (l := cs))
  rw [List.takeWhile_append_of_pos inside, List.dropWhile_append_of_pos inside]
  cases other with
  | nil => simp
  | cons c other =>
    rw [← same] at stopped
    simp only [List.head?_cons] at stopped
    rw [List.takeWhile_cons_of_neg (by simp [stopped]),
      List.dropWhile_cons_of_neg (by simp [stopped])]
    exact ⟨List.append_nil _, rfl⟩

/-- The ways in which a token is read. -/
inductive Reads : List Char → Token → List Char → Prop
  | text {rest raw after : List Char} (read : rawText? rest = some (raw, after)) :
    Reads ('"' :: rest) (text raw) after
  | identifier {c : Char} {rest : List Char} (noQuote : c ≠ '"')
    (letter : isIdentifierStart c = true) :
    Reads (c :: rest) (identifier (String.ofList (c :: rest.takeWhile isIdentifierPart)))
      (rest.dropWhile isIdentifierPart)
  | number {c : Char} {rest : List Char} (noQuote : c ≠ '"')
    (noLetter : ¬ isIdentifierStart c = true) (digit : Text.isDigit c = true) :
    Reads (c :: rest) (number (Text.decimalValue (c :: rest.takeWhile Text.isDigit)))
      (rest.dropWhile Text.isDigit)
  | mark {c : Char} {rest after : List Char} {mark : Mark} (noQuote : c ≠ '"')
    (noLetter : ¬ isIdentifierStart c = true) (noDigit : ¬ Text.isDigit c = true)
    (read : mark? (c :: rest) = some (mark, after)) : Reads (c :: rest) (.mark mark) after

/-- A token is read in one of these ways. -/
theorem reads_of_next? {cs after : List Char} {token : Token}
    (read : next? cs = some (token, after)) : Reads cs token after := by
  rcases cs with _ | ⟨c, rest⟩
  · cases read
  rw [next?] at read
  by_cases quote : c = '"'
  · rw [if_pos quote] at read
    obtain ⟨⟨raw, left⟩, found, equal⟩ := Option.map_eq_some_iff.mp read
    obtain ⟨rfl, rfl⟩ := Prod.mk.inj equal
    exact quote ▸ .text found
  rw [if_neg quote] at read
  by_cases letter : isIdentifierStart c = true
  · rw [if_pos letter] at read
    obtain ⟨rfl, rfl⟩ := Prod.mk.inj (Option.some.inj read)
    exact .identifier quote letter
  rw [if_neg letter] at read
  by_cases digit : Text.isDigit c = true
  · rw [if_pos digit] at read
    obtain ⟨rfl, rfl⟩ := Prod.mk.inj (Option.some.inj read)
    exact .number quote letter digit
  rw [if_neg digit] at read
  obtain ⟨⟨mark, left⟩, found, equal⟩ := Option.map_eq_some_iff.mp read
  obtain ⟨rfl, rfl⟩ := Prod.mk.inj equal
  exact .mark quote letter digit found

/-- A token is cut out of its word, and only the next character matters besides. -/
theorem next?_split {cs after : List Char} {token : Token} (read : next? cs = some (token, after)) :
    ∃ word, cs = word ++ after ∧ word ≠ [] ∧ ∀ other : List Char, other.head? = after.head? →
      next? (word ++ other) = some (token, other) := by
  cases reads_of_next? read with
  | @text rest raw after found =>
    obtain ⟨rfl, same⟩ := rawText?_split found
    refine ⟨'"' :: (raw ++ ['"']), by simp, List.cons_ne_nil _ _, fun other _ => ?_⟩
    rw [List.cons_append, List.append_assoc, next?, if_pos rfl]
    show (rawText? (raw ++ '"' :: other)).map _ = _
    rw [same]
    rfl
  | @identifier c rest quote letter =>
    refine ⟨c :: rest.takeWhile isIdentifierPart, by simp, List.cons_ne_nil _ _, ?_⟩
    intro other same
    obtain ⟨taken, dropped⟩ := takeWhile_append_of_head? same
    rw [List.cons_append, next?, if_neg quote, if_pos letter, taken, dropped]
  | @number c rest quote letter digit =>
    refine ⟨c :: rest.takeWhile Text.isDigit, by simp, List.cons_ne_nil _ _, ?_⟩
    intro other same
    obtain ⟨taken, dropped⟩ := takeWhile_append_of_head? same
    rw [List.cons_append, next?, if_neg quote, if_neg letter, if_pos digit, taken, dropped]
  | @mark c rest after mark quote letter digit found =>
    obtain ⟨whole, shortest⟩ := mark?_eq_some_iff.mp found
    have written : mark.chars ≠ [] := by cases mark <;> exact List.cons_ne_nil _ _
    refine ⟨mark.chars, whole, written, fun other same => ?_⟩
    have again : mark? (mark.chars ++ other) = some (mark, other) :=
      mark?_eq_some_iff.mpr ⟨rfl, by rw [same]; exact shortest⟩
    obtain ⟨first, more, chars⟩ := List.exists_cons_of_ne_nil written
    rw [chars, List.cons_append] at again whole ⊢
    obtain rfl : c = first := (List.cons.inj whole).1
    rw [next?, if_neg quote, if_neg letter, if_neg digit, again]
    rfl

/-- Blanks are no letters, digits or underscores. -/
theorem not_isIdentifierPart_of_isBlank {c : Char} (white : Text.isBlank c = true) :
    isIdentifierPart c = false := by
  rw [Bool.eq_false_iff]
  intro part
  simp only [Text.isBlank, isIdentifierPart, isIdentifierStart, Text.isLetter, Text.isDigit,
    Bool.or_eq_true, Bool.and_eq_true, decide_eq_true_eq, beq_iff_eq, Char.le_def,
    UInt32.le_iff_toNat_le, Char.toNat] at white part
  obtain ((part | part) | part) | part := part
  · simp at part white
    omega
  · simp at part white
    omega
  · subst part
    simp at white
  · simp at part white
    omega

/-- No token begins with a blank. -/
theorem next?_of_isBlank {c : Char} {rest : List Char} (white : Text.isBlank c = true) :
    next? (c :: rest) = none := by
  have part := not_isIdentifierPart_of_isBlank white
  rw [isIdentifierPart, Bool.or_eq_false_iff] at part
  have quote : c ≠ '"' := fun same => absurd (same ▸ white) (by decide)
  rw [next?, if_neg quote, if_neg (by simp [part.1]), if_neg (by simp [part.2])]
  cases found : mark? (c :: rest) with
  | none => rfl
  | some read =>
    obtain ⟨mark, after⟩ := read
    have whole := (mark?_eq_some_iff.mp found).1
    cases mark <;> (obtain rfl := (List.cons.inj whole).1; exact absurd white (by decide))

/-- No token begins with a slash. -/
theorem next?_of_slash (rest : List Char) : next? ('/' :: rest) = none := by
  rw [next?, if_neg (by decide), if_neg (by decide), if_neg (by decide)]
  cases found : mark? ('/' :: rest) with
  | none => rfl
  | some read =>
    obtain ⟨mark, after⟩ := read
    have whole := (mark?_eq_some_iff.mp found).1
    cases mark <;> exact absurd (List.cons.inj whole).1 (by decide)

/-! ### The whole reader -/

theorem skip_blank (fuel : Nat) {c : Char} (cs : List Char) (white : Text.isBlank c = true) :
    skip (fuel + 1) (c :: cs) = skip (fuel + 1) cs := by
  rw [skip.eq_2, skip.eq_2, Text.trimLeft, List.dropWhile_cons_of_pos white]
  rfl

theorem skip_comment (fuel : Nat) (body : List Char) :
    skip (fuel + 1) ('/' :: '/' :: body) =
      skip fuel (body.dropWhile fun c => c ≠ '\n' ∧ c ≠ '\r') := rfl

/-- A comment is skipped up to the end of its line. -/
theorem skip_comment_append (fuel : Nat) {body after : List Char}
    (inside : ∀ c ∈ body, isLineEnd c = false)
    (ended : ∀ c, after.head? = some c → isLineEnd c = true) :
    skip (fuel + 1) ('/' :: '/' :: (body ++ after)) = skip fuel after := by
  have line : ∀ c ∈ body, decide (c ≠ '\n' ∧ c ≠ '\r') = true := fun c there => by
    simpa [isLineEnd] using inside c there
  have rest : after.dropWhile (fun c => decide (c ≠ '\n' ∧ c ≠ '\r')) = after := by
    cases after with
    | nil => rfl
    | cons c after =>
      have first := ended c rfl
      rw [List.dropWhile_cons_of_neg]
      simpa [isLineEnd, Decidable.or_iff_not_imp_left] using first
  rw [skip_comment, List.dropWhile_append_of_pos line, rest]

/-- Where a token is read or nothing is left, nothing is skipped. -/
theorem skip_of_next? (fuel : Nat) {cs : List Char}
    (atToken : cs = [] ∨ ∃ read, next? cs = some read) : skip (fuel + 1) cs = cs := by
  obtain rfl | ⟨read, found⟩ := atToken
  · rfl
  · rcases cs with _ | ⟨c, cs⟩
    · rfl
    · have visible : ¬ Text.isBlank c = true := fun white => by
        rw [next?_of_isBlank white] at found
        cases found
      have noSlash : c ≠ '/' := fun same => by
        rw [same, next?_of_slash] at found
        cases found
      rw [skip.eq_2, Text.trimLeft, List.dropWhile_cons_of_neg visible]
      split
      next same => exact absurd (List.cons.inj same).1 noSlash
      · rfl

end Token

/-- The reader skips the whole gap. -/
theorem Skips.skip_eq {cs rest : List Char} (skips : Skips cs rest)
    (atToken : rest = [] ∨ ∃ read, Token.next? rest = some read) (fuel : Nat)
    (enough : cs.length ≤ fuel) : Token.skip (fuel + 1) cs = rest := by
  induction skips generalizing fuel with
  | stop cs => exact Token.skip_of_next? fuel atToken
  | @blank c cs rest white _ ih =>
    rw [Token.skip_blank fuel cs white]
    exact ih atToken fuel (Nat.le_of_succ_le enough)
  | @comment body after rest inside ended skips ih =>
    simp only [List.length_cons, List.length_append] at enough
    obtain ⟨fuel, rfl⟩ : ∃ more, fuel = more + 1 := ⟨fuel - 1, by omega⟩
    rw [Token.skip_comment_append _ inside ended]
    exact ih atToken fuel (by omega)

/-- What the reader gives is a row of tokens, and the other way round. -/
theorem lexes_of_readAll {fuel : Nat} {cs : List Char} {tokens : List Token}
    (read : Token.readAll fuel cs = some tokens) : Lexes cs tokens := by
  induction fuel generalizing cs tokens with
  | zero => cases read
  | succ fuel ih =>
    have skips := Skips.of_skip (fuel + 1) cs
    rw [Token.readAll] at read
    generalize Token.skip (fuel + 1) cs = rest at skips read
    rcases rest with _ | ⟨c, rest⟩
    · obtain rfl := Option.some.inj read
      exact .done skips
    · cases next : Token.next? (c :: rest) with
      | none =>
        simp only [next] at read
        cases read
      | some step =>
        simp only [next] at read
        obtain ⟨others, readOthers, rfl⟩ := Option.map_eq_some_iff.mp read
        exact .token skips next (ih readOthers)

theorem readAll_of_lexes {cs : List Char} {tokens : List Token} (lexes : Lexes cs tokens)
    (fuel : Nat) (enough : cs.length ≤ fuel) : Token.readAll (fuel + 1) cs = some tokens := by
  induction lexes generalizing fuel with
  | done skips => rw [Token.readAll, skips.skip_eq (.inl rfl) fuel enough]
  | @token cs rest after token tokens skips read _ ih =>
    have shorter := skips.length_le
    rw [Token.readAll, skips.skip_eq (.inr ⟨_, read⟩) fuel enough]
    obtain ⟨word, rfl, nonempty, _⟩ := Token.next?_split read
    have progress := List.length_pos_iff.mpr nonempty
    rw [List.length_append] at shorter
    obtain ⟨first, more, rfl⟩ := List.exists_cons_of_ne_nil nonempty
    rw [List.cons_append] at read ⊢
    obtain ⟨fuel, rfl⟩ : ∃ more, fuel = more + 1 := ⟨fuel - 1, by omega⟩
    simp only [read, ih fuel (by omega), Option.map_some]

/-- The tokens of a source. -/
theorem tokens?_eq_some_iff {source : List Char} {tokens : List Token} :
    tokens? source = some tokens ↔ Lexes source tokens :=
  ⟨lexes_of_readAll, fun lexes => readAll_of_lexes lexes _ (Nat.le_refl _)⟩

end PolicyLedger.Policy
