/-
**Where statements end.**

`cutWhere` is the cut of a source with the characters that end a comment as a parameter. The cut of
`Statements` takes line feeds (`cut_eq_cutWhere`), the reader of tokens takes carriage returns as
well (`lexicalCut`). Where the tokens of a source are known, the lexical cut is known: gaps and
tokens pass (`lexicalCut_of_skips`, `lexicalCut_of_next?`), and every semicolon among the tokens
ends a part (`lexicalCut_of_lexes`).
-/

import Mathlib.Data.List.Forall2
import PolicyLedger.Authoring.Statements
import PolicyLedger.Proofs.Policy.Lexes

namespace PolicyLedger.Statements

open Policy (Token Skips Lexes isLineEnd)

/-- The mode after a character if certain characters end a comment. -/
def Mode.step (ends : Char → Bool) (mode : Mode) (c : Char) (following : Option Char) : Mode :=
  match mode with
  | comment => if ends c then code else comment
  | mode => mode.next c following

/-- The parts of a source if certain characters end a comment. -/
def cutWhere (ends : Char → Bool) (mode : Mode) : List Char → List (List Char)
  | [] => [[]]
  | c :: rest =>
    if mode = .code ∧ c = ';' then [c] :: cutWhere ends .code rest
    else prepend c (cutWhere ends (mode.step ends c rest.head?) rest)

/-- The parts of a source as its tokens end them. -/
def lexicalCut (source : List Char) : List (List Char) := cutWhere isLineEnd .code source

/-- Statements are cut with comments that end at a line feed. -/
theorem cut_eq_cutWhere (mode : Mode) (source : List Char) :
    cut mode source = cutWhere (· == '\n') mode source := by
  induction source generalizing mode with
  | nil => rfl
  | cons c rest ih =>
    have step : mode.next c rest.head? = mode.step (· == '\n') c rest.head? := by
      cases mode <;> simp [Mode.next, Mode.step]
    rw [cut, cutWhere, ih, ih, step]

theorem cutWhere_ne_nil (ends : Char → Bool) (mode : Mode) (source : List Char) :
    cutWhere ends mode source ≠ [] := by
  cases source with
  | nil => exact List.cons_ne_nil _ _
  | cons c rest =>
    rw [cutWhere]
    split
    · exact List.cons_ne_nil _ _
    · rw [prepend.eq_def]
      split <;> exact List.cons_ne_nil _ _

/-! ### Characters in front of parts -/

/-- Characters in front of the first part. -/
def prependAll (word : List Char) (parts : List (List Char)) : List (List Char) :=
  word.foldr prepend parts

@[simp] theorem prependAll_cons (word first : List Char) (parts : List (List Char)) :
    prependAll word (first :: parts) = (word ++ first) :: parts := by
  induction word with
  | nil => rfl
  | cons c word ih =>
    show prepend c (prependAll word (first :: parts)) = _
    rw [ih]
    rfl

theorem prependAll_append (first second : List Char) (parts : List (List Char)) :
    prependAll (first ++ second) parts = prependAll first (prependAll second parts) :=
  List.foldr_append ..

/-! ### Characters that pass -/

/-- Holds of the characters that change no mode in code and end nothing. -/
def IsPlain (c : Char) : Prop := c ≠ '"' ∧ c ≠ '/' ∧ c ≠ ';'

instance (c : Char) : Decidable (IsPlain c) := inferInstanceAs (Decidable (_ ∧ _))

variable {ends : Char → Bool}

theorem cutWhere_of_isPlain {c : Char} (plain : IsPlain c) (rest : List Char) :
    cutWhere ends .code (c :: rest) = prepend c (cutWhere ends .code rest) := by
  obtain ⟨quote, slash, semicolon⟩ := plain
  have mode : Mode.code.step ends c rest.head? = .code := by
    simp [Mode.step, Mode.next, quote, slash]
  rw [cutWhere, if_neg (fun both => semicolon both.2), mode]

/-- Plain characters pass. -/
theorem cutWhere_plain {word : List Char} (plain : ∀ c ∈ word, IsPlain c) (rest : List Char) :
    cutWhere ends .code (word ++ rest) = prependAll word (cutWhere ends .code rest) := by
  induction word with
  | nil => rfl
  | cons c word ih =>
    rw [List.forall_mem_cons] at plain
    rw [List.cons_append, cutWhere_of_isPlain plain.1, ih plain.2]
    rfl

/-- The characters of a comment pass. -/
theorem cutWhere_comment {body : List Char} (inside : ∀ c ∈ body, ends c = false)
    (rest : List Char) :
    cutWhere ends .comment (body ++ rest) = prependAll body (cutWhere ends .comment rest) := by
  induction body with
  | nil => rfl
  | cons c body ih =>
    rw [List.forall_mem_cons] at inside
    have mode : Mode.comment.step ends c (body ++ rest).head? = .comment := by
      simp [Mode.step, inside.1]
    rw [List.cons_append, cutWhere, if_neg (by simp), mode, ih inside.2]
    rfl

/-- Two slashes begin a comment. -/
theorem cutWhere_slashes (slash : ends '/' = false) (rest : List Char) :
    cutWhere ends .code ('/' :: '/' :: rest) =
      prependAll ['/', '/'] (cutWhere ends .comment rest) := by
  have second := @cutWhere_comment ends ['/'] (by simpa using slash) rest
  rw [cutWhere, if_neg (by decide)]
  exact congrArg (prepend '/') second

/-- A comment is over where the source ends or a character ends it. -/
theorem cutWhere_ended (plain : ∀ c, ends c = true → IsPlain c) {rest : List Char}
    (ended : ∀ c, rest.head? = some c → ends c = true) :
    cutWhere ends .comment rest = cutWhere ends .code rest := by
  cases rest with
  | nil => rfl
  | cons c rest =>
    have last := ended c rfl
    have mode : Mode.comment.step ends c rest.head? = .code := by simp [Mode.step, last]
    rw [cutWhere_of_isPlain (plain c last), cutWhere, if_neg (by simp), mode]

/-- A text passes with its closing quotation mark. -/
theorem cutWhere_text {cs raw after : List Char} (read : Token.rawText? cs = some (raw, after)) :
    cutWhere ends .quotedText cs = prependAll (raw ++ ['"']) (cutWhere ends .code after) := by
  induction cs using PolicyLedger.Policy.Token.rawText?.induct generalizing raw with
  | case1 => cases read
  | case2 rest => simp [Token.rawText?] at read
  | case3 c rest plain ih =>
    rw [Token.rawText?, if_neg plain] at read
    obtain ⟨⟨inner, left⟩, found, equal⟩ := Option.map_eq_some_iff.mp read
    obtain ⟨rfl, rfl⟩ := Prod.mk.inj equal
    have first : cutWhere ends .quotedText ('\\' :: c :: rest) =
        prepend '\\' (prepend c (cutWhere ends .quotedText rest)) := by
      rw [cutWhere, if_neg (by decide), cutWhere, if_neg (by simp [Mode.step, Mode.next])]
      rfl
    rw [first, ih found]
    rfl
  | case4 rest =>
    rw [Token.rawText?_quote] at read
    obtain ⟨rfl, rfl⟩ := Prod.mk.inj (Option.some.inj read)
    rw [cutWhere, if_neg (by decide)]
    rfl
  | case5 rest => simp_all [Token.rawText?]
  | case6 c rest _ noQuote noEscape ih =>
    rw [Token.rawText?_cons rest noQuote noEscape] at read
    obtain ⟨⟨inner, left⟩, found, equal⟩ := Option.map_eq_some_iff.mp read
    obtain ⟨rfl, rfl⟩ := Prod.mk.inj equal
    have mode : Mode.quotedText.step ends c rest.head? = .quotedText := by
      simp [Mode.step, Mode.next, noQuote, noEscape]
    rw [cutWhere, if_neg (by simp), mode, ih found]
    rfl

/-! ### Gaps and tokens -/

theorem isPlain_of_isBlank {c : Char} (white : Text.isBlank c = true) : IsPlain c :=
  ⟨fun same => absurd (same ▸ white) (by decide), fun same => absurd (same ▸ white) (by decide),
    fun same => absurd (same ▸ white) (by decide)⟩

theorem isPlain_of_isLineEnd {c : Char} (line : isLineEnd c = true) : IsPlain c :=
  ⟨fun same => absurd (same ▸ line) (by decide), fun same => absurd (same ▸ line) (by decide),
    fun same => absurd (same ▸ line) (by decide)⟩

theorem isPlain_of_isIdentifierPart {c : Char} (part : Policy.isIdentifierPart c = true) :
    IsPlain c :=
  ⟨fun same => absurd (same ▸ part) (by decide), fun same => absurd (same ▸ part) (by decide),
    fun same => absurd (same ▸ part) (by decide)⟩

/-- A gap passes. -/
theorem lexicalCut_of_skips {cs rest : List Char} (skips : Skips cs rest) {gap : List Char}
    (whole : cs = gap ++ rest) : lexicalCut cs = prependAll gap (lexicalCut rest) := by
  suffices passed : ∃ gap, cs = gap ++ rest ∧ lexicalCut cs = prependAll gap (lexicalCut rest) by
    obtain ⟨other, same, passed⟩ := passed
    rw [passed, List.append_cancel_right (whole.symm.trans same)]
  clear whole
  induction skips with
  | stop cs => exact ⟨[], rfl, rfl⟩
  | @blank c cs rest white _ ih =>
    obtain ⟨gap, rfl, passed⟩ := ih
    refine ⟨c :: gap, rfl, ?_⟩
    rw [lexicalCut, cutWhere_of_isPlain (isPlain_of_isBlank white), ← lexicalCut, passed]
    rfl
  | @comment body after rest inside ended _ ih =>
    obtain ⟨gap, rfl, passed⟩ := ih
    refine ⟨'/' :: '/' :: (body ++ gap), by simp, ?_⟩
    rw [lexicalCut, cutWhere_slashes (by decide), cutWhere_comment inside,
      cutWhere_ended (fun c => isPlain_of_isLineEnd) ended, ← lexicalCut, passed,
      ← prependAll_append, ← prependAll_append]
    rfl

/-- A token that is no semicolon passes. -/
theorem lexicalCut_of_next? {cs after : List Char} {token : Token}
    (read : Token.next? cs = some (token, after)) (other : token ≠ .mark .semicolon)
    {word : List Char} (whole : cs = word ++ after) :
    lexicalCut cs = prependAll word (lexicalCut after) := by
  have plain : ∀ {word : List Char}, cs = word ++ after → (∀ c ∈ word, IsPlain c) →
      lexicalCut cs = prependAll word (lexicalCut after) := fun same plain => by
    rw [lexicalCut, same, cutWhere_plain plain]
    rfl
  suffices passed : ∃ word, cs = word ++ after ∧
      lexicalCut cs = prependAll word (lexicalCut after) by
    obtain ⟨other, same, passed⟩ := passed
    rw [passed, List.append_cancel_right (whole.symm.trans same)]
  cases Token.reads_of_next? read with
  | @text rest raw after found =>
    refine ⟨'"' :: (raw ++ ['"']), by rw [(Token.rawText?_split found).1]; simp, ?_⟩
    rw [lexicalCut, cutWhere, if_neg (by decide)]
    show prepend '"' (cutWhere isLineEnd .quotedText rest) = _
    rw [cutWhere_text found]
    rfl
  | @identifier c rest quote letter =>
    have parts : ∀ d ∈ c :: rest.takeWhile Policy.isIdentifierPart, IsPlain d := by
      rw [List.forall_mem_cons]
      have first : Policy.isIdentifierPart c = true := by rw [Policy.isIdentifierPart, letter]; rfl
      exact ⟨isPlain_of_isIdentifierPart first, fun d inside =>
        isPlain_of_isIdentifierPart (List.all_eq_true.mp List.all_takeWhile d inside)⟩
    exact ⟨_, by simp, plain (by simp) parts⟩
  | @number c rest quote letter digit =>
    have part : ∀ {d}, Text.isDigit d = true → Policy.isIdentifierPart d = true := fun digit => by
      rw [Policy.isIdentifierPart, digit, Bool.or_true]
    have parts : ∀ d ∈ c :: rest.takeWhile Text.isDigit, IsPlain d := by
      rw [List.forall_mem_cons]
      exact ⟨isPlain_of_isIdentifierPart (part digit), fun d inside =>
        isPlain_of_isIdentifierPart (part (List.all_eq_true.mp List.all_takeWhile d inside))⟩
    exact ⟨_, by simp, plain (by simp) parts⟩
  | @mark c rest after mark quote letter digit found =>
    have same := (Token.mark?_eq_some_iff.mp found).1
    have parts : ∀ d ∈ mark.chars, IsPlain d := by
      cases mark <;> first | exact absurd rfl other | simp [Policy.Mark.chars, IsPlain]
    exact ⟨_, same, plain same parts⟩

/-- A part ends at its last character, and up to there it is some tokens in front of anything. -/
structure Ended (part : List Char) (piece : List Token) : Prop where
  last : part.getLast? = some ';'
  lexes {more : List Char} {tokens : List Token} (follows : Lexes more tokens) :
    Lexes (part ++ more) (piece ++ .mark .semicolon :: tokens)

/-- A semicolon among the tokens ends a part, and the tokens after it are those of the rest. -/
theorem lexicalCut_of_lexes_append {cs : List Char} {piece more : List Token}
    (lexes : Lexes cs (piece ++ .mark .semicolon :: more))
    (free : Token.mark .semicolon ∉ piece) :
    ∃ part rest, lexicalCut cs = part :: lexicalCut rest ∧ cs = part ++ rest ∧
      Ended part piece ∧ Lexes rest more := by
  induction piece generalizing cs with
  | nil =>
    cases lexes with
    | @token _ begin after _ _ skips read lexes =>
      obtain ⟨gap, rfl, same⟩ := skips.split
      have whole : begin = ';' :: after := by
        cases Token.reads_of_next? read with
        | mark _ _ _ found => exact (Token.mark?_eq_some_iff.mp found).1
      subst whole
      refine ⟨gap ++ [';'], after, ?_, by simp, ⟨List.getLast?_concat, ?_⟩, lexes⟩
      · rw [lexicalCut_of_skips skips rfl, ← prependAll_cons]
        rfl
      · intro more tokens follows
        rw [List.append_assoc]
        exact .token (same (';' :: more) rfl) rfl follows
  | cons token piece ih =>
    rw [List.mem_cons, not_or] at free
    cases lexes with
    | @token _ begin after _ _ skips read lexes =>
      obtain ⟨part, rest, cut, rfl, ended, others⟩ := ih lexes free.2
      obtain ⟨gap, rfl, sameGap⟩ := skips.split
      obtain ⟨word, rfl, nonempty, sameWord⟩ := Token.next?_split read
      have nonemptyPart : part ≠ [] := fun empty => by
        have last := ended.last
        rw [empty] at last
        cases last
      have head : ∀ {front back other : List Char}, front ≠ [] →
          (front ++ other).head? = (front ++ back).head? := fun nonempty => by
        rw [List.head?_append_of_ne_nil _ nonempty, List.head?_append_of_ne_nil _ nonempty]
      refine ⟨gap ++ (word ++ part), rest, ?_, by simp, ⟨?_, ?_⟩, others⟩
      · rw [lexicalCut_of_skips skips rfl, lexicalCut_of_next? read (Ne.symm free.1) rfl, cut,
          prependAll_cons, prependAll_cons]
      · rw [List.getLast?_append_of_ne_nil _ (by simp [nonempty]),
          List.getLast?_append_of_ne_nil _ nonemptyPart, ended.last]
      · intro more tokens follows
        rw [List.append_assoc, List.append_assoc]
        exact .token (sameGap _ (head nonempty)) (sameWord _ (head nonemptyPart))
          (ended.lexes follows)

/-- A source of pieces that end at semicolons has a part for each piece and a gap behind them. -/
theorem lexicalCut_of_lexes {pieces : List (List Token)} {source : List Char}
    (free : ∀ piece ∈ pieces, Token.mark .semicolon ∉ piece)
    (lexes : Lexes source (pieces.flatMap fun piece => piece ++ [.mark .semicolon])) :
    ∃ parts gap, lexicalCut source = parts ++ [gap] ∧ Skips gap [] ∧
      List.Forall₂ Ended parts pieces := by
  induction pieces generalizing source with
  | nil =>
    cases lexes with
    | done skips =>
      refine ⟨[], source, ?_, skips, .nil⟩
      rw [lexicalCut_of_skips skips (List.append_nil _).symm]
      show prependAll source [[]] = _
      rw [prependAll_cons, List.append_nil]
      rfl
  | cons piece pieces ih =>
    rw [List.forall_mem_cons] at free
    rw [List.flatMap_cons, List.append_assoc] at lexes
    obtain ⟨part, rest, cut, _, ended, others⟩ := lexicalCut_of_lexes_append lexes free.1
    obtain ⟨parts, gap, cutRest, skips, related⟩ := ih free.2 others
    exact ⟨part :: parts, gap, by rw [cut, cutRest, List.cons_append], skips,
      .cons ended related⟩

end PolicyLedger.Statements
