/-
**Statements and policies.**

Every part that ends at a semicolon is a statement (`hasCode_of_cut`), a gap is none
(`hasCode_of_skips`), and the blanks around a statement do not matter to its tokens
(`Ended.lexes_trim`). So where the cut of a source ends its parts as the tokens do, no policy is
lost: each statement is the policy at its place (`map_parse?_split`). Only the last part may run on
(`Agrees`): a part that was joined with another policy is none (`IsPolicy.parse?_joined`), and a cut
that joins more than that loses a policy (`agrees_of_map_parse?_split`).

The two cuts agree on sources without a carriage return that stands alone
(`cut_eq_lexicalCut`). They differ where one ends a comment: the policies behind it on the line
belong to the comment for the cut, but not for the reader (`Authoring.split_loses_policy`).
-/

import PolicyLedger.Authoring.PolicyFile
import PolicyLedger.Proofs.Authoring.Joins
import PolicyLedger.Proofs.Policy.Parser.Ends
import PolicyLedger.Proofs.Steps
import PolicyLedger.Proofs.Text.Blank
import PolicyLedger.Proofs.Text.Split

namespace PolicyLedger

namespace Statements

open Policy (Token Skips Lexes isLineEnd)

/-- A line without code is blank, or blanks stand before a comment. -/
theorem lineHasCode_eq_false {line : List Char} :
    lineHasCode line = false ↔
      Text.trimLeft line = [] ∨ ∃ body, Text.trimLeft line = '/' :: '/' :: body := by
  rw [lineHasCode, Text.trim]
  cases begins : Text.trimLeft line with
  | nil => simp [Text.trimRight]
  | cons c more =>
    rw [Text.trimRight_cons (Text.visible_of_trimLeft begins)]
    obtain ⟨blanks, whole⟩ := Text.exists_trimRight more
    simp only [Text.stripStart?, List.isEmpty_cons, Bool.not_false, Bool.true_and,
      reduceCtorEq, false_or, List.cons.injEq]
    constructor
    · intro comment
      split at comment
      next slash =>
        cases rest : Text.trimRight more with
        | nil => simp [rest, Text.stripStart?] at comment
        | cons d others =>
          rw [rest] at comment whole
          simp only [Text.stripStart?] at comment
          split at comment
          next second => exact ⟨others ++ blanks, slash.symm, by rw [whole, second]; rfl⟩
          next => simp at comment
      next => simp at comment
    · rintro ⟨body, rfl, rfl⟩
      rw [Text.trimRight_cons (by decide)]
      simp [Text.stripStart?]

/-- A line without code passes the cut up to its end. -/
theorem cutWhere_of_line {line rest : List Char} (free : '\n' ∉ line)
    (blank : lineHasCode line = false) (ended : ∀ c, rest.head? = some c → (c == '\n') = true) :
    cutWhere (· == '\n') .code (line ++ rest) =
      prependAll line (cutWhere (· == '\n') .code rest) := by
  obtain ⟨blanks, whole, white⟩ := Text.exists_blanks line
  have plain : ∀ c ∈ blanks, IsPlain c := fun c inside => isPlain_of_isBlank (white c inside)
  obtain empty | ⟨body, comment⟩ := lineHasCode_eq_false.mp blank
  · rw [empty, List.append_nil] at whole
    rw [whole]
    exact cutWhere_plain plain rest
  · rw [comment] at whole
    have inside : ∀ c ∈ body, (c == '\n') = false := fun c there =>
      beq_eq_false_iff_ne.mpr fun same => free (by rw [whole, ← same]; simp [there])
    have newline : ∀ c, (c == '\n') = true → IsPlain c := fun c same =>
      (beq_iff_eq.mp same) ▸ by decide
    rw [whole, List.append_assoc, cutWhere_plain plain, List.cons_append, List.cons_append,
      cutWhere_slashes (by decide), cutWhere_comment inside, cutWhere_ended newline ended,
      ← prependAll_append, ← prependAll_append, List.append_assoc]
    rfl

/-- Lines without code are not cut. -/
theorem cutWhere_of_lines {lines : List (List Char)} (free : ∀ line ∈ lines, '\n' ∉ line)
    (blank : ∀ line ∈ lines, lineHasCode line = false) :
    cutWhere (· == '\n') .code (Text.join '\n' lines) = [Text.join '\n' lines] := by
  induction lines with
  | nil => rfl
  | cons line lines ih =>
    rw [List.forall_mem_cons] at free blank
    cases lines with
    | nil =>
      have passed := @cutWhere_of_line line [] free.1 blank.1 (by simp)
      rw [List.append_nil] at passed
      rw [Text.join, passed]
      show prependAll line [[]] = _
      rw [prependAll_cons, List.append_nil]
    | cons other others =>
      rw [Text.join, cutWhere_of_line free.1 blank.1 (by simp),
        cutWhere_of_isPlain (by decide), ih free.2 blank.2]
      show prependAll line [_] = _
      rw [prependAll_cons]

/-- A part without code is not cut. -/
theorem cut_of_hasCode {part : List Char} (blank : hasCode part = false) :
    cut .code part = [part] := by
  rw [hasCode, List.any_eq_false] at blank
  have whole := cutWhere_of_lines (fun _ => @Text.not_mem_of_mem_pieces _ part _)
    (fun line inside => Bool.eq_false_iff.mpr (blank line inside))
  rw [Text.join_pieces] at whole
  rw [cut_eq_cutWhere, whole]

/-! ### Parts that end -/

/-- A part that another one follows is cut off in the same way when it stands alone. -/
theorem cut_eq_cons {mode : Mode} {source part next : List Char} {others : List (List Char)}
    (parts : cut mode source = part :: next :: others) :
    cut mode part = [part, []] ∧
      ∃ rest, source = part ++ rest ∧ cut .code rest = next :: others := by
  induction source generalizing mode part with
  | nil => cases parts
  | cons c source ih =>
    rw [cut] at parts
    by_cases ending : mode = .code ∧ c = ';'
    · rw [if_pos ending] at parts
      obtain ⟨rfl, rest⟩ := List.cons.inj parts
      refine ⟨?_, source, rfl, rest⟩
      rw [cut, if_pos ending]
      rfl
    · rw [if_neg ending] at parts
      cases inner : cut (mode.next c source.head?) source with
      | nil =>
        rw [inner] at parts
        cases parts
      | cons first more =>
        rw [inner] at parts
        obtain ⟨rfl, rfl⟩ := List.cons.inj parts
        obtain ⟨alone, rest, rfl, after⟩ := ih inner
        refine ⟨?_, rest, rfl, after⟩
        have nonempty : first ≠ [] := fun empty => by
          rw [empty] at alone
          cases alone
        have same : first.head? = (first ++ rest).head? :=
          (List.head?_append_of_ne_nil _ nonempty).symm
        rw [cut, if_neg ending, same, alone]
        rfl

/-- A part that ends at its semicolon is cut off in front of anything. -/
theorem cut_append_of_ended {mode : Mode} {part : List Char} (ended : cut mode part = [part, []])
    (rest : List Char) : cut mode (part ++ rest) = part :: cut .code rest := by
  induction part generalizing mode with
  | nil => cases ended
  | cons c part ih =>
    rw [cut] at ended
    rw [List.cons_append, cut]
    by_cases ending : mode = .code ∧ c = ';'
    · rw [if_pos ending] at ended ⊢
      obtain ⟨same, -⟩ := List.cons.inj ended
      obtain rfl : [] = part := (List.cons.inj same).2
      rfl
    · rw [if_neg ending] at ended ⊢
      have inner : cut (mode.next c part.head?) part = [part, []] := by
        cases parts : cut (mode.next c part.head?) part with
        | nil =>
          rw [parts] at ended
          cases ended
        | cons first others =>
          rw [parts] at ended
          obtain ⟨same, rfl⟩ := List.cons.inj ended
          obtain rfl : first = part := (List.cons.inj same).2
          rfl
      have nonempty : part ≠ [] := by
        rintro rfl
        cases inner
      have following : (part ++ rest).head? = part.head? := List.head?_append_of_ne_nil _ nonempty
      rw [following, ih inner]
      rfl

/-- Every part that a semicolon ends has code. -/
theorem hasCode_of_cut {parts : List (List Char)} {source gap : List Char}
    (whole : cut .code source = parts ++ [gap]) : ∀ part ∈ parts, hasCode part = true := by
  induction parts generalizing source with
  | nil => simp
  | cons part parts ih =>
    obtain ⟨next, others, more⟩ : ∃ next others, parts ++ [gap] = next :: others :=
      List.exists_cons_of_ne_nil (by simp)
    rw [List.cons_append, more] at whole
    obtain ⟨alone, rest, _, after⟩ := cut_eq_cons whole
    rw [← more] at after
    rw [List.forall_mem_cons]
    refine ⟨?_, ih after⟩
    rw [← Bool.not_eq_false]
    intro blank
    rw [cut_of_hasCode blank] at alone
    cases alone

/-! ### Gaps and blanks -/

theorem lineHasCode_nil : lineHasCode [] = false := rfl

theorem lineHasCode_of_blank {c : Char} (white : Text.isBlank c = true) (line : List Char) :
    lineHasCode (c :: line) = lineHasCode line := by
  rw [lineHasCode, lineHasCode, Text.trim, Text.trimLeft, List.dropWhile_cons_of_pos white]
  rfl

theorem lineHasCode_of_slashes (line : List Char) : lineHasCode ('/' :: '/' :: line) = false :=
  lineHasCode_eq_false.mpr (.inr ⟨line, Text.trimLeft_of_visible (by decide) _⟩)

/-- A blank in front of a part does not matter. -/
theorem hasCode_of_blank {c : Char} (white : Text.isBlank c = true) (part : List Char) :
    hasCode (c :: part) = hasCode part := by
  rw [hasCode, Text.pieces]
  split
  · rw [List.any_cons, lineHasCode_nil, Bool.false_or, hasCode]
  · obtain ⟨first, others, pieces⟩ := List.exists_cons_of_ne_nil (Text.pieces_ne_nil '\n' part)
    rw [hasCode, pieces, List.any_cons, List.any_cons, lineHasCode_of_blank white]

/-- A comment has no code: what follows counts from the next line on. -/
theorem hasCode_of_slashes {body : List Char} (free : '\n' ∉ body) (after : List Char) :
    hasCode ('/' :: '/' :: (body ++ after)) = (Text.pieces '\n' after).tail.any lineHasCode := by
  obtain ⟨first, others, pieces⟩ := List.exists_cons_of_ne_nil (Text.pieces_ne_nil '\n' after)
  have freeLine : '\n' ∉ '/' :: '/' :: body := by simpa using free
  have whole : Text.pieces '\n' ('/' :: '/' :: (body ++ after)) =
      ('/' :: '/' :: (body ++ first)) :: others := Text.pieces_append freeLine pieces
  rw [hasCode, whole, pieces, List.any_cons, lineHasCode_of_slashes, Bool.false_or, List.tail_cons]

/-- A gap has no code. -/
theorem hasCode_of_skips {gap : List Char} (skips : Skips gap []) : hasCode gap = false := by
  generalize empty : ([] : List Char) = rest at skips
  induction skips with
  | stop cs =>
    subst empty
    rfl
  | blank white _ ih => rw [hasCode_of_blank white, ih empty]
  | @comment body after _ inside _ _ ih =>
    have free : '\n' ∉ body := fun there => absurd (inside _ there) (by decide)
    have later := ih empty
    rw [hasCode, List.any_eq_false] at later
    rw [hasCode_of_slashes free, List.any_eq_false]
    exact fun line there => later line (List.mem_of_mem_tail there)

/-- Where a token follows, the blanks in front of a gap may be missing. -/
theorem skips_trimLeft {cs rest : List Char} (skips : Skips cs rest)
    (atToken : ∃ read, Token.next? rest = some read) : Skips (Text.trimLeft cs) rest := by
  induction skips with
  | stop cs =>
    rcases cs with _ | ⟨c, cs⟩
    · exact .stop []
    · have visible : Text.isBlank c = false := by
        rw [Bool.eq_false_iff]
        intro white
        obtain ⟨read, found⟩ := atToken
        rw [Token.next?_of_isBlank white] at found
        cases found
      rw [Text.trimLeft_of_visible visible]
      exact .stop _
  | @blank c cs _ white _ ih =>
    rw [Text.trimLeft, List.dropWhile_cons_of_pos white]
    exact ih atToken
  | comment inside ended skips _ =>
    rw [Text.trimLeft_of_visible (by decide)]
    exact .comment inside ended skips

/-- A gap stays one without the blanks behind it. -/
theorem skips_trimRight {cs : List Char} (skips : Skips cs []) :
    Skips (Text.trimRight cs) [] := by
  generalize empty : ([] : List Char) = rest at skips ⊢
  induction skips with
  | stop cs => exact empty ▸ .stop []
  | @blank c cs _ white _ ih =>
    have ih := ih empty
    rw [← List.singleton_append, Text.trimRight_append]
    split
    · rw [Text.trimRight, List.reverse_singleton, List.dropWhile_cons_of_pos white, ← empty]
      exact .stop []
    · exact .blank white ih
  | @comment body after _ inside ended _ ih =>
    have ih := ih empty
    rw [Text.trimRight_cons (by decide), Text.trimRight_cons (by decide), Text.trimRight_append]
    split
    · obtain ⟨blanks, whole⟩ := Text.exists_trimRight body
      have inside : ∀ c ∈ Text.trimRight body, isLineEnd c = false := fun c there =>
        inside c (whole ▸ List.mem_append_left blanks there)
      have comment := @Skips.comment (Text.trimRight body) [] [] inside (by simp) (.stop [])
      rwa [List.append_nil, empty] at comment
    next nonempty =>
      obtain ⟨blanks, whole⟩ := Text.exists_trimRight after
      refine .comment inside (fun c first => ended c ?_) ih
      rw [whole, List.head?_append_of_ne_nil _ nonempty, first]

namespace Ended

variable {part gap : List Char} {piece : List Token}

theorem trimLeft_append (ended : Ended part piece) (gap : List Char) :
    Text.trimLeft (part ++ gap) = Text.trimLeft part ++ gap := by
  have nonempty := Text.trimLeft_ne_nil ended.last (by decide)
  rw [Text.trimLeft] at nonempty ⊢
  rw [List.dropWhile_append, if_neg (by simpa using nonempty)]
  rfl

/-- Trimming leaves the end of a part. -/
theorem trim_append (ended : Ended part piece) (gap : List Char) :
    Text.trim (part ++ gap) = Text.trimLeft part ++ Text.trimRight gap := by
  have last : (Text.trimLeft part).getLast? = some ';' :=
    Text.getLast?_trimLeft ended.last (by decide)
  rw [Text.trim, ended.trimLeft_append, Text.trimRight_append]
  split
  next blank => rw [Text.trimRight_of_getLast? last (by decide), blank, List.append_nil]
  next => rfl

/-- The blanks around a part, and a gap behind it, do not matter to its tokens. -/
theorem lexes_trim (ended : Ended part piece) (skips : Skips gap []) :
    Lexes (Text.trim (part ++ gap)) (piece ++ [.mark .semicolon]) := by
  have whole := ended.lexes (.done (skips_trimRight skips))
  rw [ended.trim_append, ← ended.trimLeft_append]
  obtain ⟨token, tokens, same⟩ : ∃ token tokens, piece ++ [.mark .semicolon] = token :: tokens :=
    List.exists_cons_of_ne_nil (by simp)
  rw [same] at whole ⊢
  cases whole with
  | token skips read lexes => exact .token (skips_trimLeft skips ⟨_, read⟩) read lexes

/-- Two parts are a part with the tokens of both. -/
theorem append {other : List Char} {more : List Token} (ended : Ended part piece)
    (next : Ended other more) : Ended (part ++ other) (piece ++ .mark .semicolon :: more) where
  last := by
    have nonempty : other ≠ [] := fun empty => by
      have last := next.last
      rw [empty] at last
      cases last
    rw [List.getLast?_append_of_ne_nil _ nonempty, next.last]
  lexes follows := by
    rw [List.append_assoc, List.append_assoc]
    exact ended.lexes (next.lexes follows)

end Ended

/-! ### Statements of accepted sources -/

/-- The two cuts agree on sources in which a line feed follows every carriage return. -/
theorem cutWhere_eq_of_paired {source : List Char}
    (paired : ∀ front back, source = front ++ '\r' :: back → back.head? = some '\n')
    (mode : Mode) : cutWhere (· == '\n') mode source = cutWhere isLineEnd mode source := by
  induction source generalizing mode with
  | nil => rfl
  | cons c source ih =>
    have ih := ih fun front back whole => paired (c :: front) back (by rw [whole]; rfl)
    rw [cutWhere, cutWhere, ih]
    suffices step : cutWhere (· == '\n') (mode.step (· == '\n') c source.head?) source =
        cutWhere isLineEnd (mode.step isLineEnd c source.head?) source by rw [step]
    cases mode with
    | comment =>
      by_cases carriage : c = '\r'
      · -- the line feed that follows ends the comment for the other cut
        obtain ⟨rest, rfl⟩ := List.head?_eq_some_iff.mp (paired [] source (by rw [carriage]; rfl))
        rw [← ih, carriage]
        have newline : ∀ d, (d == '\n') = true → IsPlain d := fun d same =>
          (beq_iff_eq.mp same) ▸ by decide
        exact cutWhere_ended newline
          (fun d same => by rw [← Option.some.inj same]; rfl)
      · have same : (c == '\n') = isLineEnd c := by simp [isLineEnd, carriage]
        rw [Mode.step, Mode.step, ← same]
        exact ih _
    | _ => exact ih _

theorem cut_eq_lexicalCut {source : List Char}
    (paired : ∀ front back, source = front ++ '\r' :: back → back.head? = some '\n') :
    cut .code source = lexicalCut source := by
  rw [cut_eq_cutWhere, lexicalCut, cutWhere_eq_of_paired paired]

/-- A part is a policy up to its end. -/
def IsPolicy (part : List Char) (policy : Policy) : Prop :=
  ∃ piece, Ended part piece ∧ Policy.Parser.Free piece ∧
    Policy.Parser.policy? (piece ++ [.mark .semicolon]) = some (policy, [])

namespace IsPolicy

variable {part gap other : List Char} {policy second : Policy}

/-- A part, with a gap behind it, is its policy when it stands alone. -/
theorem parse?_trim (isPolicy : IsPolicy part policy) (skips : Skips gap []) :
    Policy.parse? (Text.trim (part ++ gap)) = some policy := by
  obtain ⟨piece, ended, _, read⟩ := isPolicy
  rw [Policy.parse?, Policy.tokens?_eq_some_iff.mpr (ended.lexes_trim skips), Option.bind_some,
    read]

theorem parse?_alone (isPolicy : IsPolicy part policy) :
    Policy.parse? (Text.trim part) = some policy := by
  have alone := isPolicy.parse?_trim (.stop [])
  rwa [List.append_nil] at alone

/-- Two policies are no policy. -/
theorem parse?_joined (isPolicy : IsPolicy part policy) (next : IsPolicy other second) :
    Policy.parse? (Text.trim (part ++ other)) = none := by
  obtain ⟨piece, ended, free, read⟩ := isPolicy
  obtain ⟨more, endedNext, _, _⟩ := next
  have lexes := (ended.append endedNext).lexes_trim (.stop [])
  rw [List.append_nil, List.append_assoc, List.cons_append] at lexes
  rw [Policy.parse?, Policy.tokens?_eq_some_iff.mpr lexes, Option.bind_some]
  have ends := Policy.Parser.ends_policy? (more ++ [.mark .semicolon]) free
  rw [read] at ends
  generalize Policy.Parser.policy? (piece ++ .mark .semicolon :: (more ++ [.mark .semicolon])) =
    result at ends ⊢
  cases ends
  cases more <;> rfl

end IsPolicy

/-- The tokens of a row of policies end a part for each of them and leave a gap. -/
theorem lexicalCut_of_parseAll? {source : List Char} {policies : List Policy}
    (accepted : Policy.parseAll? source = some policies) :
    ∃ parts gap, lexicalCut source = parts ++ [gap] ∧ Skips gap [] ∧
      List.Forall₂ IsPolicy parts policies := by
  obtain ⟨tokens, read, accepted⟩ := Option.bind_eq_some_iff.mp accepted
  obtain ⟨pieces, rfl, readEach⟩ := Policy.Parser.policies?_eq_some accepted
  have free : ∀ piece ∈ pieces, Token.mark .semicolon ∉ piece := fun piece inside => by
    obtain ⟨_, _, free, _⟩ := Steps.exists_of_mem_left readEach inside
    exact free
  obtain ⟨parts, gap, whole, skips, endEach⟩ :=
    lexicalCut_of_lexes free (Policy.tokens?_eq_some_iff.mp read)
  exact ⟨parts, gap, whole, skips, Steps.forall₂_trans
    (fun part piece policy ended read => ⟨piece, ended, read⟩) endEach readEach⟩

/-- The cut of a source ends the parts that its tokens end, but the last one may run on to the end
of the source. -/
inductive Agrees (source : List Char) : Prop
  | everywhere (same : cut .code source = lexicalCut source)
  | butLast {front : List (List Char)} {last gap : List Char}
    (tokens : lexicalCut source = front ++ [last, gap])
    (cut : cut .code source = front ++ [last ++ gap]) (code : hasCode (last ++ gap) = true)

/-- The last part is a statement if it has code. -/
theorem split_of_code {source last : List Char} {front : List (List Char)}
    (parted : cut .code source = front ++ [last]) (code : hasCode last = true) :
    split source = (front ++ [last]).map Text.trim := by
  have kept : ∀ part ∈ front ++ [last], hasCode part = true :=
    List.forall_mem_append.mpr ⟨hasCode_of_cut parted, List.forall_mem_singleton.mpr code⟩
  rw [split, parted, List.filter_eq_self.mpr kept]

/-- The last part is no statement if it has no code. -/
theorem split_of_blank {source last : List Char} {front : List (List Char)}
    (parted : cut .code source = front ++ [last]) (blank : hasCode last = false) :
    split source = front.map Text.trim := by
  rw [split, parted, List.filter_append, List.filter_cons_of_neg (by simp [blank]),
    List.filter_nil, List.append_nil, List.filter_eq_self.mpr (hasCode_of_cut parted)]

theorem map_parse?_trim {parts : List (List Char)} {policies : List Policy}
    (related : List.Forall₂ IsPolicy parts policies) :
    (parts.map Text.trim).map Policy.parse? = policies.map some := by
  rw [List.map_map, ← List.forall₂_eq_eq_eq, List.forall₂_map_left_iff, List.forall₂_map_right_iff]
  exact related.imp fun part policy isPolicy => isPolicy.parse?_alone

/-- A source that is a row of policies has one statement for each of them, in their order, if its
cut ends the parts that its tokens end. -/
theorem map_parse?_split {source : List Char} {policies : List Policy}
    (accepted : Policy.parseAll? source = some policies) (agrees : Agrees source) :
    (split source).map Policy.parse? = policies.map some := by
  obtain ⟨parts, gap, whole, skips, related⟩ := lexicalCut_of_parseAll? accepted
  rw [← map_parse?_trim related]
  cases agrees with
  | everywhere same => rw [split_of_blank (same.trans whole) (hasCode_of_skips skips)]
  | @butLast front last rest tokens parted code =>
    have same : (front ++ [last]) ++ [rest] = parts ++ [gap] := by
      rw [← whole, tokens, List.append_assoc]
      rfl
    obtain ⟨rfl, gaps⟩ := List.append_inj' same rfl
    obtain rfl := List.singleton_inj.mp gaps
    obtain ⟨policy, _, isPolicy⟩ := Steps.exists_of_mem_left related
      (List.mem_append_right front List.mem_cons_self)
    rw [split_of_code parted code]
    simp only [List.map_append, List.map_cons, List.map_nil, isPolicy.parse?_trim skips,
      isPolicy.parse?_alone]

/-- A source that is a row of policies has a statement for each of them only if its cut ends the
parts that its tokens end. -/
theorem agrees_of_map_parse?_split {source : List Char} {policies : List Policy}
    (accepted : Policy.parseAll? source = some policies) (apart : Apart .code .code source)
    (parsed : (split source).map Policy.parse? = policies.map some) : Agrees source := by
  obtain ⟨parts, gap, whole, skips, related⟩ := lexicalCut_of_parseAll? accepted
  have joins := joins_cut apart
  have total : (lexicalCut source).length = policies.length + 1 := by
    rw [whole, List.length_append, related.length_eq]
    rfl
  obtain ⟨front, last, parted⟩ : ∃ front last, cut .code source = front ++ [last] :=
    ⟨_, _, (List.dropLast_append_getLast
      (cut_eq_cutWhere .code source ▸ cutWhere_ne_nil _ _ _)).symm⟩
  cases code : hasCode last with
  | true =>
    -- one part less than the tokens end: two neighbours are joined
    rw [split_of_code parted code, ← parted] at parsed
    have many : (cut .code source).length = policies.length := by
      simpa using congrArg List.length parsed
    obtain ⟨before, first, second, back, tokens, joined⟩ := joins.exists_of_length (by omega)
    obtain rfl | ⟨back, final, rfl⟩ := List.eq_nil_or_concat' back
    · obtain ⟨_, same⟩ := List.append_inj' (parted.symm.trans joined) rfl
      exact .butLast tokens joined (List.singleton_inj.mp same ▸ code)
    · -- neither of the two is the gap, so they are policies
      have same : (before ++ first :: second :: back) ++ [final] = parts ++ [gap] := by
        rw [← whole, tokens, List.append_assoc]
        rfl
      obtain ⟨rfl, _⟩ := List.append_inj' same rfl
      obtain ⟨policy, _, isPolicy⟩ := Steps.exists_of_mem_left related
        (List.mem_append_right before List.mem_cons_self)
      obtain ⟨next, _, isNext⟩ := Steps.exists_of_mem_left related
        (List.mem_append_right before (List.mem_cons_of_mem first List.mem_cons_self))
      have inside : Policy.parse? (Text.trim (first ++ second)) ∈ policies.map some := by
        rw [← parsed, joined]
        exact List.mem_map_of_mem
          (List.mem_map_of_mem (List.mem_append_right before List.mem_cons_self))
      rw [isPolicy.parse?_joined isNext] at inside
      obtain ⟨_, _, impossible⟩ := List.mem_map.mp inside
      cases impossible
  | false =>
    rw [split_of_blank parted code] at parsed
    have many : front.length = policies.length := by simpa using congrArg List.length parsed
    refine .everywhere (joins.eq_of_length_le ?_)
    rw [total, parted, List.length_append, many]
    exact Nat.le_refl _

end Statements

/-! ### Sections of accepted sources -/

namespace Authoring

theorem length_outcomes (spec : Specification) (partition : String) (generated : Nat → String)
    (index : Nat) (met : List String) (statements : List (List Char)) :
    (outcomes spec partition generated index met statements).length = statements.length := by
  induction statements generalizing index met with
  | nil => rfl
  | cons statement rest ih => rw [outcomes, List.length_cons, ih, List.length_cons]

/-- A policy file has a slot for each of its statements. -/
theorem length_slots_policyFile {spec : Specification} {generated : Nat → String}
    {partition path : String} {data : Bytes} {source : String} {sections : Sections}
    (decoded : Bytes.toText? data = some source)
    (made : policyFile spec generated partition path data = .ok sections) :
    sections.slots.length = (Statements.split source.toList).length := by
  rw [policyFile, decoded] at made
  split at made
  · obtain rfl := Except.ok.inj made
    rw [fill, List.length_map, List.length_zipIdx, length_outcomes]
  · cases made

/-- No policy of an accepted source is lost if its cut ends the parts that its tokens end: each
statement is the policy at its place, and the file has a slot for each of them. Otherwise one is
lost, if no comment of the cut ends inside a text. -/
theorem split_of_parseAll? {source : String} {policies : List Policy}
    (accepted : Policy.parseAll? source.toList = some policies) :
    (Statements.Agrees source.toList →
      (Statements.split source.toList).map Policy.parse? = policies.map some ∧
        ∀ spec generated partition path sections,
          policyFile spec generated partition path (Bytes.ofText source) = .ok sections →
            sections.slots.length = policies.length) ∧
      (Statements.Apart .code .code source.toList →
        (Statements.split source.toList).map Policy.parse? = policies.map some →
          Statements.Agrees source.toList) := by
  refine ⟨fun agrees => ?_, Statements.agrees_of_map_parse?_split accepted⟩
  have parsed := Statements.map_parse?_split accepted agrees
  refine ⟨parsed, fun spec generated partition path sections made => ?_⟩
  rw [length_slots_policyFile (Bytes.toText?_ofText source) made]
  simpa using congrArg List.length parsed

/-- Two policies, the second after a comment that a character ends. -/
def commentedSource (ending : Char) : String :=
  "permit(principal, action, resource);//" ++ String.singleton ending ++
    "forbid(principal, action, resource);"

/-- A line feed ends the comment for the cut as well. -/
theorem split_of_lineFeed :
    ∃ policies, Policy.parseAll? (commentedSource '\n').toList = some policies ∧
      (Statements.split (commentedSource '\n').toList).map Policy.parse? = policies.map some := by
  refine ⟨_, rfl, ((split_of_parseAll? rfl).1 (.everywhere ?_)).1⟩
  decide

/-- A carriage return ends the comment for the reader only, and the second policy is lost. -/
theorem split_loses_policy :
    ∃ source policies, Policy.parseAll? source = some policies ∧ policies.length = 2 ∧
      (Statements.split source).length = 1 :=
  ⟨(commentedSource '\r').toList, _, rfl, rfl, by decide⟩

end Authoring

end PolicyLedger
