/-
**Policies that are written are read back.**

Annotations, scopes and conditions are read back one after the other, and with them the policy
(`parse?_print`), whatever its names, texts and expressions are, as long as it is proper. No
carriage return is written (`noReturn_print`), so every line ends with a line feed alone.
-/

import PolicyLedger.Proofs.Policy.JsonRoundTrip
import PolicyLedger.Proofs.Policy.Parser.Ends
import PolicyLedger.Proofs.Policy.Parser.ReadsBack
import PolicyLedger.Proofs.Steps

namespace PolicyLedger.Policy

namespace Parser

variable {tokens front rest : List Token}

/-! ### Tokens without a semicolon -/

theorem room_free_append (free : Free front) (rest : List Token) :
    room (front ++ rest) = front.length + room rest := by
  have others : ∀ token ∈ front, decide (token ≠ .mark .semicolon) = true := by
    intro token inside
    refine decide_eq_true ?_
    rintro rfl
    exact free inside
  rw [room, List.takeWhile_append_of_pos others, List.length_append, room]

theorem length_le_room (free : Free front) (rest : List Token) :
    front.length ≤ room (front ++ rest) := by
  rw [room_free_append free]
  exact Nat.le_add_right _ _

theorem free_nil : Free [] := List.not_mem_nil

theorem Free.cons {token : Token} (other : token ≠ .mark .semicolon) (free : Free rest) :
    Free (token :: rest) := by
  rw [Free, List.mem_cons, not_or]
  exact ⟨Ne.symm other, free⟩

theorem Free.append (free : Free front) (next : Free rest) : Free (front ++ rest) := by
  rw [Free, List.mem_append, not_or]
  exact ⟨free, next⟩

/-- No expression has a semicolon. -/
theorem free_of_reads {expr : Expr} (reads : Reads 7 tokens expr) : Free tokens := by
  intro found
  obtain ⟨before, after, rfl, free⟩ := List.eq_append_cons_of_mem found
  -- the reader looks at nothing behind the semicolon, so it is left
  obtain ⟨fuel, read⟩ : ∃ fuel, expr? fuel _ = _ := ⟨_, reads [] _ nofun (Nat.le_refl _)⟩
  have stops := (closedAt fuel).expr before after free
  rw [List.append_nil] at read
  rw [read] at stops
  generalize expr? fuel before = alone at stops
  generalize left : ([] : List Token) = tail at stops
  cases stops
  simp at left

theorem free_partTokens (parts : List String) : Free (partTokens parts) := by
  induction parts with
  | nil => exact free_nil
  | cons part rest ih =>
    cases rest with
    | nil => simp [Free, partTokens]
    | cons other rest =>
      show Free (.identifier part :: .mark .colons :: partTokens (other :: rest))
      exact .cons nofun (.cons nofun ih)

theorem free_uid (uid : EntityUid) : Free uid.tokens :=
  (free_partTokens uid.type.parts).append (by simp [Free])

/-! ### Annotations -/

/-- The tokens of an annotation. -/
def annotationTokens (row : String × Option String) : List Token :=
  .mark .at :: .identifier row.1 ::
    match row.2 with
    | some text => [.mark .openParen, .text (Text.escapeText text.toList), .mark .closeParen]
    | none => []

theorem free_annotations (rows : List (String × Option String)) :
    Free (rows.flatMap annotationTokens) := by
  intro inside
  obtain ⟨⟨key, value⟩, _, there⟩ := List.mem_flatMap.mp inside
  cases value <;> simp [annotationTokens] at there

theorem length_le_annotations (rows : List (String × Option String)) :
    rows.length ≤ (rows.flatMap annotationTokens).length := by
  induction rows with
  | nil => exact Nat.le_refl _
  | cons row rows ih =>
    rw [List.flatMap_cons, List.length_cons, List.length_append, annotationTokens,
      List.length_cons]
    omega

/-- Lines of annotations stand in front of anything. -/
theorem renders_annotations {rows : List (String × Option String)}
    (identifiers : ∀ row ∈ rows, isIdentifier row.1.toList = true) {cs : List Char}
    (renders : Renders cs tokens) :
    Renders (rows.flatMap printAnnotation ++ cs) (rows.flatMap annotationTokens ++ tokens) := by
  induction rows with
  | nil => exact renders
  | cons row rows ih =>
    rw [List.forall_mem_cons] at identifiers
    obtain ⟨key, value⟩ := row
    have word : Renders (chars key) [.identifier key] := .word identifiers.1
    have broken : Breaks ('\n' :: (rows.flatMap printAnnotation ++ cs)) :=
      breaks_cons (by decide)
    have next : Renders ('\n' :: (rows.flatMap printAnnotation ++ cs))
        (rows.flatMap annotationTokens ++ tokens) :=
      (ih identifiers.2).blank (by decide) (by decide)
    cases value with
    | none =>
      have line : Renders ('@' :: (chars key ++ '\n' :: (rows.flatMap printAnnotation ++ cs)))
          (.mark .at :: .identifier key :: (rows.flatMap annotationTokens ++ tokens)) :=
        .mark_append (by rfl : Mark.at.extension? = none) (word.append next broken)
      simpa only [List.flatMap_cons, printAnnotation, annotationTokens, List.cons_append,
        List.append_assoc, List.nil_append] using line
    | some text =>
      have inner := word.append ((renders_quote text).parens.append next broken)
        (breaks_cons (by decide))
      have line : Renders ('@' :: (chars key ++ ('(' :: Text.quote text ++ [')'] ++
          '\n' :: (rows.flatMap printAnnotation ++ cs)))) _ :=
        .mark_append (by rfl : Mark.at.extension? = none) inner
      simpa only [List.flatMap_cons, printAnnotation, annotationTokens, List.cons_append,
        List.append_assoc, List.nil_append] using line

/-- Annotations with growing keys are read in front of a word. -/
theorem annotations?_tokens {rows : List (String × Option String)} {word : String}
    {done : KeyMap (Option String)}
    (sorted : (done.rows ++ rows).Pairwise fun a b => a.1 < b.1) {fuel : Nat}
    (enough : rows.length < fuel) :
    annotations? fuel done (rows.flatMap annotationTokens ++ .identifier word :: rest) =
      some (rows.foldl (fun map row => map.insert row.1 row.2) done,
        .identifier word :: rest) := by
  induction rows generalizing done fuel with
  | nil =>
    obtain ⟨fuel, rfl⟩ := Nat.exists_eq_succ_of_ne_zero (Nat.ne_of_gt enough)
    rfl
  | cons row rows ih =>
    rw [List.length_cons] at enough
    obtain ⟨fuel, rfl⟩ : ∃ less, fuel = less + 1 := ⟨fuel - 1, by omega⟩
    obtain ⟨key, value⟩ := row
    have last : ∀ row ∈ done.rows, row.1 < key := fun row inside =>
      (List.pairwise_append.mp sorted).2.2 row inside _ List.mem_cons_self
    have fresh : ¬ done.contains key = true := by
      intro contained
      obtain ⟨found, same⟩ := Option.isSome_iff_exists.mp contained
      exact String.lt_irrefl key (last _ (Steps.mem_of_lookup same))
    have later : ((done.insert key value).rows ++ rows).Pairwise fun a b => a.1 < b.1 := by
      show (KeyMap.place key value done.rows ++ rows).Pairwise _
      rw [KeyMap.place_eq_append last, ← List.append_cons]
      exact sorted
    have read := ih later (by omega : rows.length < fuel)
    rw [List.flatMap_cons, List.append_assoc]
    cases value with
    | none =>
      show (if done.contains key = true then none else _) = _
      rw [if_neg fresh]
      split
      next same => cases rows <;> cases same
      next same => cases rows <;> cases same
      next => exact read
    | some text =>
      show (if done.contains key = true then none else (textOf? _ >>= _)) = _
      rw [if_neg fresh, textOf?_escapeText]
      exact read

/-- The annotations of a policy are read back in front of its effect. -/
theorem annotations?_read (annotations : KeyMap (Option String)) (word : String)
    (rest : List Token) :
    annotations? (room (annotations.rows.flatMap annotationTokens ++ .identifier word :: rest) + 1)
        .empty (annotations.rows.flatMap annotationTokens ++ .identifier word :: rest) =
      some (annotations, .identifier word :: rest) := by
  have enough : annotations.rows.length < room (annotations.rows.flatMap annotationTokens ++
      .identifier word :: rest) + 1 :=
    Nat.lt_succ_of_le (Nat.le_trans (length_le_annotations _)
      (length_le_room (free_annotations _) _))
  rw [annotations?_tokens (by exact annotations.sorted) enough]
  exact congrArg (fun map => some (map, _)) (KeyMap.ofRows_rows annotations)

/-! ### Scopes -/

/-- A comma or the closing parenthesis follows. -/
def EndsScope (rest : List Token) : Prop :=
  ∃ mark after, rest = .mark mark :: after ∧ (mark = .comma ∨ mark = .closeParen)

theorem EndsScope.moreParts_eq (ends : EndsScope rest) : moreParts rest = ([], rest) := by
  obtain ⟨mark, after, rfl, rfl | rfl⟩ := ends <;> rfl

theorem EndsScope.word?_eq_none (ends : EndsScope rest) (word : String) :
    word? word rest = none := by
  obtain ⟨mark, after, rfl, _⟩ := ends
  rfl

/-- The name of an entity needs no parentheses. -/
theorem scopeEntity?_tokens {uid : EntityUid} (proper : uid.IsProper) (fuel : Nat)
    (rest : List Token) : scopeEntity? (fuel + 1) (uid.tokens ++ rest) = some (uid, rest) := by
  have read := entity?_tokens proper rest
  obtain ⟨first, _, after, tokens⟩ := exists_tokens_eq uid
  rw [tokens] at read ⊢
  exact read

/-- The scope of a principal or a resource is written and read back behind its word. -/
theorem exists_entityScope {scope : EntityScope} (proper : scope.IsProper) {word : String}
    (identifier : isIdentifier word.toList = true) :
    ∃ tokens, Renders (scope.print word) (.identifier word :: tokens) ∧
      ∀ rest, EndsScope rest → entityScope? (tokens ++ rest) = some (scope, rest) := by
  have begins := Renders.word identifier
  have isWord : isIdentifier "is".toList = true := by decide
  have inWord : isIdentifier "in".toList = true := by decide
  cases scope with
  | all =>
    refine ⟨[], begins, fun rest ends => ?_⟩
    obtain ⟨mark, after, rfl, rfl | rfl⟩ := ends <;> rfl
  | equal uid =>
    refine ⟨.mark .equal :: uid.tokens, begins.spaced (.mark .equal (by decide)) (renders_uid proper),
      fun rest _ => ?_⟩
    show (scopeEntity? (room (uid.tokens ++ rest) + 1) (uid.tokens ++ rest)).map _ = _
    rw [scopeEntity?_tokens proper]
    rfl
  | isIn uid =>
    refine ⟨.identifier "in" :: uid.tokens, begins.worded inWord (renders_uid proper),
      fun rest _ => ?_⟩
    show (scopeEntity? (room (uid.tokens ++ rest) + 1) (uid.tokens ++ rest)).map _ = _
    rw [scopeEntity?_tokens proper]
    rfl
  | is type =>
    refine ⟨.identifier "is" :: partTokens type.parts, begins.worded isWord (renders_name proper),
      fun rest ends => ?_⟩
    show (name? (partTokens type.parts ++ rest) >>= _) = _
    rw [name?_partTokens proper ends.moreParts_eq]
    simp only [Option.bind_eq_bind, Option.bind_some, ends.word?_eq_none]
    rfl
  | isWithin type uid =>
    have within := (renders_name proper.1).worded inWord (renders_uid proper.2)
    have whole := begins.worded isWord within
    refine ⟨.identifier "is" :: (partTokens type.parts ++ .identifier "in" :: uid.tokens), ?_,
      fun rest _ => ?_⟩
    · rw [← List.append_assoc, ← List.append_assoc] at whole
      exact whole
    · have named := @name?_partTokens (.identifier "in" :: (uid.tokens ++ rest)) type proper.1 rfl
      rw [List.cons_append, List.append_assoc]
      show (name? (partTokens type.parts ++ .identifier "in" :: (uid.tokens ++ rest)) >>= _) = _
      rw [named]
      show (scopeEntity? (room (uid.tokens ++ rest) + 1) (uid.tokens ++ rest)).map _ = _
      rw [scopeEntity?_tokens proper.2]
      rfl

theorem length_uid_pos (uid : EntityUid) : 1 ≤ uid.tokens.length := by
  rw [EntityUid.tokens, List.length_append, List.length_cons]
  omega

/-- The name of an entity in a list is read with the room that the list gives. -/
theorem scopeEntity?_room {uid : EntityUid} (proper : uid.IsProper) (rest : List Token) :
    scopeEntity? (room (uid.tokens ++ rest)) (uid.tokens ++ rest) = some (uid, rest) := by
  have positive := Nat.le_trans (length_uid_pos uid) (length_le_room (free_uid uid) rest)
  obtain ⟨fuel, same⟩ := Nat.exists_eq_succ_of_ne_zero (Nat.ne_of_gt positive)
  rw [same]
  exact scopeEntity?_tokens proper fuel rest

theorem expect?_closeBracket_uid {uid : EntityUid} (proper : uid.IsProper) (rest : List Token) :
    expect? .closeBracket (uid.tokens ++ rest) = none :=
  (operand_entity proper).opens.opens.expect?_eq_none rfl rest

/-- The names of entities are written with commas between them and read back up to the bracket. -/
theorem exists_scopeEntities {uids : List EntityUid} (proper : ∀ uid ∈ uids, uid.IsProper) :
    ∃ tokens, Renders (separate [',', ' '] (uids.map EntityUid.print)) tokens ∧ Free tokens ∧
      uids.length ≤ tokens.length ∧ ∀ rest fuel, uids.length < fuel →
        scopeEntities? fuel (tokens ++ .mark .closeBracket :: rest) = some (uids, rest) := by
  induction uids with
  | nil =>
    refine ⟨[], .nil, free_nil, Nat.le_refl _, fun rest fuel enough => ?_⟩
    obtain ⟨fuel, rfl⟩ := Nat.exists_eq_succ_of_ne_zero (Nat.ne_of_gt enough)
    rfl
  | cons uid others ih =>
    rw [List.forall_mem_cons] at proper
    obtain ⟨tokens, renders, free, length, read⟩ := ih proper.2
    cases others with
    | nil =>
      refine ⟨uid.tokens, renders_uid proper.1, free_uid uid, length_uid_pos uid,
        fun rest fuel enough => ?_⟩
      obtain ⟨fuel, rfl⟩ : ∃ less, fuel = less + 1 := ⟨fuel - 1, by omega⟩
      rw [scopeEntities?, expect?_closeBracket_uid proper.1, scopeEntity?_room proper.1]
      rfl
    | cons other others =>
      refine ⟨uid.tokens ++ .mark .comma :: tokens, (renders_uid proper.1).comma renders,
        (free_uid uid).append (.cons (by rintro ⟨⟩) free), ?_, fun rest fuel enough => ?_⟩
      · have more := length_uid_pos uid
        rw [List.length_append]
        simp only [List.length_cons] at length ⊢
        omega
      · rw [List.length_cons] at enough
        obtain ⟨fuel, rfl⟩ : ∃ less, fuel = less + 1 := ⟨fuel - 1, by omega⟩
        rw [List.append_assoc, List.cons_append, scopeEntities?, expect?_closeBracket_uid proper.1,
          scopeEntity?_room proper.1]
        show (scopeEntities? fuel (tokens ++ .mark .closeBracket :: rest)).map _ = _
        rw [read rest fuel (by omega)]
        rfl

theorem actionScope?_uids {uids : List EntityUid} {left : List Token}
    (read : scopeList? (room rest + 1) rest = some (uids, left)) :
    actionScope? (.identifier "in" :: rest) = some (.isInAny uids, left) := by
  rw [actionScope?, if_pos rfl, read]

theorem actionScope?_uid {uid : EntityUid} {left : List Token}
    (noList : scopeList? (room rest + 1) rest = none)
    (read : scopeEntity? (room rest + 1) rest = some (uid, left)) :
    actionScope? (.identifier "in" :: rest) = some (.isIn uid, left) := by
  rw [actionScope?, if_pos rfl, noList, read]
  rfl

/-- The scope of an action is written and read back behind its word. -/
theorem exists_actionScope {scope : ActionScope} (proper : scope.IsProper) :
    ∃ tokens, Renders scope.print (.identifier "action" :: tokens) ∧
      ∀ rest, EndsScope rest → actionScope? (tokens ++ rest) = some (scope, rest) := by
  have begins : Renders (chars "action") [.identifier "action"] := .word (by decide)
  have inWord : isIdentifier "in".toList = true := by decide
  cases scope with
  | all =>
    refine ⟨[], begins, fun rest ends => ?_⟩
    obtain ⟨mark, after, rfl, rfl | rfl⟩ := ends <;> rfl
  | equal uid =>
    refine ⟨.mark .equal :: uid.tokens, begins.spaced (.mark .equal (by decide)) (renders_uid proper),
      fun rest _ => ?_⟩
    show (scopeEntity? (room (uid.tokens ++ rest) + 1) (uid.tokens ++ rest)).map _ = _
    rw [scopeEntity?_tokens proper]
    rfl
  | isIn uid =>
    refine ⟨.identifier "in" :: uid.tokens, begins.worded inWord (renders_uid proper),
      fun rest _ => ?_⟩
    have noList : scopeList? (room (uid.tokens ++ rest) + 1) (uid.tokens ++ rest) = none := by
      obtain ⟨first, _, after, tokens⟩ := exists_tokens_eq uid
      rw [tokens]
      rfl
    exact actionScope?_uid noList (scopeEntity?_tokens proper _ rest)
  | isInAny uids =>
    obtain ⟨tokens, renders, free, length, read⟩ := exists_scopeEntities proper
    have list : Renders ('[' :: (separate [',', ' '] (uids.map EntityUid.print) ++ [']']))
        (.mark .openBracket :: (tokens ++ [.mark .closeBracket])) :=
      .mark_append (by rfl : Mark.openBracket.extension? = none)
        (renders.append (.mark .closeBracket (by decide)) (breaks_cons (by decide)))
    refine ⟨.identifier "in" :: .mark .openBracket :: (tokens ++ [.mark .closeBracket]), ?_,
      fun rest _ => ?_⟩
    · have whole := begins.worded inWord list
      show Renders (chars "action in [" ++ separate [',', ' '] (uids.map EntityUid.print) ++ [']'])
        _
      rw [List.append_assoc]
      exact whole
    · have enough := length_le_room (.cons (by rintro ⟨⟩) free : Free (.mark .openBracket :: tokens))
        (.mark .closeBracket :: rest)
      rw [List.length_cons] at enough
      have bracketed := read rest _ (Nat.lt_of_le_of_lt length enough)
      rw [List.cons_append, List.cons_append, List.append_assoc]
      exact actionScope?_uids bracketed

/-! ### Conditions -/

/-- The tokens of a condition, with those of its body. -/
def conditionTokens (kind : ConditionKind) (body : List Token) : List Token :=
  .identifier kind.word :: .mark .openBrace :: (body ++ [.mark .closeBrace])

theorem breaks_conditions (conditions : List Condition) :
    Breaks (conditions.flatMap Condition.print) := by
  cases conditions with
  | nil => exact breaks_nil
  | cons condition others => exact breaks_cons (by decide)

/-- A condition stands in front of what does not run on from its brace. -/
theorem renders_condition {body : Expr} (renders : Renders body.print front) (kind : ConditionKind)
    {cs : List Char} (next : Renders cs tokens) (breaks : Breaks cs) :
    Renders (Condition.print ⟨kind, body⟩ ++ cs) (conditionTokens kind front ++ tokens) := by
  have closed : Renders (' ' :: '\x7d' :: cs) (.mark .closeBrace :: tokens) :=
    ((Renders.mark .closeBrace (by decide)).append next breaks).space
  have block : Renders ('\x7b' :: ' ' :: (body.print ++ (' ' :: '\x7d' :: cs)))
      (.mark .openBrace :: (front ++ .mark .closeBrace :: tokens)) :=
    .mark_append (by rfl : Mark.openBrace.extension? = none)
      (renders.append closed (breaks_cons (by decide))).space
  have word : Renders (chars kind.word) [.identifier kind.word] :=
    .word (by cases kind <;> decide)
  have whole := (word.append block.space (breaks_cons (by decide))).space
  have same : Condition.print ⟨kind, body⟩ ++ cs = ' ' :: (chars kind.word ++
      ' ' :: '\x7b' :: ' ' :: (body.print ++ (' ' :: '\x7d' :: cs))) := by
    rw [Condition.print]
    simp only [List.append_assoc, List.cons_append]
    rfl
  rw [same, conditionTokens, List.cons_append, List.cons_append, List.append_assoc]
  exact whole

/-- A condition is read in front of those that follow. -/
theorem conditions?_condition {body : Expr} (reads : Reads 7 tokens body) (kind : ConditionKind)
    {fuel : Nat} {others : List Condition} {left : List Token}
    (next : conditions? fuel rest = some (others, left)) :
    conditions? (fuel + 1) (conditionTokens kind tokens ++ rest) =
      some (⟨kind, body⟩ :: others, left) := by
  have room := length_le_room (free_of_reads reads) (.mark .closeBrace :: rest)
  have read : expr? _ _ = _ := reads (.mark .closeBrace :: rest)
    (fuelFor (tokens ++ .mark .closeBrace :: rest)) (above_cons (by decide)) (by
      rw [fuelFor]
      omega)
  rw [conditionTokens, List.cons_append, List.cons_append, List.append_assoc, List.singleton_append]
  show (ConditionKind.ofWord? kind.word >>= _) = _
  rw [ConditionKind.ofWord?_word]
  show (expr? (fuelFor _) (tokens ++ .mark .closeBrace :: rest) >>= _) = _
  rw [read]
  show (conditions? fuel rest >>= _) = _
  rw [next]
  rfl

/-- Conditions are written and read back in front of the semicolon. -/
theorem exists_conditions {conditions : List Condition}
    (proper : ∀ condition ∈ conditions, condition.body.IsProper) :
    ∃ tokens, Renders (conditions.flatMap Condition.print) tokens ∧ Free tokens ∧
      conditions.length ≤ tokens.length ∧ ∀ fuel rest, conditions.length < fuel →
        conditions? fuel (tokens ++ .mark .semicolon :: rest) = some (conditions, rest) := by
  induction conditions with
  | nil =>
    refine ⟨[], .nil, free_nil, Nat.le_refl _, fun fuel rest enough => ?_⟩
    obtain ⟨fuel, rfl⟩ := Nat.exists_eq_succ_of_ne_zero (Nat.ne_of_gt enough)
    rfl
  | cons condition others ih =>
    rw [List.forall_mem_cons] at proper
    obtain ⟨kind, body⟩ := condition
    obtain ⟨later, rendersLater, freeLater, length, readLater⟩ := ih proper.2
    obtain ⟨tokens, renders, writes⟩ := isWritten body proper.1
    have free : Free (conditionTokens kind tokens) :=
      .cons nofun (.cons nofun ((free_of_reads writes.reads).append (by simp [Free])))
    refine ⟨conditionTokens kind tokens ++ later,
      renders_condition renders kind rendersLater (breaks_conditions others),
      free.append freeLater, ?_, fun fuel rest enough => ?_⟩
    · simp only [conditionTokens, List.length_cons, List.length_append]
      omega
    · rw [List.length_cons] at enough
      obtain ⟨fuel, rfl⟩ : ∃ less, fuel = less + 1 := ⟨fuel - 1, by omega⟩
      rw [List.append_assoc]
      exact conditions?_condition writes.reads kind (readLater fuel rest (by omega))

/-! ### Whole policies -/

/-- A policy is read from what its parts are read from. -/
theorem policy?_of_parts {policy : Policy}
    {behindPrincipal behindAction behindResource behindScope left : List Token}
    (annotated : annotations? (room tokens + 1) .empty tokens =
      some (policy.annotations, .identifier policy.effect.word :: .mark .openParen ::
        .identifier "principal" :: behindPrincipal))
    (principal : entityScope? behindPrincipal =
      some (policy.principal, .mark .comma :: .identifier "action" :: behindAction))
    (action : actionScope? behindAction =
      some (policy.action, .mark .comma :: .identifier "resource" :: behindResource))
    (resource : entityScope? behindResource =
      some (policy.resource, .mark .closeParen :: behindScope))
    (conditioned : conditions? (room behindScope + 1) behindScope = some (policy.conditions, left))
    (typed : policy.action.isWellTyped = true) : policy? tokens = some (policy, left) := by
  rw [policy?, annotated]
  show (Effect.ofWord? policy.effect.word >>= _) = _
  rw [Effect.ofWord?_word]
  show (entityScope? behindPrincipal >>= _) = _
  rw [principal]
  show (actionScope? behindAction >>= _) = _
  rw [action]
  show (entityScope? behindResource >>= _) = _
  rw [resource]
  show (conditions? (room behindScope + 1) behindScope >>= _) = _
  rw [conditioned]
  show (if policy.action.isWellTyped then _ else none) = _
  rw [if_pos typed]
  rfl

/-- A proper policy is written with tokens that are read as the policy in front of the semicolon. -/
theorem exists_policy {policy : Policy} (proper : policy.IsProper) :
    ∃ tokens front, policy.print = front ++ [';'] ∧ Renders front tokens ∧
      policy? (tokens ++ [.mark .semicolon]) = some (policy, []) := by
  obtain ⟨principal, rendersPrincipal, readPrincipal⟩ :=
    exists_entityScope proper.principal (by decide : isIdentifier "principal".toList = true)
  obtain ⟨action, rendersAction, readAction⟩ := exists_actionScope proper.action
  obtain ⟨resource, rendersResource, readResource⟩ :=
    exists_entityScope proper.resource (by decide : isIdentifier "resource".toList = true)
  obtain ⟨conditions, rendersConditions, freeConditions, length, readConditions⟩ :=
    exists_conditions proper.conditions
  have effect : Renders (chars policy.effect.word) [.identifier policy.effect.word] :=
    .word (by cases policy.effect <;> decide)
  have scope := (rendersPrincipal.comma (rendersAction.comma rendersResource)).parens
  have head := effect.append scope (breaks_cons (by decide))
  have identifiers : ∀ row ∈ policy.annotations.rows, isIdentifier row.1.toList = true :=
    fun row inside => proper.annotations row.1 (List.mem_map_of_mem inside)
  have whole := renders_annotations identifiers (head.append rendersConditions
    (breaks_conditions policy.conditions))
  have print : policy.print = (policy.annotations.rows.flatMap printAnnotation ++
      (chars policy.effect.word ++ ('(' :: (policy.principal.print "principal" ++ [',', ' '] ++
        (policy.action.print ++ [',', ' '] ++ policy.resource.print "resource")) ++ [')']) ++
        policy.conditions.flatMap Condition.print)) ++ [';'] := by
    rw [Policy.print]
    simp only [List.append_assoc, List.cons_append]
    rfl
  refine ⟨_, _, print, whole, ?_⟩
  simp only [List.append_assoc, List.cons_append, List.nil_append]
  refine policy?_of_parts (annotations?_read policy.annotations _ _)
    (readPrincipal _ ⟨_, _, rfl, .inl rfl⟩) (readAction _ ⟨_, _, rfl, .inl rfl⟩)
    (readResource _ ⟨_, _, rfl, .inr rfl⟩) (readConditions _ [] ?_) proper.actionType
  exact Nat.lt_succ_of_le (Nat.le_trans length (length_le_room freeConditions _))

end Parser

/-- A proper policy is read back from its written form. -/
theorem parse?_print {policy : Policy} (proper : policy.IsProper) :
    parse? policy.print = some policy := by
  obtain ⟨tokens, front, whole, renders, read⟩ := Parser.exists_policy proper
  have ended : Lexes [';'] [.mark .semicolon] :=
    lexes_mark .semicolon (by simp [Mark.extension?]) (.done (.stop []))
  have lexes := renders.lexes (breaks_cons (by decide)) ended
  rw [parse?, whole, tokens?_eq_some_iff.mpr lexes, Option.bind_some, read]

/-- No carriage return is written. -/
theorem noReturn_print {policy : Policy} (proper : policy.IsProper) : '\r' ∉ policy.print := by
  obtain ⟨tokens, front, whole, renders, _⟩ := Parser.exists_policy proper
  rw [whole, List.mem_append, not_or]
  exact ⟨renders.noReturn, by decide⟩

end PolicyLedger.Policy
