/-
**Readers stop at semicolons.**

No reader of names and expressions looks past a semicolon: tokens without one are read in the same
way whatever follows behind a semicolon (`Closed`). Sequences of such readers are such readers
(`Stops.bind`), and so are the readers of expressions, by induction on their fuel (`closedAt`).
-/

import PolicyLedger.Policy.Parser

namespace PolicyLedger.Policy.Parser

/-- Holds of tokens without a semicolon. -/
def Free (tokens : List Token) : Prop := Token.mark .semicolon ∉ tokens

/-- A result for tokens with a tail and the result without the tail: both fail, or both read the
same and leave the same, the tail apart. -/
inductive Stops {α : Type} (tail : List Token) :
    Option (α × List Token) → Option (α × List Token) → Prop
  | fails : Stops tail none none
  | reads (value : α) {left : List Token} (free : Free left) :
    Stops tail (some (value, left ++ tail)) (some (value, left))

/-- A reader that looks at nothing behind a semicolon. -/
def Closed {α : Type} (read? : List Token → Option (α × List Token)) : Prop :=
  ∀ tokens rest, Free tokens →
    Stops (.mark .semicolon :: rest) (read? (tokens ++ .mark .semicolon :: rest)) (read? tokens)

section

variable {α β : Type} {rest : List Token}

theorem Free.tail {token : Token} {tokens : List Token} (free : Free (token :: tokens)) :
    Free tokens := fun inside => free (List.mem_cons_of_mem _ inside)

theorem not_free_semicolon {tokens : List Token} : ¬ Free (.mark .semicolon :: tokens) :=
  fun free => free List.mem_cons_self

/-! ### Sequences of readers -/

theorem Stops.bind {tail : List Token} {a b : Option (α × List Token)}
    {next? : α × List Token → Option (β × List Token)} (stops : Stops tail a b)
    (step : ∀ value left, Free left →
      Stops tail (next? (value, left ++ tail)) (next? (value, left))) :
    Stops tail (a >>= next?) (b >>= next?) := by
  cases stops with
  | fails => exact .fails
  | reads value free => exact step value _ free

theorem Stops.map {tail : List Token} {a b : Option (α × List Token)} {f : α → β}
    (stops : Stops tail a b) :
    Stops tail (a.map fun (value, left) => (f value, left))
      (b.map fun (value, left) => (f value, left)) := by
  cases stops with
  | fails => exact .fails
  | reads value free => exact .reads (f value) free

/-- What is read from a value that does not depend on the tokens. -/
theorem Stops.of_option {tail left : List Token} (value? : Option α) (f : α → β)
    (free : Free left) :
    Stops tail (value?.map fun value => (f value, left ++ tail))
      (value?.map fun value => (f value, left)) := by
  cases value? with
  | none => exact .fails
  | some value => exact .reads (f value) free

theorem Stops.given {γ : Type} {tail : List Token} (value? : Option γ)
    {a b : γ → Option (α × List Token)} (step : ∀ value, Stops tail (a value) (b value)) :
    Stops tail (value? >>= a) (value? >>= b) := by
  cases value? with
  | none => exact .fails
  | some value => exact step value

/-- An expected mark is there or not, whatever follows behind a semicolon. -/
theorem expect?_append (rest : List Token) {mark : Mark} (other : mark ≠ .semicolon)
    {tokens : List Token} (free : Free tokens) :
    expect? mark tokens = none ∧ expect? mark (tokens ++ .mark .semicolon :: rest) = none ∨
      ∃ left, Free left ∧ expect? mark tokens = some left ∧
        expect? mark (tokens ++ .mark .semicolon :: rest) =
          some (left ++ .mark .semicolon :: rest) := by
  rcases tokens with _ | ⟨token, tokens⟩
  · exact .inl ⟨rfl, if_neg (Ne.symm other)⟩
  · cases token with
    | mark found =>
      by_cases same : found = mark
      · exact .inr ⟨tokens, free.tail, if_pos same, if_pos same⟩
      · exact .inl ⟨if_neg same, if_neg same⟩
    | identifier => exact .inl ⟨rfl, rfl⟩
    | number => exact .inl ⟨rfl, rfl⟩
    | text => exact .inl ⟨rfl, rfl⟩

theorem word?_append (rest : List Token) (word : String) {tokens : List Token}
    (free : Free tokens) :
    word? word tokens = none ∧ word? word (tokens ++ .mark .semicolon :: rest) = none ∨
      ∃ left, Free left ∧ word? word tokens = some left ∧
        word? word (tokens ++ .mark .semicolon :: rest) =
          some (left ++ .mark .semicolon :: rest) := by
  rcases tokens with _ | ⟨token, tokens⟩
  · exact .inl ⟨rfl, rfl⟩
  · cases token with
    | identifier found =>
      by_cases same : found = word
      · exact .inr ⟨tokens, free.tail, if_pos same, if_pos same⟩
      · exact .inl ⟨if_neg same, if_neg same⟩
    | mark => exact .inl ⟨rfl, rfl⟩
    | number => exact .inl ⟨rfl, rfl⟩
    | text => exact .inl ⟨rfl, rfl⟩

/-- A step after an expected mark. -/
theorem Stops.expect {mark : Mark} (other : mark ≠ .semicolon) {tokens : List Token}
    (free : Free tokens) {next? : List Token → Option (α × List Token)}
    (step : ∀ left, Free left → Stops (.mark .semicolon :: rest)
      (next? (left ++ .mark .semicolon :: rest)) (next? left)) :
    Stops (.mark .semicolon :: rest)
      (expect? mark (tokens ++ .mark .semicolon :: rest) >>= next?)
      (expect? mark tokens >>= next?) := by
  obtain ⟨first, second⟩ | ⟨left, free, first, second⟩ := expect?_append rest other free
  · rw [first, second]
    exact .fails
  · rw [first, second]
    exact step left free

theorem Stops.word {word : String} {tokens : List Token} (free : Free tokens)
    {next? : List Token → Option (α × List Token)}
    (step : ∀ left, Free left → Stops (.mark .semicolon :: rest)
      (next? (left ++ .mark .semicolon :: rest)) (next? left)) :
    Stops (.mark .semicolon :: rest)
      (word? word (tokens ++ .mark .semicolon :: rest) >>= next?)
      (word? word tokens >>= next?) := by
  obtain ⟨first, second⟩ | ⟨left, free, first, second⟩ := word?_append rest word free
  · rw [first, second]
    exact .fails
  · rw [first, second]
    exact step left free

/-- The room is the same whatever follows behind a semicolon. -/
theorem room_append {tokens : List Token} (free : Free tokens) :
    room (tokens ++ .mark .semicolon :: rest) = room tokens := by
  induction tokens with
  | nil => rfl
  | cons token tokens ih =>
    have other : token ≠ .mark .semicolon := fun same => not_free_semicolon (same ▸ free)
    have later : room (tokens ++ .mark .semicolon :: rest) = room tokens := ih free.tail
    rw [room, room, List.cons_append, List.takeWhile_cons_of_pos (by simpa using other),
      List.takeWhile_cons_of_pos (by simpa using other), List.length_cons, List.length_cons]
    exact congrArg (· + 1) later

/-! ### Names -/

theorem moreParts_append (rest : List Token) : (tokens : List Token) → Free tokens →
    moreParts (tokens ++ .mark .semicolon :: rest) =
      ((moreParts tokens).1, (moreParts tokens).2 ++ .mark .semicolon :: rest) ∧
      Free (moreParts tokens).2
  | [], free => ⟨rfl, free⟩
  | .mark mark :: tokens, free => by
    by_cases colons : mark = .colons
    · subst colons
      rcases tokens with _ | ⟨second, tokens⟩
      · exact ⟨rfl, free⟩
      · cases second with
        | identifier part =>
          obtain ⟨same, left⟩ := moreParts_append rest tokens free.tail.tail
          simp only [List.cons_append, moreParts, same]
          exact ⟨trivial, left⟩
        | mark => exact ⟨rfl, free⟩
        | number => exact ⟨rfl, free⟩
        | text => exact ⟨rfl, free⟩
    · cases mark <;> first | exact absurd rfl colons | exact ⟨rfl, free⟩
  | .identifier _ :: _, free => ⟨rfl, free⟩
  | .number _ :: _, free => ⟨rfl, free⟩
  | .text _ :: _, free => ⟨rfl, free⟩

theorem closed_name? : Closed name? := by
  intro tokens rest free
  rcases tokens with _ | ⟨token, tokens⟩
  · exact .fails
  · cases token with
    | identifier first =>
      obtain ⟨same, left⟩ := moreParts_append rest tokens free.tail
      simp only [List.cons_append, name?, same]
      exact .of_option _ id left
    | mark => exact .fails
    | number => exact .fails
    | text => exact .fails

theorem closed_entity? : Closed entity? := by
  intro tokens rest free
  refine .bind (closed_name? tokens rest free) fun type left free => ?_
  rcases left with _ | ⟨token, _ | ⟨second, left⟩⟩
  · exact .fails
  · cases token with
    | mark mark => cases mark <;> exact .fails
    | _ => exact .fails
  · cases token with
    | mark mark =>
      by_cases colons : mark = .colons
      · subst colons
        cases second with
        | text raw =>
          exact .given (textOf? raw) fun id => .reads (EntityUid.mk type id) free.tail.tail
        | _ => exact .fails
      · cases mark <;> first | exact absurd rfl colons | exact .fails
    | _ => exact .fails

/-! ### Parts of expressions -/

theorem countMarks_append (rest : List Token) {mark : Mark} (other : mark ≠ .semicolon) :
    (tokens : List Token) → Free tokens →
    countMarks mark (tokens ++ .mark .semicolon :: rest) =
      ((countMarks mark tokens).1, (countMarks mark tokens).2 ++ .mark .semicolon :: rest) ∧
      Free (countMarks mark tokens).2
  | [], free => by
    rw [List.nil_append, countMarks, if_neg (Ne.symm other)]
    exact ⟨rfl, free⟩
  | .mark found :: tokens, free => by
    rw [List.cons_append, countMarks, countMarks]
    by_cases same : found = mark
    · obtain ⟨equal, left⟩ := countMarks_append rest other tokens free.tail
      rw [if_pos same, if_pos same, equal]
      exact ⟨rfl, left⟩
    · rw [if_neg same, if_neg same]
      exact ⟨rfl, free⟩
  | .identifier _ :: _, free => ⟨rfl, free⟩
  | .number _ :: _, free => ⟨rfl, free⟩
  | .text _ :: _, free => ⟨rfl, free⟩

theorem closed_moreAttributes : (tokens : List Token) → Free tokens →
    Stops (.mark .semicolon :: rest) (moreAttributes (tokens ++ .mark .semicolon :: rest))
      (moreAttributes tokens)
  | [], free => .reads [] free
  | .mark mark :: tokens, free => by
    by_cases dot : mark = .dot
    · subst dot
      rcases tokens with _ | ⟨second, tokens⟩
      · exact .fails
      · cases second with
        | identifier name =>
          rw [List.cons_append, List.cons_append, moreAttributes, moreAttributes]
          split
          · exact (closed_moreAttributes tokens free.tail.tail).map
          · exact .fails
        | mark => exact .fails
        | number => exact .fails
        | text => exact .fails
    · cases mark <;> first | exact absurd rfl dot | exact .reads [] free
  | .identifier _ :: _, free => .reads [] free
  | .number _ :: _, free => .reads [] free
  | .text _ :: _, free => .reads [] free

theorem closed_hasRight? (left : Expr) : Closed (hasRight? left) := by
  intro tokens rest free
  rcases tokens with _ | ⟨token, tokens⟩
  · exact .fails
  · cases token with
    | text raw => exact .of_option (textOf? raw) (Expr.has left · []) free.tail
    | identifier first =>
      rw [List.cons_append, hasRight?, hasRight?]
      split
      · exact (closed_moreAttributes tokens free.tail).map
      · exact .fails
    | mark => exact .fails
    | number => exact .fails

theorem closed_likeRight? (left : Expr) : Closed (likeRight? left) := by
  intro tokens rest free
  rcases tokens with _ | ⟨token, tokens⟩
  · exact .fails
  · cases token with
    | text raw => exact .of_option (patternOf? raw) (Expr.like left) free.tail
    | identifier => exact .fails
    | mark => exact .fails
    | number => exact .fails

theorem closed_key? : Closed key? := by
  intro tokens rest free
  rcases tokens with _ | ⟨token, tokens⟩
  · exact .fails
  · rcases tokens with _ | ⟨second, tokens⟩
    · cases token <;> exact .fails
    · cases second with
      | mark mark =>
        by_cases colon : mark = .colon
        · subst colon
          cases token with
          | identifier name =>
            rw [List.cons_append, List.cons_append, key?, key?]
            split
            · exact .reads name free.tail.tail
            · exact .fails
          | text raw => exact .of_option (textOf? raw) id free.tail.tail
          | mark => exact .fails
          | number => exact .fails
        · cases mark <;> first | exact absurd rfl colon | (cases token <;> exact .fails)
      | identifier => cases token <;> exact .fails
      | number => cases token <;> exact .fails
      | text => cases token <;> exact .fails

/-- An access follows or not, whatever follows behind a semicolon. -/
theorem startsAccess_append {tokens : List Token} :
    startsAccess (tokens ++ .mark .semicolon :: rest) = startsAccess tokens := by
  rcases tokens with _ | ⟨token, tokens⟩
  · rfl
  · cases token with
    | mark mark => cases mark <;> rfl
    | _ => rfl

/-! ### Expressions -/

/-- The readers of expressions with some fuel look at nothing behind a semicolon. -/
structure ClosedAt (fuel : Nat) : Prop where
  expr : Closed (expr? fuel)
  disjunctionTail : ∀ left, Closed (disjunctionTail? fuel left)
  conjunction : Closed (conjunction? fuel)
  conjunctionTail : ∀ left, Closed (conjunctionTail? fuel left)
  relation : Closed (relation? fuel)
  sum : Closed (sum? fuel)
  sumTail : ∀ left, Closed (sumTail? fuel left)
  product : Closed (product? fuel)
  productTail : ∀ left, Closed (productTail? fuel left)
  signed : Closed (signed? fuel)
  member : Closed (member? fuel)
  accesses : ∀ left, Closed (accesses? fuel left)
  primary : Closed (primary? fuel)
  items : ∀ close, close ≠ .semicolon → Closed (items? fuel close)
  fields : ∀ done, Closed (fields? fuel done)

/-- Without fuel nothing is read. -/
theorem closedAt_zero : ClosedAt 0 where
  expr _ _ _ := .fails
  disjunctionTail _ _ _ _ := .fails
  conjunction _ _ _ := .fails
  conjunctionTail _ _ _ _ := .fails
  relation _ _ _ := .fails
  sum _ _ _ := .fails
  sumTail _ _ _ _ := .fails
  product _ _ _ := .fails
  productTail _ _ _ _ := .fails
  signed _ _ _ := .fails
  member _ _ _ := .fails
  accesses _ _ _ _ := .fails
  primary _ _ _ := .fails
  items _ _ _ _ _ := .fails
  fields _ _ _ _ := .fails

section

variable {fuel : Nat} (closed : ClosedAt fuel)

include closed

theorem closed_expr? : Closed (expr? (fuel + 1)) := by
  intro tokens rest free
  rw [expr?, expr?]
  obtain ⟨first, second⟩ | ⟨left, free, first, second⟩ :=
    word?_append rest "if" free
  · rw [first, second]
    exact .bind (closed.conjunction tokens rest free) fun left _ free =>
      closed.disjunctionTail left _ rest free
  · rw [first, second]
    refine .bind (closed.expr left rest free) fun condition left free => ?_
    refine .word free fun left free => ?_
    refine .bind (closed.expr left rest free) fun yes left free => ?_
    refine .word free fun left free => ?_
    refine .bind (closed.expr left rest free) fun no left free => ?_
    exact .reads (Expr.ite condition yes no) free

theorem closed_disjunctionTail? (left : Expr) : Closed (disjunctionTail? (fuel + 1) left) := by
  intro tokens rest free
  rcases tokens with _ | ⟨token, tokens⟩
  · exact .reads left free
  · cases token with
    | mark mark =>
      by_cases or : mark = .or
      · subst or
        refine .bind (closed.conjunction tokens rest free.tail) fun right after free => ?_
        exact closed.disjunctionTail (.binary .or left right) after rest free
      · cases mark <;> first | exact absurd rfl or | exact .reads left free
    | _ => exact .reads left free

theorem closed_conjunction? : Closed (conjunction? (fuel + 1)) := by
  intro tokens rest free
  exact .bind (closed.relation tokens rest free) fun left _ free =>
    closed.conjunctionTail left _ rest free

theorem closed_conjunctionTail? (left : Expr) : Closed (conjunctionTail? (fuel + 1) left) := by
  intro tokens rest free
  rcases tokens with _ | ⟨token, tokens⟩
  · exact .reads left free
  · cases token with
    | mark mark =>
      by_cases and : mark = .and
      · subst and
        refine .bind (closed.relation tokens rest free.tail) fun right after free => ?_
        exact closed.conjunctionTail (.binary .and left right) after rest free
      · cases mark <;> first | exact absurd rfl and | exact .reads left free
    | _ => exact .reads left free

theorem stops_operand (op : BinaryOp) (left : Expr) {tokens : List Token} (free : Free tokens) :
    Stops (.mark .semicolon :: rest)
      (sum? fuel (tokens ++ .mark .semicolon :: rest) >>= fun (right, after) =>
        pure (Expr.binary op left right, after))
      (sum? fuel tokens >>= fun (right, after) => pure (Expr.binary op left right, after)) :=
  .bind (closed.sum tokens rest free) fun right _ free => .reads (Expr.binary op left right) free

theorem closed_relation? : Closed (relation? (fuel + 1)) := by
  intro tokens rest free
  refine .bind (closed.sum tokens rest free) fun left tokens free => ?_
  rcases tokens with _ | ⟨token, tokens⟩
  · exact .reads left free
  · cases token with
    | mark mark =>
      dsimp only [List.cons_append]
      cases comparison? mark with
      | some op => exact stops_operand closed op left free.tail
      | none => exact .reads left free
    | identifier word =>
      show Stops _ (if word = "in" then _ else _) (if word = "in" then _ else _)
      by_cases within : word = "in"
      · rw [if_pos within, if_pos within]
        exact stops_operand closed .isIn left free.tail
      rw [if_neg within, if_neg within]
      by_cases has : word = "has"
      · rw [if_pos has, if_pos has]
        exact closed_hasRight? left tokens rest free.tail
      rw [if_neg has, if_neg has]
      by_cases like : word = "like"
      · rw [if_pos like, if_pos like]
        exact closed_likeRight? left tokens rest free.tail
      rw [if_neg like, if_neg like]
      by_cases is : word = "is"
      · rw [if_pos is, if_pos is]
        refine .bind (closed_name? tokens rest free.tail) fun type tokens free => ?_
        dsimp only
        obtain ⟨first, second⟩ | ⟨after, free, first, second⟩ :=
          word?_append rest "in" free
        · rw [first, second]
          exact .reads (Expr.is left type) free
        · rw [first, second]
          exact .bind (closed.sum after rest free) fun group _ free =>
            .reads (Expr.isWithin left type group) free
      · rw [if_neg is, if_neg is]
        exact .reads left free
    | number => exact .reads left free
    | text => exact .reads left free

theorem closed_sum? : Closed (sum? (fuel + 1)) := by
  intro tokens rest free
  exact .bind (closed.product tokens rest free) fun left _ free => closed.sumTail left _ rest free

theorem closed_sumTail? (left : Expr) : Closed (sumTail? (fuel + 1) left) := by
  intro tokens rest free
  rcases tokens with _ | ⟨token, tokens⟩
  · exact .reads left free
  · cases token with
    | mark mark =>
      by_cases plus : mark = .plus
      · subst plus
        refine .bind (closed.product tokens rest free.tail) fun right after free => ?_
        exact closed.sumTail (.binary .plus left right) after rest free
      by_cases minus : mark = .minus
      · subst minus
        refine .bind (closed.product tokens rest free.tail) fun right after free => ?_
        exact closed.sumTail (.binary .minus left right) after rest free
      · cases mark <;> first
          | exact absurd rfl plus | exact absurd rfl minus | exact .reads left free
    | _ => exact .reads left free

theorem closed_product? : Closed (product? (fuel + 1)) := by
  intro tokens rest free
  exact .bind (closed.signed tokens rest free) fun left _ free =>
    closed.productTail left _ rest free

theorem closed_productTail? (left : Expr) : Closed (productTail? (fuel + 1) left) := by
  intro tokens rest free
  rcases tokens with _ | ⟨token, tokens⟩
  · exact .reads left free
  · cases token with
    | mark mark =>
      by_cases times : mark = .times
      · subst times
        refine .bind (closed.signed tokens rest free.tail) fun right after free => ?_
        exact closed.productTail (.binary .times left right) after rest free
      · cases mark <;> first | exact absurd rfl times | exact .reads left free
    | _ => exact .reads left free

theorem closed_signed? : Closed (signed? (fuel + 1)) := by
  intro tokens rest free
  obtain ⟨nots, freeNots⟩ :=
    countMarks_append rest (show Mark.not ≠ .semicolon by decide) tokens free
  obtain ⟨minuses, freeMinuses⟩ :=
    countMarks_append rest (show Mark.minus ≠ .semicolon by decide) tokens free
  rw [signed?, signed?, nots, minuses]
  generalize countMarks .not tokens = countedNots at freeNots ⊢
  generalize countMarks .minus tokens = countedMinuses at freeMinuses ⊢
  obtain ⟨count, operand⟩ := countedNots
  obtain ⟨signs, left⟩ := countedMinuses
  dsimp only at freeNots freeMinuses ⊢
  have plain := fun number => (closed.member left rest freeMinuses).map (f := wrap .negate number)
  split
  · split
    · exact (closed.member operand rest freeNots).map
    · exact .fails
  · split
    · exact .fails
    · cases signs with
      | zero => exact closed.member left rest freeMinuses
      | succ signs =>
        rcases left with _ | ⟨token, left⟩
        · exact plain (signs + 1)
        · cases token with
          | number value =>
            show Stops _ (if startsAccess (left ++ _) then _ else _)
              (if startsAccess left then _ else _)
            rw [startsAccess_append]
            split
            · exact plain (signs + 1)
            · exact .of_option (int? (-(value : Int))) (wrap .negate signs) freeMinuses.tail
          | _ => exact plain (signs + 1)

theorem closed_member? : Closed (member? (fuel + 1)) := by
  intro tokens rest free
  exact .bind (closed.primary tokens rest free) fun left _ free => closed.accesses left _ rest free

theorem closed_accesses? (left : Expr) : Closed (accesses? (fuel + 1) left) := by
  intro tokens rest free
  rcases tokens with _ | ⟨token, tokens⟩
  · exact .reads left free
  · cases token with
    | mark mark =>
      by_cases dot : mark = .dot
      · subst dot
        rcases tokens with _ | ⟨second, tokens⟩
        · exact .fails
        · cases second with
          | identifier name =>
            have access : Stops (.mark .semicolon :: rest)
                (if isAttribute name then
                  accesses? fuel (.attr left name) (tokens ++ .mark .semicolon :: rest) else none)
                (if isAttribute name then accesses? fuel (.attr left name) tokens else none) := by
              split
              · exact closed.accesses (.attr left name) tokens rest free.tail.tail
              · exact .fails
            rcases tokens with _ | ⟨third, tokens⟩
            · exact access
            · cases third with
              | mark mark =>
                by_cases paren : mark = .openParen
                · subst paren
                  have items :=
                    closed.items .closeParen (by decide) tokens rest free.tail.tail.tail
                  refine .bind items fun args after free => ?_
                  refine .given (method? left name args) fun call => ?_
                  exact closed.accesses call after rest free
                · cases mark <;> first | exact absurd rfl paren | exact access
              | _ => exact access
          | _ => exact .fails
      by_cases bracket : mark = .openBracket
      · subst bracket
        rcases tokens with _ | ⟨second, tokens⟩
        · exact .fails
        · cases second with
          | text raw =>
            rcases tokens with _ | ⟨third, tokens⟩
            · exact .fails
            · cases third with
              | mark mark =>
                by_cases close : mark = .closeBracket
                · subst close
                  refine .given (textOf? raw) fun name => ?_
                  exact closed.accesses (.attr left name) tokens rest free.tail.tail.tail
                · cases mark <;> first | exact absurd rfl close | exact .fails
              | _ => exact .fails
          | _ => exact .fails
      by_cases paren : mark = .openParen
      · subst paren
        exact .fails
      · cases mark <;> first
          | exact absurd rfl dot | exact absurd rfl bracket | exact absurd rfl paren
          | exact .reads left free
    | _ => exact .reads left free

theorem closed_primary? : Closed (primary? (fuel + 1)) := by
  intro tokens rest free
  rcases tokens with _ | ⟨token, tokens⟩
  · exact .fails
  · cases token with
    | number value =>
      rw [List.cons_append, primary?, primary?]
      exact .of_option (int? value) id free.tail
    | text raw => exact .of_option (textOf? raw) (Expr.literal ∘ Literal.text) free.tail
    | mark mark =>
      by_cases paren : mark = .openParen
      · subst paren
        refine .bind (closed.expr tokens rest free.tail) fun inner left free => ?_
        exact .expect (by decide) free fun left free => .reads inner free
      by_cases bracket : mark = .openBracket
      · subst bracket
        exact (closed.items .closeBracket (by decide) tokens rest free.tail).map
      by_cases brace : mark = .openBrace
      · subst brace
        exact (closed.fields [] tokens rest free.tail).map
      · cases mark <;> first
          | exact absurd rfl paren | exact absurd rfl bracket | exact absurd rfl brace
          | exact .fails
    | identifier first =>
      show Stops _ (if first = "true" then _ else if first = "false" then _ else _)
        (if first = "true" then _ else if first = "false" then _ else _)
      split
      · exact .reads _ free.tail
      split
      · exact .reads _ free.tail
      have part : Stops (.mark .semicolon :: rest)
          ((Variable.ofWord? first).map fun part =>
            (Expr.var part, tokens ++ .mark .semicolon :: rest))
          ((Variable.ofWord? first).map fun part => (Expr.var part, tokens)) :=
        .of_option (Variable.ofWord? first) Expr.var free.tail
      rcases tokens with _ | ⟨second, tokens⟩
      · exact part
      · cases second with
        | mark mark =>
          by_cases colons : mark = .colons
          · subst colons
            exact (closed_entity? _ rest free).map (f := Expr.literal ∘ Literal.entity)
          by_cases paren : mark = .openParen
          · subst paren
            dsimp only [List.cons_append]
            generalize (Extension.ofName? first).filter (fun function => !function.isMethod) = found
            cases found with
            | some function =>
              exact (closed.items .closeParen (by decide) tokens rest free.tail.tail).map
            | none => exact .fails
          · cases mark <;> first
              | exact absurd rfl colons | exact absurd rfl paren | exact part
        | _ => exact part

theorem closed_items? (close : Mark) (other : close ≠ .semicolon) :
    Closed (items? (fuel + 1) close) := by
  intro tokens rest free
  rw [items?, items?]
  obtain ⟨first, second⟩ | ⟨left, free, first, second⟩ := expect?_append rest other free
  · rw [first, second]
    refine .bind (closed.expr tokens rest free) fun item left free => ?_
    dsimp only
    obtain ⟨first, second⟩ | ⟨after, free, first, second⟩ :=
      expect?_append rest (show Mark.comma ≠ .semicolon by decide) free
    · rw [first, second]
      obtain ⟨first, second⟩ | ⟨after, free, first, second⟩ := expect?_append rest other free
      · simp only [first, second]
        exact .fails
      · simp only [first, second]
        exact .reads [item] free
    · rw [first, second]
      exact (closed.items close other after rest free).map
  · rw [first, second]
    exact .reads [] free

theorem closed_fields? (done : List (String × Expr)) : Closed (fields? (fuel + 1) done) := by
  intro tokens rest free
  rw [fields?, fields?]
  obtain ⟨first, second⟩ | ⟨left, free, first, second⟩ :=
    expect?_append rest (show Mark.closeBrace ≠ .semicolon by decide) free
  · rw [first, second]
    refine .bind (closed_key? tokens rest free) fun key left free => ?_
    refine .bind (closed.expr left rest free) fun value left free => ?_
    dsimp only
    split
    · exact .fails
    obtain ⟨first, second⟩ | ⟨after, free, first, second⟩ :=
      expect?_append rest (show Mark.comma ≠ .semicolon by decide) free
    · rw [first, second]
      obtain ⟨first, second⟩ | ⟨after, free, first, second⟩ :=
        expect?_append rest (show Mark.closeBrace ≠ .semicolon by decide) free
      · simp only [first, second]
        exact .fails
      · simp only [first, second]
        exact .reads _ free
    · rw [first, second]
      exact closed.fields _ after rest free
  · rw [first, second]
    exact .reads done free

/-- One more step looks at nothing behind a semicolon if the steps inside do not. -/
theorem ClosedAt.succ : ClosedAt (fuel + 1) where
  expr := closed_expr? closed
  disjunctionTail := closed_disjunctionTail? closed
  conjunction := closed_conjunction? closed
  conjunctionTail := closed_conjunctionTail? closed
  relation := closed_relation? closed
  sum := closed_sum? closed
  sumTail := closed_sumTail? closed
  product := closed_product? closed
  productTail := closed_productTail? closed
  signed := closed_signed? closed
  member := closed_member? closed
  accesses := closed_accesses? closed
  primary := closed_primary? closed
  items := closed_items? closed
  fields := closed_fields? closed

end

/-- No reader of expressions looks at anything behind a semicolon. -/
theorem closedAt (fuel : Nat) : ClosedAt fuel := by
  induction fuel with
  | zero => exact closedAt_zero
  | succ fuel ih => exact ih.succ

end

end PolicyLedger.Policy.Parser
