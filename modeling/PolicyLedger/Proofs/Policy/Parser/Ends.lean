/-
**Policies end at semicolons.**

The readers of annotations and scopes look at nothing behind a semicolon, and the reader of
conditions stops right after the first one. So a policy ends at the first semicolon and depends on
nothing behind it (`ends_policy?`), and a row of policies is a row of pieces of tokens that end at
their first semicolons, each of which is its policy (`policies?_eq_some`).
-/

import Mathlib.Data.List.Forall2
import PolicyLedger.Proofs.Policy.Parser.Closed

namespace PolicyLedger.Policy.Parser

variable {α β : Type} {rest : List Token}

theorem fuelFor_append {tokens : List Token} (free : Free tokens) :
    fuelFor (tokens ++ .mark .semicolon :: rest) = fuelFor tokens := by
  rw [fuelFor, fuelFor, room_append free]

/-! ### Annotations and scopes -/

theorem closed_annotations? (fuel : Nat) (done : KeyMap (Option String)) :
    Closed (annotations? fuel done) := by
  induction fuel generalizing done with
  | zero => exact fun _ _ _ => .fails
  | succ fuel ih =>
    intro tokens rest free
    rcases tokens with _ | ⟨token, tokens⟩
    · exact .reads done free
    · cases token with
      | mark mark =>
        by_cases at_sign : mark = .at
        · subst at_sign
          rcases tokens with _ | ⟨second, tokens⟩
          · exact .fails
          · cases second with
            | identifier key =>
              show Stops _ (if done.contains key then none else _)
                (if done.contains key then none else _)
              split
              · exact .fails
              have plain := ih (done.insert key none) tokens rest free.tail.tail
              rcases tokens with _ | ⟨third, tokens⟩
              · exact plain
              · cases third with
                | mark mark =>
                  by_cases paren : mark = .openParen
                  · subst paren
                    rcases tokens with _ | ⟨fourth, tokens⟩
                    · exact .fails
                    · cases fourth with
                      | text raw =>
                        rcases tokens with _ | ⟨fifth, tokens⟩
                        · exact .fails
                        · cases fifth with
                          | mark mark =>
                            by_cases close : mark = .closeParen
                            · subst close
                              exact .given (textOf? raw) fun value =>
                                ih (done.insert key (some value)) tokens rest
                                  free.tail.tail.tail.tail.tail
                            · cases mark <;> first | exact absurd rfl close | exact .fails
                          | _ => exact .fails
                      | _ => exact .fails
                  · cases mark <;> first | exact absurd rfl paren | exact plain
                | _ => exact plain
            | _ => exact .fails
        · cases mark <;> first | exact absurd rfl at_sign | exact .reads done free
      | _ => exact .reads done free

theorem closed_scopeEntity? (fuel : Nat) : Closed (scopeEntity? fuel) := by
  induction fuel with
  | zero => exact fun _ _ _ => .fails
  | succ fuel ih =>
    intro tokens rest free
    have name := closed_entity? tokens rest free
    rcases tokens with _ | ⟨token, tokens⟩
    · exact name
    · cases token with
      | mark mark =>
        by_cases paren : mark = .openParen
        · subst paren
          refine .bind (ih tokens rest free.tail) fun uid left free => ?_
          exact .expect (by decide) free fun left free => .reads uid free
        · cases mark <;> first | exact absurd rfl paren | exact name
      | _ => exact name

theorem closed_scopeEntities? (fuel : Nat) : Closed (scopeEntities? fuel) := by
  induction fuel with
  | zero => exact fun _ _ _ => .fails
  | succ fuel ih =>
    intro tokens rest free
    rw [scopeEntities?, scopeEntities?, room_append free]
    obtain ⟨first, second⟩ | ⟨left, free, first, second⟩ :=
      expect?_append rest (show Mark.closeBracket ≠ .semicolon by decide) free
    · rw [first, second]
      refine .bind (closed_scopeEntity? _ tokens rest free) fun uid left free => ?_
      dsimp only
      obtain ⟨first, second⟩ | ⟨after, free, first, second⟩ :=
        expect?_append rest (show Mark.comma ≠ .semicolon by decide) free
      · rw [first, second]
        obtain ⟨first, second⟩ | ⟨after, free, first, second⟩ :=
          expect?_append rest (show Mark.closeBracket ≠ .semicolon by decide) free
        · simp only [first, second]
          exact .fails
        · simp only [first, second]
          exact .reads [uid] free
      · rw [first, second]
        exact (ih after rest free).map
    · rw [first, second]
      exact .reads [] free

theorem closed_scopeList? (fuel : Nat) : Closed (scopeList? fuel) := by
  induction fuel with
  | zero => exact fun _ _ _ => .fails
  | succ fuel ih =>
    intro tokens rest free
    rcases tokens with _ | ⟨token, tokens⟩
    · exact .fails
    · cases token with
      | mark mark =>
        by_cases paren : mark = .openParen
        · subst paren
          refine .bind (ih tokens rest free.tail) fun uids left free => ?_
          exact .expect (by decide) free fun left free => .reads uids free
        by_cases bracket : mark = .openBracket
        · subst bracket
          exact closed_scopeEntities? fuel tokens rest free.tail
        · cases mark <;> first
            | exact absurd rfl paren | exact absurd rfl bracket | exact .fails
      | _ => exact .fails

theorem closed_entityScope? : Closed entityScope? := by
  intro tokens rest free
  rcases tokens with _ | ⟨token, tokens⟩
  · exact .reads EntityScope.all free
  · cases token with
    | mark mark =>
      by_cases equal : mark = .equal
      · subst equal
        rw [List.cons_append, entityScope?, entityScope?, room_append free.tail]
        exact (closed_scopeEntity? _ tokens rest free.tail).map
      · cases mark <;> first | exact absurd rfl equal | exact .reads EntityScope.all free
    | identifier word =>
      rw [List.cons_append, entityScope?, entityScope?, room_append free.tail]
      split
      · exact (closed_scopeEntity? _ tokens rest free.tail).map
      split
      · refine .bind (closed_name? tokens rest free.tail) fun type left free => ?_
        dsimp only
        obtain ⟨first, second⟩ | ⟨after, free, first, second⟩ := word?_append rest "in" free
        · rw [first, second]
          exact .reads (EntityScope.is type) free
        · rw [first, second]
          simp only [room_append free]
          exact (closed_scopeEntity? _ after rest free).map
      · exact .fails
    | number => exact .reads EntityScope.all free
    | text => exact .reads EntityScope.all free

theorem closed_actionScope? : Closed actionScope? := by
  intro tokens rest free
  rcases tokens with _ | ⟨token, tokens⟩
  · exact .reads ActionScope.all free
  · cases token with
    | mark mark =>
      by_cases equal : mark = .equal
      · subst equal
        rw [List.cons_append, actionScope?, actionScope?, room_append free.tail]
        exact (closed_scopeEntity? _ tokens rest free.tail).map
      · cases mark <;> first | exact absurd rfl equal | exact .reads ActionScope.all free
    | identifier word =>
      rw [List.cons_append, actionScope?, actionScope?, room_append free.tail]
      split
      · have list := closed_scopeList? (room tokens + 1) tokens rest free.tail
        generalize scopeList? (room tokens + 1) (tokens ++ .mark .semicolon :: rest) = a at list ⊢
        generalize scopeList? (room tokens + 1) tokens = b at list ⊢
        cases list with
        | fails => exact (closed_scopeEntity? _ tokens rest free.tail).map
        | reads uids free => exact .reads (ActionScope.isInAny uids) free
      · exact .fails
    | number => exact .reads ActionScope.all free
    | text => exact .reads ActionScope.all free

theorem skipMark_append (rest : List Token) {mark : Mark} (other : mark ≠ .semicolon)
    {tokens : List Token} (free : Free tokens) :
    skipMark mark (tokens ++ .mark .semicolon :: rest) =
      skipMark mark tokens ++ .mark .semicolon :: rest ∧ Free (skipMark mark tokens) := by
  rw [skipMark, skipMark]
  obtain ⟨first, second⟩ | ⟨left, free, first, second⟩ := expect?_append rest other free
  · rw [first, second]
    exact ⟨rfl, free⟩
  · rw [first, second]
    exact ⟨rfl, free⟩

/-! ### Policies -/

/-- A result for tokens with something behind their semicolon and the result without it: both fail,
or both read the same and leave what stands behind the semicolon. -/
inductive Ends {α : Type} (rest : List Token) :
    Option (α × List Token) → Option (α × List Token) → Prop
  | fails : Ends rest none none
  | reads (value : α) : Ends rest (some (value, rest)) (some (value, []))

/-- A closed reader and what ends after it. -/
theorem Closed.ends {read? : List Token → Option (α × List Token)} (closed : Closed read?)
    {tokens : List Token} (free : Free tokens) {next? : α × List Token → Option (β × List Token)}
    (step : ∀ value left, Free left → Ends rest (next? (value, left ++ .mark .semicolon :: rest))
      (next? (value, left ++ [.mark .semicolon]))) :
    Ends rest (read? (tokens ++ .mark .semicolon :: rest) >>= next?)
      (read? (tokens ++ [.mark .semicolon]) >>= next?) := by
  have first := closed tokens rest free
  have second := closed tokens [] free
  generalize read? tokens = read at first second
  generalize read? (tokens ++ .mark .semicolon :: rest) = a at first ⊢
  generalize read? (tokens ++ [.mark .semicolon]) = b at second ⊢
  cases first with
  | fails =>
    cases second
    exact .fails
  | reads value free =>
    cases second
    exact step value _ free

/-- An expected mark and what ends after it. -/
theorem Ends.expect {mark : Mark} (other : mark ≠ .semicolon) {tokens : List Token}
    (free : Free tokens) {next? : List Token → Option (α × List Token)}
    (step : ∀ left, Free left → Ends rest (next? (left ++ .mark .semicolon :: rest))
      (next? (left ++ [.mark .semicolon]))) :
    Ends rest (expect? mark (tokens ++ .mark .semicolon :: rest) >>= next?)
      (expect? mark (tokens ++ [.mark .semicolon]) >>= next?) := by
  obtain ⟨same, second⟩ | ⟨left, freeLeft, same, second⟩ := expect?_append [] other free
  · obtain ⟨_, first⟩ | ⟨_, _, impossible, _⟩ := expect?_append rest other free
    · rw [first, second]
      exact .fails
    · cases same.symm.trans impossible
  · obtain ⟨impossible, _⟩ | ⟨_, _, equal, first⟩ := expect?_append rest other free
    · cases same.symm.trans impossible
    · obtain rfl := Option.some.inj (same.symm.trans equal)
      rw [first, second]
      exact step left freeLeft

theorem Ends.word {word : String} {tokens : List Token} (free : Free tokens)
    {next? : List Token → Option (α × List Token)}
    (step : ∀ left, Free left → Ends rest (next? (left ++ .mark .semicolon :: rest))
      (next? (left ++ [.mark .semicolon]))) :
    Ends rest (word? word (tokens ++ .mark .semicolon :: rest) >>= next?)
      (word? word (tokens ++ [.mark .semicolon]) >>= next?) := by
  obtain ⟨same, second⟩ | ⟨left, freeLeft, same, second⟩ := word?_append [] word free
  · obtain ⟨_, first⟩ | ⟨_, _, impossible, _⟩ := word?_append rest word free
    · rw [first, second]
      exact .fails
    · cases same.symm.trans impossible
  · obtain ⟨impossible, _⟩ | ⟨_, _, equal, first⟩ := word?_append rest word free
    · cases same.symm.trans impossible
    · obtain rfl := Option.some.inj (same.symm.trans equal)
      rw [first, second]
      exact step left freeLeft

/-- Whatever is done with the value at the end. -/
theorem Ends.bind {a b : Option (α × List Token)} {next? : α × List Token → Option (β × List Token)}
    (ends : Ends rest a b)
    (step : ∀ value, Ends rest (next? (value, rest)) (next? (value, []))) :
    Ends rest (a >>= next?) (b >>= next?) := by
  cases ends with
  | fails => exact .fails
  | reads value => exact step value

/-- Conditions end at the semicolon. -/
theorem ends_conditions? (fuel : Nat) {tokens : List Token} (free : Free tokens) :
    Ends rest (conditions? fuel (tokens ++ .mark .semicolon :: rest))
      (conditions? fuel (tokens ++ [.mark .semicolon])) := by
  induction fuel generalizing tokens with
  | zero => exact .fails
  | succ fuel ih =>
    rcases tokens with _ | ⟨token, tokens⟩
    · exact .reads []
    · cases token with
      | mark mark => cases mark <;> first | exact absurd free not_free_semicolon | exact .fails
      | identifier word =>
        rcases tokens with _ | ⟨second, tokens⟩
        · exact .fails
        · cases second with
          | mark mark =>
            by_cases brace : mark = .openBrace
            · subst brace
              simp only [List.cons_append, conditions?, fuelFor_append free.tail.tail]
              cases ConditionKind.ofWord? word with
              | none => exact .fails
              | some kind =>
                refine (closedAt _).expr.ends free.tail.tail fun body left free => ?_
                refine .expect (by decide) free fun left free => ?_
                exact (ih free).bind fun conditions => .reads (⟨kind, body⟩ :: conditions)
            · cases mark <;> first | exact absurd rfl brace | exact .fails
          | _ => exact .fails
      | _ => exact .fails

/-- The tokens up to the first semicolon decide on a policy. -/
theorem ends_policy? (rest : List Token) {tokens : List Token} (free : Free tokens) :
    Ends rest (policy? (tokens ++ .mark .semicolon :: rest))
      (policy? (tokens ++ [.mark .semicolon])) := by
  rw [policy?, policy?, room_append free, room_append free]
  refine (closed_annotations? _ _).ends free fun annotations left free => ?_
  rcases left with _ | ⟨token, _ | ⟨second, left⟩⟩
  · exact .fails
  · cases token with
    | mark mark => cases mark <;> exact .fails
    | _ => exact .fails
  · cases token with
    | identifier word =>
      cases second with
      | mark mark =>
        by_cases paren : mark = .openParen
        · subst paren
          show Ends _ (Effect.ofWord? word >>= _) (Effect.ofWord? word >>= _)
          cases Effect.ofWord? word with
          | none => exact .fails
          | some effect =>
            refine .word free.tail.tail fun left free => ?_
            refine closed_entityScope?.ends free fun principal left free => ?_
            refine .expect (by decide) free fun left free => ?_
            refine .word free fun left free => ?_
            refine closed_actionScope?.ends free fun action left free => ?_
            refine .expect (by decide) free fun left free => ?_
            refine .word free fun left free => ?_
            refine closed_entityScope?.ends free fun resource left free => ?_
            obtain ⟨first, freeSkipped⟩ :=
              skipMark_append rest (show Mark.comma ≠ .semicolon by decide) free
            obtain ⟨second, _⟩ :=
              skipMark_append [] (show Mark.comma ≠ .semicolon by decide) free
            show Ends _ (expect? _ (skipMark _ _) >>= _) (expect? _ (skipMark _ _) >>= _)
            rw [first, second]
            refine .expect (by decide) freeSkipped fun left free => ?_
            show Ends _ (conditions? (room _ + 1) _ >>= _) (conditions? (room _ + 1) _ >>= _)
            rw [room_append free, room_append free]
            refine (ends_conditions? _ free).bind fun conditions => ?_
            show Ends _ (if _ then _ else _) (if _ then _ else _)
            split
            · exact .reads (Policy.mk effect principal action resource conditions annotations)
            · exact .fails
        · cases mark <;> first | exact absurd rfl paren | exact .fails
      | _ => exact .fails
    | mark mark => cases mark <;> exact .fails
    | _ => exact .fails

/-! ### Tokens without a semicolon -/

/-- Nothing is read if what is left without a semicolon is not. -/
theorem Closed.bind_eq_none {read? : List Token → Option (α × List Token)} (closed : Closed read?)
    {tokens : List Token} (free : Free tokens) {next? : α × List Token → Option (β × List Token)}
    (step : ∀ value left, Free left → next? (value, left) = none) :
    (read? tokens >>= next?) = none := by
  have stops := closed tokens [] free
  generalize read? tokens = read at stops
  generalize read? (tokens ++ [.mark .semicolon]) = other at stops
  cases stops with
  | fails => rfl
  | reads value free => exact step value _ free

theorem expect?_bind_eq_none {mark : Mark} (other : mark ≠ .semicolon) {tokens : List Token}
    (free : Free tokens) {next? : List Token → Option (α × List Token)}
    (step : ∀ left, Free left → next? left = none) : (expect? mark tokens >>= next?) = none := by
  obtain ⟨same, _⟩ | ⟨left, free, same, _⟩ := expect?_append [] other free
  · rw [same]
    rfl
  · rw [same]
    exact step left free

theorem word?_bind_eq_none {word : String} {tokens : List Token} (free : Free tokens)
    {next? : List Token → Option (α × List Token)} (step : ∀ left, Free left → next? left = none) :
    (word? word tokens >>= next?) = none := by
  obtain ⟨same, _⟩ | ⟨left, free, same, _⟩ := word?_append [] word free
  · rw [same]
    rfl
  · rw [same]
    exact step left free

/-- Conditions need a semicolon. -/
theorem conditions?_of_free (fuel : Nat) {tokens : List Token} (free : Free tokens) :
    conditions? fuel tokens = none := by
  induction fuel generalizing tokens with
  | zero => rfl
  | succ fuel ih =>
    rcases tokens with _ | ⟨token, _ | ⟨second, tokens⟩⟩
    · rfl
    · cases token with
      | mark mark => cases mark <;> first | exact absurd free not_free_semicolon | rfl
      | _ => rfl
    · cases token with
      | mark mark => cases mark <;> first | exact absurd free not_free_semicolon | rfl
      | identifier word =>
        cases second with
        | mark mark =>
          by_cases brace : mark = .openBrace
          · subst brace
            show (ConditionKind.ofWord? word >>= _) = none
            cases ConditionKind.ofWord? word with
            | none => rfl
            | some kind =>
              refine (closedAt _).expr.bind_eq_none free.tail.tail fun body left free => ?_
              refine expect?_bind_eq_none (by decide) free fun left free => ?_
              show (conditions? fuel left >>= _) = none
              rw [ih free]
              rfl
          · cases mark <;> first | exact absurd rfl brace | rfl
        | _ => rfl
      | _ => rfl

/-- A policy needs a semicolon. -/
theorem policy?_of_free {tokens : List Token} (free : Free tokens) : policy? tokens = none := by
  rw [policy?]
  refine (closed_annotations? _ _).bind_eq_none free fun annotations left free => ?_
  rcases left with _ | ⟨token, _ | ⟨second, left⟩⟩
  · rfl
  · cases token <;> rfl
  · cases token with
    | identifier word =>
      cases second with
      | mark mark =>
        by_cases paren : mark = .openParen
        · subst paren
          show (Effect.ofWord? word >>= _) = none
          cases Effect.ofWord? word with
          | none => rfl
          | some effect =>
            refine word?_bind_eq_none free.tail.tail fun left free => ?_
            refine closed_entityScope?.bind_eq_none free fun principal left free => ?_
            refine expect?_bind_eq_none (by decide) free fun left free => ?_
            refine word?_bind_eq_none free fun left free => ?_
            refine closed_actionScope?.bind_eq_none free fun action left free => ?_
            refine expect?_bind_eq_none (by decide) free fun left free => ?_
            refine word?_bind_eq_none free fun left free => ?_
            refine closed_entityScope?.bind_eq_none free fun resource left free => ?_
            obtain ⟨_, free⟩ := skipMark_append [] (show Mark.comma ≠ .semicolon by decide) free
            refine expect?_bind_eq_none (by decide) free fun left free => ?_
            show (conditions? (room left + 1) left >>= _) = none
            rw [conditions?_of_free _ free]
            rfl
        · cases mark <;> first | exact absurd rfl paren | rfl
      | _ => rfl
    | _ => rfl

/-! ### Rows of policies -/

/-- A row of policies is a row of pieces of tokens that end at their first semicolons, and each
piece is its policy. -/
theorem policies?_eq_some {fuel : Nat} {tokens : List Token} {policies : List Policy}
    (read : policies? fuel tokens = some policies) :
    ∃ pieces : List (List Token),
      tokens = pieces.flatMap (fun piece => piece ++ [.mark .semicolon]) ∧
      List.Forall₂ (fun piece policy => Free piece ∧
        policy? (piece ++ [.mark .semicolon]) = some (policy, [])) pieces policies := by
  induction fuel generalizing tokens policies with
  | zero => cases read
  | succ fuel ih =>
    cases tokens with
    | nil =>
      obtain rfl := Option.some.inj read
      exact ⟨[], rfl, .nil⟩
    | cons token tokens =>
      simp only [policies?, bind, Option.bind_eq_some_iff, pure, Option.some.injEq] at read
      obtain ⟨⟨policy, left⟩, readPolicy, others, readOthers, rfl⟩ := read
      have ended : .mark .semicolon ∈ token :: tokens := by
        refine Decidable.byContradiction fun free => ?_
        rw [policy?_of_free free] at readPolicy
        cases readPolicy
      obtain ⟨piece, rest, whole, free⟩ := List.eq_append_cons_of_mem ended
      rw [whole] at readPolicy ⊢
      have ends := ends_policy? rest free
      rw [readPolicy] at ends
      generalize alone : policy? (piece ++ [.mark .semicolon]) = result at ends
      cases ends with
      | reads =>
        obtain ⟨pieces, rfl, related⟩ := ih readOthers
        refine ⟨piece :: pieces, ?_, .cons ⟨free, alone⟩ related⟩
        rw [List.flatMap_cons, List.append_assoc]
        rfl

end PolicyLedger.Policy.Parser
