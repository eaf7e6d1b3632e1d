/-
**Policies with one more annotation.**

An annotation that is written in front of a policy is read first (`annotations?_step`), and as it
has a new key, the others are read as before (`annotations?_insert`). What follows the annotations is
read whatever they are (`policy?_of_annotations`). So the policy is read as before, with one more
annotation (`parse?_annotate`).
-/

import PolicyLedger.Proofs.Policy.PrintRoundTrip

namespace PolicyLedger.Policy

namespace Parser

variable {tokens rest : List Token}

/-! ### Annotations -/

/-- The text of an annotation behind its key, if it has one, and the rest. -/
def annotationText? : List Token → Option (Option String × List Token)
  | .mark .openParen :: .text raw :: .mark .closeParen :: rest =>
    (textOf? raw).map fun text => (some text, rest)
  | .mark .openParen :: _ => none
  | rest => some (none, rest)

/-- One annotation is read before the others. -/
theorem annotations?_step (fuel : Nat) (done : KeyMap (Option String)) (key : String)
    (rest : List Token) :
    annotations? (fuel + 1) done (.mark .at :: .identifier key :: rest) =
      if done.contains key then none
      else (annotationText? rest).bind fun (text, rest) =>
        annotations? fuel (done.insert key text) rest := by
  rw [annotations?.eq_def]
  refine if_congr Iff.rfl rfl ?_
  split
  next raw rest =>
    rw [annotationText?]
    cases textOf? raw <;> rfl
  next noText =>
    rw [annotationText?]
    · rfl
    · exact noText
  next noText noParen =>
    rw [annotationText?]
    · rfl
    · exact noText
    · exact noParen

/-- Tokens begin with an annotation, or no annotations are read whatever was read before. -/
theorem annotations?_cases (tokens : List Token) :
    (∃ key rest, tokens = .mark .at :: .identifier key :: rest) ∨
    (∀ fuel done, annotations? (fuel + 1) done tokens = none) ∨
    ∀ fuel done, annotations? (fuel + 1) done tokens = some (done, tokens) := by
  cases tokens with
  | nil => exact .inr (.inr fun _ _ => rfl)
  | cons first others =>
    by_cases marked : first = .mark .at
    · subst marked
      cases others with
      | nil => exact .inr (.inl fun _ _ => rfl)
      | cons second rest =>
        cases second with
        | identifier key => exact .inl ⟨key, rest, rfl⟩
        | number _ | text _ | mark _ => exact .inr (.inl fun _ _ => rfl)
    · refine .inr (.inr fun fuel done => ?_)
      rw [annotations?]
      · exact fun _ _ same => marked (List.cons.inj same).1
      · exact fun _ same => marked (List.cons.inj same).1

/-- With one more key at hand, and at least as much fuel, the same annotations are read. -/
theorem annotations?_insert {key : String} {text : Option String} {fuel more : Nat}
    {done map : KeyMap (Option String)} (fresh : map.contains key = false) (enough : fuel ≤ more)
    (read : annotations? fuel done tokens = some (map, rest)) :
    done.contains key = false ∧
      annotations? more (done.insert key text) tokens = some (map.insert key text, rest) := by
  induction fuel generalizing more done tokens with
  | zero => cases read
  | succ fuel ih =>
    obtain ⟨more, rfl⟩ : ∃ less, more = less + 1 := ⟨more - 1, by omega⟩
    obtain ⟨other, after, rfl⟩ | ended | stops := annotations?_cases tokens
    · rw [annotations?_step] at read ⊢
      split at read
      · cases read
      next new =>
        obtain ⟨⟨value, left⟩, found, read⟩ := Option.bind_eq_some_iff.mp read
        rw [Bool.not_eq_true] at new
        obtain ⟨apart, others⟩ := ih (Nat.le_of_succ_le_succ enough) read
        obtain ⟨apart, known⟩ := KeyMap.contains_insert_eq_false_iff.mp apart
        have still : (done.insert key text).contains other = false :=
          KeyMap.contains_insert_eq_false_iff.mpr ⟨Ne.symm apart, new⟩
        refine ⟨known, ?_⟩
        rw [still, if_neg Bool.false_ne_true, found]
        show annotations? more ((done.insert key text).insert other value) left = _
        rw [KeyMap.insert_comm text value apart known new]
        exact others
    · rw [ended] at read
      cases read
    · rw [stops] at read ⊢
      obtain ⟨rfl, rfl⟩ := Prod.mk.inj (Option.some.inj read)
      exact ⟨fresh, rfl⟩

/-! ### Policies -/

/-- What follows the annotations is read whatever they are. -/
theorem policy?_of_annotations {others : List Token} {map more : KeyMap (Option String)}
    (read : annotations? (room tokens + 1) .empty tokens = some (map, rest))
    (again : annotations? (room others + 1) .empty others = some (more, rest)) :
    policy? others = (policy? tokens).map fun (policy, rest) =>
      ({ policy with annotations := more }, rest) := by
  rw [policy?, policy?, read, again]
  simp only [Option.bind_eq_bind, Option.bind_some]
  split
  · simp only [Option.map_bind, Function.comp_def, apply_ite (Option.map _), Option.pure_def,
      Option.map_some, Option.map_none]
  · rfl

/-- The annotations of a policy are read first. -/
theorem exists_annotations {policy : Policy} (read : policy? tokens = some (policy, rest)) :
    ∃ after, annotations? (room tokens + 1) .empty tokens = some (policy.annotations, after) := by
  obtain ⟨⟨map, after⟩, found, _⟩ := Option.bind_eq_some_iff.mp (policy?.eq_1 tokens ▸ read)
  have same := policy?_of_annotations found found
  rw [read, Option.map_some] at same
  have annotations : policy.annotations = map :=
    congrArg (fun read => read.1.annotations) (Option.some.inj same)
  exact ⟨after, annotations ▸ found⟩

/-- The tokens of an annotation with a text. -/
def textTokens (key : String) (raw : List Char) : List Token :=
  [.mark .at, .identifier key, .mark .openParen, .text raw, .mark .closeParen]

theorem annotations?_textTokens {key text : String} {raw : List Char} {map : KeyMap (Option String)}
    (forms : Forms text.toList raw) (fresh : map.contains key = false)
    (read : annotations? (room tokens + 1) .empty tokens = some (map, rest)) :
    annotations? (room (textTokens key raw ++ tokens) + 1) .empty
      (textTokens key raw ++ tokens) = some (map.insert key (some text), rest) := by
  have free : Free (textTokens key raw) := by simp [Free, textTokens]
  have room : room (textTokens key raw ++ tokens) = room tokens + 1 + 4 := by
    rw [room_free_append free, Nat.add_comm]
    rfl
  have others : annotations? (Parser.room tokens + 1 + 4) (KeyMap.empty.insert key (some text))
      tokens = some (map.insert key (some text), rest) :=
    (annotations?_insert fresh (Nat.le_add_right _ 4) read).2
  show annotations? _ _ (.mark .at :: .identifier key :: .mark .openParen :: .text raw ::
    .mark .closeParen :: tokens) = _
  rw [room, annotations?_step, annotationText?, forms.textOf?_eq]
  exact others

end Parser

/-- **A policy with an annotation in front** is read as the policy with one more annotation, if its
other annotations have other keys. -/
theorem parse?_annotate {source : List Char} {policy : Policy} {key text : String}
    {raw : List Char} (parsed : parse? source = some policy)
    (identifier : isIdentifier key.toList = true) (fresh : policy.annotations.contains key = false)
    (forms : Forms text.toList raw) :
    parse? ('@' :: (key.toList ++ '(' :: '"' :: (raw ++ '"' :: ')' :: source))) =
      some { policy with annotations := policy.annotations.insert key (some text) } := by
  rw [parse?] at parsed
  split at parsed
  next found =>
    obtain rfl := Option.some.inj parsed
    obtain ⟨tokens, lexed, read⟩ := Option.bind_eq_some_iff.mp found
    have lexes := tokens?_eq_some_iff.mp lexed
    have closed : Lexes (')' :: source) (.mark .closeParen :: tokens) :=
      lexes_mark .closeParen (by simp [Mark.extension?]) lexes
    have opened : Lexes ('(' :: '"' :: (raw ++ '"' :: ')' :: source)) _ :=
      lexes_mark .openParen (by simp [Mark.extension?]) (lexes_text forms.passes closed)
    have word : ∀ c, ('(' :: '"' :: (raw ++ '"' :: ')' :: source)).head? = some c →
        isIdentifierPart c = false := fun c head => Option.some.inj head ▸ by decide
    have whole : Lexes _ (Parser.textTokens key raw ++ tokens) :=
      lexes_mark .at (by simp [Mark.extension?]) (lexes_word identifier word opened)
    obtain ⟨after, first⟩ := Parser.exists_annotations read
    have again := Parser.policy?_of_annotations first
      (Parser.annotations?_textTokens forms fresh first)
    rw [read, Option.map_some] at again
    have tokenized : tokens? ('@' :: (key.toList ++ '(' :: '"' :: (raw ++ '"' :: ')' :: source))) =
        some (Parser.textTokens key raw ++ tokens) := tokens?_eq_some_iff.mpr whole
    rw [parse?, tokenized, Option.bind_some, again]
  next => cases parsed

end PolicyLedger.Policy
