/-
**Cutting text at separators.**

* `pieces` cuts at every occurrence of one character and always gives at least one piece
  (`pieces_ne_nil`); joining the pieces gives the text back (`join_pieces`);
* `splitFirst?` and `splitLast?` cut once, at the first or the last occurrence of a separator;
* `stripStart?` drops an expected beginning, `after?` one expected character.
-/

namespace PolicyLedger.Text

/-- The parts between the separators, in order. -/
def pieces (separator : Char) : List Char → List (List Char)
  | [] => [[]]
  | c :: rest =>
    if c = separator then [] :: pieces separator rest
    else match pieces separator rest with
      | [] => [[c]]
      | piece :: others => (c :: piece) :: others

/-- Parts with the separator between them. -/
def join (separator : Char) : List (List Char) → List Char
  | [] => []
  | [piece] => piece
  | piece :: other :: others => piece ++ separator :: join separator (other :: others)

/-- There is always a part. -/
theorem pieces_ne_nil (separator : Char) (cs : List Char) : pieces separator cs ≠ [] := by
  cases cs with
  | nil => simp [pieces]
  | cons c rest =>
    unfold pieces
    split
    · simp
    · split <;> simp

/-- Cutting loses nothing. -/
theorem join_pieces (separator : Char) (cs : List Char) :
    join separator (pieces separator cs) = cs := by
  induction cs with
  | nil => rfl
  | cons c rest ih =>
    unfold pieces
    split
    next equal =>
      match parts : pieces separator rest with
      | [] => exact absurd parts (pieces_ne_nil separator rest)
      | piece :: others => rw [parts] at ih; simp [join, ih, equal]
    next =>
      match parts : pieces separator rest with
      | [] => exact absurd parts (pieces_ne_nil separator rest)
      | [piece] => rw [parts] at ih; simp only [join] at ih ⊢; rw [ih]
      | piece :: other :: others => rw [parts] at ih; simp only [join] at ih ⊢; rw [← ih]; rfl

/-- What follows an expected beginning. -/
def stripStart? : List Char → List Char → Option (List Char)
  | [], cs => some cs
  | _ :: _, [] => none
  | e :: expected, c :: cs => if e = c then stripStart? expected cs else none

/-- What follows an expected character. -/
def after? (expected : Char) (cs : List Char) : Option (List Char) := stripStart? [expected] cs

/-- What stands before and after the first occurrence of a separator. -/
def splitFirst? (separator : List Char) : List Char → Option (List Char × List Char)
  | [] => (stripStart? separator []).map fun after => ([], after)
  | c :: rest =>
    match stripStart? separator (c :: rest) with
    | some after => some ([], after)
    | none => (splitFirst? separator rest).map fun (before, after) => (c :: before, after)

/-- What stands before and after the last occurrence of a separator. -/
def splitLast? (separator : List Char) (cs : List Char) : Option (List Char × List Char) :=
  (splitFirst? separator.reverse cs.reverse).map fun (before, after) =>
    (after.reverse, before.reverse)

/-- The beginning is what was expected. -/
theorem eq_append_of_stripStart? {expected cs after : List Char}
    (found : stripStart? expected cs = some after) : cs = expected ++ after := by
  induction expected generalizing cs with
  | nil => simpa [stripStart?] using found
  | cons e expected ih =>
    cases cs with
    | nil => simp [stripStart?] at found
    | cons c cs =>
      simp only [stripStart?] at found
      split at found
      next equal => rw [ih found, equal]; rfl
      next => simp at found

/-- A beginning is stripped from what it begins. -/
@[simp] theorem stripStart?_append (expected after : List Char) :
    stripStart? expected (expected ++ after) = some after := by
  induction expected with
  | nil => rfl
  | cons e expected ih => simp [stripStart?, ih]

/-- The first cut loses nothing. -/
theorem eq_append_of_splitFirst? {separator cs before after : List Char}
    (found : splitFirst? separator cs = some (before, after)) :
    cs = before ++ separator ++ after := by
  induction cs generalizing before with
  | nil =>
    simp only [splitFirst?, Option.map_eq_some_iff, Prod.mk.injEq] at found
    obtain ⟨rest, stripped, rfl, rfl⟩ := found
    simpa using eq_append_of_stripStart? stripped
  | cons c rest ih =>
    unfold splitFirst? at found
    split at found
    next stripped =>
      simp only [Option.some.injEq, Prod.mk.injEq] at found
      obtain ⟨rfl, rfl⟩ := found
      simpa using eq_append_of_stripStart? stripped
    next =>
      simp only [Option.map_eq_some_iff, Prod.mk.injEq, Prod.exists] at found
      obtain ⟨first, last, cut, rfl, rfl⟩ := found
      simp [ih cut]

end PolicyLedger.Text
