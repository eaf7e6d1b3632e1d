/-
**The reserved namespace.**

An identifier is reserved if, without blanks and in small letters, it is the reserved word or
begins with the word and a separator (`isReserved_iff`). Blanks at the ends do not matter
(`isReserved_trimmed`), and a name of an action is reserved if the type in it is, whether the type
was written out or completed (`isReserved_of_splitAction`).
-/

import PolicyLedger.Request.Resolution

namespace PolicyLedger

namespace Text

theorem squeeze_append (cs ds : List Char) : squeeze (cs ++ ds) = squeeze cs ++ squeeze ds :=
  List.filter_append ..

theorem squeeze_trimLeft (cs : List Char) : squeeze (trimLeft cs) = squeeze cs := by
  induction cs with
  | nil => rfl
  | cons c rest ih =>
    rw [trimLeft, List.dropWhile_cons]
    by_cases blank : isBlank c = true
    · rw [if_pos blank]
      show squeeze (trimLeft rest) = _
      rw [ih, squeeze, squeeze, List.filter_cons_of_neg (by simp [blank])]
    · rw [if_neg blank]

theorem squeeze_trimRight (cs : List Char) : squeeze (trimRight cs) = squeeze cs := by
  show List.filter _ (trimLeft cs.reverse).reverse = _
  rw [List.filter_reverse]
  show (squeeze (trimLeft cs.reverse)).reverse = _
  rw [squeeze_trimLeft, squeeze, List.filter_reverse, List.reverse_reverse, squeeze]

/-- Blanks at the ends are among the blanks. -/
theorem squeeze_trim (cs : List Char) : squeeze (trim cs) = squeeze cs := by
  rw [trim, squeeze_trimRight, squeeze_trimLeft]

/-- The last cut loses nothing. -/
theorem eq_append_of_splitLast? {separator cs before after : List Char}
    (found : splitLast? separator cs = some (before, after)) :
    cs = before ++ separator ++ after := by
  simp only [splitLast?, Option.map_eq_some_iff, Prod.mk.injEq, Prod.exists] at found
  obtain ⟨last, first, cut, rfl, rfl⟩ := found
  have whole := congrArg List.reverse (eq_append_of_splitFirst? cut)
  simpa using whole

end Text

/-! ### Identifiers in the namespace -/

/-- Holds of the reserved word and of what begins with it and a separator. -/
def InReserved (plain : List Char) : Prop :=
  plain = reservedWord ∨ ∃ rest, plain = reservedWord ++ separator ++ rest

theorem normalized_append (cs ds : List Char) :
    normalized (cs ++ ds) = normalized cs ++ normalized ds := by
  rw [normalized, Text.squeeze_append, Text.lower_append, normalized, normalized]

theorem normalized_trim (cs : List Char) : normalized (Text.trim cs) = normalized cs := by
  rw [normalized, Text.squeeze_trim, normalized]

/-- The reserved identifiers. -/
theorem isReserved_iff {identifier : String} :
    isReserved identifier = true ↔ InReserved (normalized identifier.toList) := by
  rw [isReserved, Bool.or_eq_true, beq_iff_eq, InReserved]
  refine or_congr Iff.rfl ⟨fun stripped => ?_, fun ⟨rest, begins⟩ => ?_⟩
  · obtain ⟨rest, stripped⟩ := Option.isSome_iff_exists.mp stripped
    exact ⟨rest, Text.eq_append_of_stripStart? stripped⟩
  · rw [begins, Text.stripStart?_append]
    rfl

/-- Blanks at the ends do not matter. -/
theorem isReserved_trimmed (identifier : String) :
    isReserved (Text.trimmed identifier) = isReserved identifier := by
  rw [Bool.eq_iff_iff, isReserved_iff, isReserved_iff, Text.trimmed, String.toList_ofList,
    normalized_trim]

theorem refuseReserved_eq_ok {what identifier : String} :
    refuseReserved what identifier = .ok () ↔ isReserved identifier = false := by
  rw [refuseReserved]
  by_cases reserved : isReserved identifier = true
  · simp [reserved]
  · simp [Bool.not_eq_true _ ▸ reserved]

theorem colon_not_mem_reservedWord : ':' ∉ reservedWord := by decide

/-- What stands before a separator decides, up to a colon at its end. -/
theorem InReserved.extend {before : List Char} (rest : List Char)
    (reserved : InReserved before) : InReserved (before ++ separator ++ rest) := by
  obtain rfl | ⟨inner, rfl⟩ := reserved
  · exact .inr ⟨rest, rfl⟩
  · exact .inr ⟨inner ++ separator ++ rest, by simp only [List.append_assoc]⟩

/-- What follows a separator does not matter. -/
theorem InReserved.replace {before after : List Char} (other : List Char)
    (reserved : InReserved (before ++ separator ++ after)) :
    InReserved (before ++ separator ++ other) := by
  obtain word | ⟨rest, begins⟩ := reserved
  · have colon : ':' ∈ reservedWord := word ▸ by simp [separator]
    exact absurd colon colon_not_mem_reservedWord
  · rw [List.append_assoc, List.append_assoc, List.append_eq_append_iff] at begins
    obtain ⟨tail, word, follows⟩ | ⟨tail, rfl, follows⟩ := begins
    · cases tail with
      | nil =>
        rw [List.append_nil] at word
        exact .extend other (.inl word.symm)
      | cons c tail =>
        -- the separator would begin inside the reserved word
        obtain rfl : ':' = c := (List.cons.inj follows).1
        exact absurd (word ▸ by simp) colon_not_mem_reservedWord
    · match tail, follows with
      | [], _ => exact .extend other (.inl (List.append_nil _))
      | [c], follows =>
        obtain rfl : ':' = c := (List.cons.inj follows).1
        exact .inr ⟨':' :: other, by simp [separator]⟩
      | c :: d :: tail, follows =>
        obtain ⟨rfl, more⟩ := List.cons.inj follows
        obtain rfl : ':' = d := (List.cons.inj more).1
        exact .extend other (.inr ⟨tail, by simp [separator]⟩)

/-! ### Action names -/

namespace Resolution

/-- The type in the name of an action is what precedes the last separator, which may have been
completed. -/
theorem splitAction_eq_ok {name type id : String} (split : splitAction name = .ok (type, id)) :
    ∃ before after, name.toList = before ++ separator ++ after ∧
      (type.toList = Text.trim before ∨
        type.toList = Text.trim before ++ separator ++ actionWord) := by
  rw [splitAction] at split
  cases cut : Text.splitLast? separator name.toList with
  | none => simp [cut] at split
  | some parts =>
    obtain ⟨before, after⟩ := parts
    refine ⟨before, after, Text.eq_append_of_splitLast? cut, ?_⟩
    simp only [cut] at split
    by_cases noType : (Text.trim before).isEmpty = true
    · simp [noType] at split
    by_cases noId : (Text.trim after).isEmpty = true
    · simp [noType, noId] at split
    simp only [noType, noId, Bool.false_eq_true, if_false, Except.ok.injEq, Prod.mk.injEq] at split
    rw [← split.1, String.toList_ofList]
    split
    · exact .inl rfl
    · exact .inr rfl

/-- A name of an action is reserved if its type is. -/
theorem isReserved_of_splitAction {name type id : String}
    (split : splitAction name = .ok (type, id)) (reserved : isReserved type = true) :
    isReserved name = true := by
  obtain ⟨before, after, whole, written⟩ := splitAction_eq_ok split
  have plain : normalized separator = separator := by decide
  rw [isReserved_iff] at reserved ⊢
  rw [whole, normalized_append, normalized_append, plain]
  obtain written | written := written
  · rw [written, normalized_trim] at reserved
    exact reserved.extend _
  · rw [written, normalized_append, normalized_append, plain, normalized_trim] at reserved
    exact reserved.replace _

end Resolution

end PolicyLedger
