/-
**Values that were written.**

A value whose numbers are whole is read back from any layout that it was written in if there is
room for its depth, and otherwise nothing is read (`value?_writeIn`). The reader has room for
`Reader.maxDepth` levels, while the writer has no bound: it writes a deeper value to a text that
cannot be read (`parse?_compact`, `parse?_pretty`).
-/

import PolicyLedger.Proofs.Json.DistinctKeys
import PolicyLedger.Proofs.Json.Layout
import PolicyLedger.Proofs.Json.Scalars

namespace PolicyLedger.Json

mutual

/-- Holds if all numbers in a value are whole. -/
def isWhole : Json → Bool
  | number (.double _) => false
  | list items => itemsAreWhole items
  | object members => membersAreWhole members
  | _ => true

/-- Holds if all numbers in some values are whole. -/
def itemsAreWhole : List Json → Bool
  | [] => true
  | item :: rest => isWhole item && itemsAreWhole rest

/-- Holds if all numbers in the values of some members are whole. -/
def membersAreWhole : List (String × Json) → Bool
  | [] => true
  | (_, value) :: rest => isWhole value && membersAreWhole rest

end

theorem itemsAreWhole_iff {items : List Json} :
    itemsAreWhole items = true ↔ ∀ item ∈ items, item.isWhole = true := by
  induction items with
  | nil => simp [itemsAreWhole]
  | cons item rest ih => rw [itemsAreWhole, Bool.and_eq_true, ih, List.forall_mem_cons]

theorem membersAreWhole_iff {members : List (String × Json)} :
    membersAreWhole members = true ↔ ∀ member ∈ members, member.2.isWhole = true := by
  induction members with
  | nil => simp [membersAreWhole]
  | cons member rest ih => rw [membersAreWhole, Bool.and_eq_true, ih, List.forall_mem_cons]

/-- A value that repeats no key and whose numbers are whole. -/
def IsPlain (value : Json) : Prop := value.isWhole = true ∧ value.hasDistinctKeys = true

@[simp] theorem isPlain_text (value : String) : (text value).IsPlain := ⟨rfl, rfl⟩

theorem isPlain_list {items : List Json} (plain : ∀ item ∈ items, item.IsPlain) :
    (list items).IsPlain :=
  ⟨itemsAreWhole_iff.mpr fun item inside => (plain item inside).1,
    hasDistinctKeys_list.mpr fun item inside => (plain item inside).2⟩

theorem isPlain_object {members : List (String × Json)} (distinct : (members.map Prod.fst).Nodup)
    (plain : ∀ member ∈ members, member.2.IsPlain) : (object members).IsPlain :=
  ⟨membersAreWhole_iff.mpr fun member inside => (plain member inside).1,
    hasDistinctKeys_object.mpr ⟨distinct, fun member inside => (plain member inside).2⟩⟩

theorem depthItems_le_iff {items : List Json} {bound : Nat} :
    depthItems items ≤ bound ↔ ∀ item ∈ items, item.depth ≤ bound := by
  induction items with
  | nil => simp [depthItems]
  | cons item rest ih => rw [depthItems, Nat.max_le, ih, List.forall_mem_cons]

theorem depthMembers_le_iff {members : List (String × Json)} {bound : Nat} :
    depthMembers members ≤ bound ↔ ∀ member ∈ members, member.2.depth ≤ bound := by
  induction members with
  | nil => simp [depthMembers]
  | cons member rest ih => rw [depthMembers, Nat.max_le, ih, List.forall_mem_cons]

namespace Reader

/-! ### Space -/

section

variable {space : List Char} (blank : ∀ c ∈ space, isSpace c = true)

include blank

theorem skip_append (cs : List Char) : skip (space ++ cs) = skip cs :=
  List.dropWhile_append_of_pos blank

/-- Space in front of a value is passed over. -/
theorem value?_space (fuel room : Nat) (cs : List Char) :
    value? fuel room (space ++ cs) = value? fuel room cs := by
  cases fuel with
  | zero => rfl
  | succ fuel => rw [value?, value?, skip_append blank]

theorem items?_space (fuel room : Nat) (cs : List Char) :
    items? fuel room (space ++ cs) = items? fuel room cs := by
  cases fuel with
  | zero => rfl
  | succ fuel => rw [items?, items?, value?_space blank]

theorem members?_space (fuel room : Nat) (cs : List Char) :
    members? fuel room (space ++ cs) = members? fuel room cs := by
  cases fuel with
  | zero => rfl
  | succ fuel => rw [members?, members?, skip_append blank]

end

/-! ### Beginnings -/

/-- Holds of the characters that a written value may begin with. -/
def Opens (cs : List Char) : Prop :=
  ∃ c, cs.head? = some c ∧ isSpace c = false ∧ c ≠ ']' ∧ c ≠ '\x7d'

theorem skip_of_opens {cs : List Char} (opens : Opens cs) : skip cs = cs := by
  obtain ⟨c, first, solid, -⟩ := opens
  obtain ⟨rest, rfl⟩ := List.head?_eq_some_iff.mp first
  exact List.dropWhile_cons_of_neg (by simp [solid])

theorem Opens.length_pos {cs : List Char} (opens : Opens cs) : 0 < cs.length := by
  obtain ⟨c, first, -⟩ := opens
  exact List.length_pos_of_mem (List.mem_of_head? first)

/-- Holds of the characters that a number begins with. -/
def BeginsNumber (c : Char) : Prop := c = '-' ∨ Text.isDigit c = true

theorem exists_intDigits (value : Int) :
    ∃ c cs, Text.intDigits value = c :: cs ∧ BeginsNumber c := by
  rw [Text.intDigits]
  by_cases negative : value < 0
  · exact ⟨'-', _, by rw [if_pos negative]; rfl, .inl rfl⟩
  · rw [if_neg negative, List.nil_append]
    cases digits : Nat.toDigits 10 value.natAbs with
    | nil => exact absurd digits Nat.toDigits_ne_nil
    | cons c cs =>
      exact ⟨c, cs, rfl, .inr (Text.isDigit_of_mem_toDigits (digits ▸ List.mem_cons_self))⟩

theorem BeginsNumber.ne {c other : Char} (begins : BeginsNumber c) (minus : '-' ≠ other)
    (digit : Text.isDigit other = false) : c ≠ other := by
  rintro rfl
  obtain rfl | number := begins
  · exact minus rfl
  · rw [digit] at number
    cases number

theorem BeginsNumber.isSpace {c : Char} (begins : BeginsNumber c) : isSpace c = false := by
  simp only [Reader.isSpace, Bool.or_eq_false_iff, beq_eq_false_iff_ne]
  exact ⟨⟨⟨begins.ne (by decide) rfl, begins.ne (by decide) rfl⟩, begins.ne (by decide) rfl⟩,
    begins.ne (by decide) rfl⟩

/-- A written value begins with a character of its own. -/
theorem opens_writeIn {value : Json} (whole : value.isWhole = true) (layout : Layout) (level : Nat)
    (rest : List Char) : Opens (writeIn layout level value ++ rest) := by
  match value with
  | null => exact ⟨'n', rfl, by decide⟩
  | bool true => exact ⟨'t', rfl, by decide⟩
  | bool false => exact ⟨'f', rfl, by decide⟩
  | text _ => exact ⟨'"', rfl, by decide⟩
  | list [] | list (_ :: _) => exact ⟨'[', rfl, by decide⟩
  | object [] | object (_ :: _) => exact ⟨'\x7b', rfl, by decide⟩
  | number (.whole value fits) =>
    obtain ⟨c, cs, digits, begins⟩ := exists_intDigits value
    refine ⟨c, ?_, begins.isSpace, begins.ne (by decide) rfl, begins.ne (by decide) rfl⟩
    show (Text.intDigits value ++ rest).head? = some c
    rw [digits]
    rfl
  | number (.double _) => cases whole

theorem length_writeIn_pos {value : Json} (whole : value.isWhole = true) (layout : Layout)
    (level : Nat) : 0 < (writeIn layout level value).length := by
  simpa using (opens_writeIn whole layout level []).length_pos

/-! ### One step -/

section

variable {fuel room : Nat} {rest : List Char}

theorem value?_number {c : Char} {cs : List Char} (begins : BeginsNumber c) :
    value? (fuel + 1) room (c :: cs) =
      (number? (c :: cs)).map fun read => (number read.1, read.2) := by
  have solid : skip (c :: cs) = c :: cs := List.dropWhile_cons_of_neg (by simp [begins.isSpace])
  rw [value?, solid]
  split
  next same => cases same
  next same => exact absurd (List.cons.inj same).1 (begins.ne (by decide) rfl)
  next same => exact absurd (List.cons.inj same).1 (begins.ne (by decide) rfl)
  next same => exact absurd (List.cons.inj same).1 (begins.ne (by decide) rfl)
  next same => exact absurd (List.cons.inj same).1 (begins.ne (by decide) rfl)
  next same => exact absurd (List.cons.inj same).1 (begins.ne (by decide) rfl)
  next same => exact absurd (List.cons.inj same).1 (begins.ne (by decide) rfl)
  next same => rw [← same]

theorem value?_text (value : String) :
    value? (fuel + 1) room (writeText value ++ rest) = some (text value, rest) := by
  show value? (fuel + 1) room ('"' :: (value.toList.flatMap escape ++ ['"'] ++ rest)) = _
  rw [value?]
  show (chars _).map _ = _
  rw [List.append_assoc, List.singleton_append, chars_escapes]
  simp

theorem value?_bracket (cs : List Char) :
    value? (fuel + 1) (room + 1) ('[' :: cs) =
      match skip cs with
      | ']' :: rest => some (list [], rest)
      | _ => (items? fuel room cs).map fun read => (list read.1, read.2) := rfl

theorem value?_brace (cs : List Char) :
    value? (fuel + 1) (room + 1) ('\x7b' :: cs) =
      match skip cs with
      | '\x7d' :: rest => some (object [], rest)
      | _ => (members? fuel room cs).map fun read => (object read.1, read.2) := rfl

theorem value?_list {cs : List Char} (opens : Opens (skip cs)) :
    value? (fuel + 1) (room + 1) ('[' :: cs) =
      (items? fuel room cs).map fun read => (list read.1, read.2) := by
  rw [value?_bracket]
  obtain ⟨c, first, -, other, -⟩ := opens
  obtain ⟨rest, same⟩ := List.head?_eq_some_iff.mp first
  rw [same]
  split
  next same => exact absurd (List.cons.inj same).1 other
  next => rfl

theorem value?_object {cs : List Char} (opens : Opens (skip cs)) :
    value? (fuel + 1) (room + 1) ('\x7b' :: cs) =
      (members? fuel room cs).map fun read => (object read.1, read.2) := by
  rw [value?_brace]
  obtain ⟨c, first, -, -, other⟩ := opens
  obtain ⟨rest, same⟩ := List.head?_eq_some_iff.mp first
  rw [same]
  split
  next same => exact absurd (List.cons.inj same).1 other
  next => rfl

theorem items?_none {cs : List Char} (unread : value? fuel room cs = none) :
    items? (fuel + 1) room cs = none := by
  rw [items?, unread]

theorem items?_last {item : Json} {cs after : List Char}
    (read : value? fuel room cs = some (item, after)) (closed : skip after = ']' :: rest) :
    items? (fuel + 1) room cs = some ([item], rest) := by
  rw [items?, read]
  dsimp only
  rw [closed]
  rfl

theorem items?_more {item : Json} {cs : List Char}
    (read : value? fuel room cs = some (item, ',' :: rest)) :
    items? (fuel + 1) room cs =
      (items? fuel room rest).map fun read => (item :: read.1, read.2) := by
  rw [items?, read]
  rfl

/-- A member is its key, a colon and its value. -/
theorem members?_key (key : String) (cs : List Char) :
    members? (fuel + 1) room (writeText key ++ ':' :: cs) =
      match value? fuel room cs with
      | none => none
      | some (value, rest) =>
        match skip rest with
        | '\x7d' :: rest => some ([(key, value)], rest)
        | ',' :: rest =>
          (members? fuel room rest).map fun read => ((key, value) :: read.1, read.2)
        | _ => none := by
  have opened : skip (writeText key ++ ':' :: cs) =
      '"' :: (key.toList.flatMap escape ++ '"' :: ':' :: cs) := by
    show skip ('"' :: (key.toList.flatMap escape ++ ['"'] ++ ':' :: cs)) = _
    rw [List.append_assoc]
    rfl
  have colon : skip (':' :: cs) = ':' :: cs := rfl
  have whole : String.ofList key.toList = key := String.ofList_toList
  rw [members?, opened]
  split
  next same =>
    obtain rfl := (List.cons.inj same).2
    rw [chars_escapes]
    dsimp only
    rw [colon]
    generalize String.ofList key.toList = written at whole ⊢
    subst whole
    rfl
  next other => exact absurd rfl (other _)

theorem members?_none {key : String} {cs : List Char} (unread : value? fuel room cs = none) :
    members? (fuel + 1) room (writeText key ++ ':' :: cs) = none := by
  rw [members?_key, unread]

theorem members?_last {key : String} {value : Json} {cs after : List Char}
    (read : value? fuel room cs = some (value, after)) (closed : skip after = '\x7d' :: rest) :
    members? (fuel + 1) room (writeText key ++ ':' :: cs) = some ([(key, value)], rest) := by
  rw [members?_key, read]
  dsimp only
  rw [closed]
  rfl

theorem members?_more {key : String} {value : Json} {cs : List Char}
    (read : value? fuel room cs = some (value, ',' :: rest)) :
    members? (fuel + 1) room (writeText key ++ ':' :: cs) =
      (members? fuel room rest).map fun read => ((key, value) :: read.1, read.2) := by
  rw [members?_key, read]
  rfl

end

/-! ### Written values -/

theorem endsNumber_cons {c : Char} (other : Text.isDigit c = false ∧ c ≠ '.' ∧ c ≠ 'e' ∧ c ≠ 'E')
    (rest : List Char) : EndsNumber (c :: rest) := by
  intro first same
  obtain rfl := Option.some.inj same
  exact other

theorem opens_writeText (key : String) (rest : List Char) : Opens (writeText key ++ rest) :=
  ⟨'"', rfl, by decide⟩

section

variable {layout : Layout} {level : Nat}

/-- Behind the space in front of them, items begin with a character of their own. -/
theorem opens_writeItemsIn {items : List Json} (nonempty : items ≠ [])
    (whole : itemsAreWhole items = true) (rest : List Char) :
    Opens (skip (writeItemsIn layout level items ++ rest)) := by
  have opens : ∀ {item} {cs}, item.isWhole = true →
      Opens (skip (layout.line level ++ (writeIn layout level item ++ cs))) := by
    intro item cs whole
    have opens := opens_writeIn whole layout level cs
    rwa [skip_append (layout.blank_line level), skip_of_opens opens]
  match items with
  | [item] =>
    rw [itemsAreWhole, Bool.and_eq_true] at whole
    rw [writeItemsIn_last_append]
    exact opens whole.1
  | item :: other :: others =>
    rw [itemsAreWhole, Bool.and_eq_true] at whole
    rw [writeItemsIn_more_append]
    exact opens whole.1

theorem opens_writeMembersIn {members : List (String × Json)} (nonempty : members ≠ [])
    (rest : List Char) : Opens (skip (writeMembersIn layout level members ++ rest)) := by
  have opens : ∀ {key} {cs}, Opens (skip (layout.line level ++ (writeText key ++ cs))) := by
    intro key cs
    have opens := opens_writeText key cs
    rwa [skip_append (layout.blank_line level), skip_of_opens opens]
  match members with
  | [(key, value)] =>
    rw [writeMembersIn_last_append]
    exact opens
  | (key, value) :: other :: others =>
    rw [writeMembersIn_more_append]
    exact opens

end

section

variable (layout : Layout)

mutual

/-- A value that was written in a layout is read back if there is room for its depth; otherwise
nothing is read. -/
theorem value?_writeIn : (value : Json) → value.isWhole = true → {level fuel room : Nat} →
    {rest : List Char} → 2 * (writeIn layout level value).length ≤ fuel + 1 → EndsNumber rest →
      value? fuel room (writeIn layout level value ++ rest) =
        if value.depth ≤ room then some (value, rest) else none
  | null, _, _, _ + 1, room, _, _, _ => (if_pos (Nat.zero_le room)).symm
  | bool true, _, _, _ + 1, room, _, _, _ => (if_pos (Nat.zero_le room)).symm
  | bool false, _, _, _ + 1, room, _, _, _ => (if_pos (Nat.zero_le room)).symm
  | text value, _, _, _ + 1, room, _, _, _ =>
    (value?_text value).trans (if_pos (Nat.zero_le room)).symm
  | number (.whole value fits), _, level, fuel + 1, room, rest, _, ends => by
    have read := number?_intDigits fits ends
    obtain ⟨c, cs, digits, begins⟩ := exists_intDigits value
    refine Eq.trans ?_ (if_pos (Nat.zero_le room)).symm
    show value? (fuel + 1) room (Text.intDigits value ++ rest) = _
    rw [digits, List.cons_append] at read ⊢
    rw [value?_number begins, read]
    rfl
  | list [], _, level, fuel + 1, room, rest, _, _ => by
    cases room with
    | zero => rfl
    | succ room =>
      rw [depth, depthItems, if_pos (by omega)]
      rfl
  | list (item :: others), whole, level, fuel + 1, room, rest, enough, _ => by
    rw [isWhole] at whole
    have read := @items?_writeItemsIn (item :: others) (List.cons_ne_nil _ _) whole
      (level + 1) fuel
    rw [writeIn] at enough
    simp only [List.cons_append, List.length_cons, List.length_append] at enough
    rw [writeIn_list_append, depth]
    cases room with
    | zero => rfl
    | succ room =>
      rw [value?_list (opens_writeItemsIn (List.cons_ne_nil _ _) whole _),
        read (layout.blank_line level) (by omega)]
      by_cases fits : depthItems (item :: others) ≤ room
      · rw [if_pos fits, if_pos (by omega)]
        rfl
      · rw [if_neg fits, if_neg (by omega)]
        rfl
  | object [], _, level, fuel + 1, room, rest, _, _ => by
    cases room with
    | zero => rfl
    | succ room =>
      rw [depth, depthMembers, if_pos (by omega)]
      rfl
  | object (member :: others), whole, level, fuel + 1, room, rest, enough, _ => by
    rw [isWhole] at whole
    have read := @members?_writeMembersIn (member :: others) (List.cons_ne_nil _ _) whole
      (level + 1) fuel
    rw [writeIn] at enough
    simp only [List.cons_append, List.length_cons, List.length_append] at enough
    rw [writeIn_object_append, depth]
    cases room with
    | zero => rfl
    | succ room =>
      rw [value?_object (opens_writeMembersIn (List.cons_ne_nil _ _) _),
        read (layout.blank_line level) (by omega)]
      by_cases fits : depthMembers (member :: others) ≤ room
      · rw [if_pos fits, if_pos (by omega)]
        rfl
      · rw [if_neg fits, if_neg (by omega)]
        rfl
  | value, whole, level, 0, _, _, enough, _ => by
    have positive := length_writeIn_pos whole layout level
    omega

/-- The same of items, up to the bracket behind them. -/
theorem items?_writeItemsIn : (items : List Json) → items ≠ [] → itemsAreWhole items = true →
    {level fuel room : Nat} → {space rest : List Char} → (∀ c ∈ space, isSpace c = true) →
      2 * (writeItemsIn layout level items).length ≤ fuel →
        items? fuel room (writeItemsIn layout level items ++ (space ++ ']' :: rest)) =
          if depthItems items ≤ room then some (items, rest) else none
  | [item], _, whole, level, fuel + 1, room, space, rest, blank, enough => by
    rw [itemsAreWhole, Bool.and_eq_true] at whole
    rw [writeItemsIn, List.length_append] at enough
    have read := @value?_writeIn item whole.1 level fuel room (space ++ ']' :: rest) (by omega)
      (.of_space blank (endsNumber_cons (by decide) rest))
    rw [writeItemsIn_last_append, items?_space (layout.blank_line level), depthItems, depthItems,
      Nat.max_zero]
    split at read
    next fits => rw [if_pos fits, items?_last read (skip_append blank _)]
    next deep => rw [if_neg deep, items?_none read]
  | item :: other :: others, _, whole, level, fuel + 1, room, space, rest, blank, enough => by
    rw [itemsAreWhole, Bool.and_eq_true] at whole
    rw [writeItemsIn, List.length_append, List.length_append, List.length_cons] at enough
    have read := @value?_writeIn item whole.1 level fuel room
      (',' :: (writeItemsIn layout level (other :: others) ++ (space ++ ']' :: rest))) (by omega)
      (endsNumber_cons (by decide) _)
    have more := @items?_writeItemsIn (other :: others) (List.cons_ne_nil _ _) whole.2 level fuel
      room space rest blank (by omega)
    rw [writeItemsIn_more_append, items?_space (layout.blank_line level), depthItems]
    split at read
    next fits =>
      rw [items?_more read, more]
      by_cases shallow : depthItems (other :: others) ≤ room
      · rw [if_pos shallow, if_pos (Nat.max_le.mpr ⟨fits, shallow⟩)]
        rfl
      · rw [if_neg shallow, if_neg (fun both => shallow (Nat.max_le.mp both).2)]
        rfl
    next deep => rw [items?_none read, if_neg (fun both => deep (Nat.max_le.mp both).1)]
  | [], nonempty, _, _, _, _, _, _, _, _ => absurd rfl nonempty
  | [item], _, whole, level, 0, _, _, _, _, enough => by
    rw [itemsAreWhole, Bool.and_eq_true] at whole
    have positive := length_writeIn_pos whole.1 layout level
    rw [writeItemsIn, List.length_append] at enough
    omega
  | item :: other :: others, _, _, level, 0, _, _, _, _, enough => by
    rw [writeItemsIn, List.length_append, List.length_cons] at enough
    omega

/-- The same of members, up to the brace behind them. -/
theorem members?_writeMembersIn : (members : List (String × Json)) → members ≠ [] →
    membersAreWhole members = true → {level fuel room : Nat} → {space rest : List Char} →
      (∀ c ∈ space, isSpace c = true) →
      2 * (writeMembersIn layout level members).length ≤ fuel →
        members? fuel room (writeMembersIn layout level members ++ (space ++ '\x7d' :: rest)) =
          if depthMembers members ≤ room then some (members, rest) else none
  | [(key, value)], _, whole, level, fuel + 1, room, space, rest, blank, enough => by
    rw [membersAreWhole, Bool.and_eq_true] at whole
    rw [writeMembersIn] at enough
    simp only [List.length_cons, List.length_append] at enough
    have read := @value?_writeIn value whole.1 level fuel room (space ++ '\x7d' :: rest) (by omega)
      (.of_space blank (endsNumber_cons (by decide) rest))
    rw [← value?_space layout.blank_gap] at read
    rw [writeMembersIn_last_append, members?_space (layout.blank_line level), depthMembers,
      depthMembers, Nat.max_zero]
    split at read
    next fits => rw [if_pos fits, members?_last read (skip_append blank _)]
    next deep => rw [if_neg deep, members?_none read]
  | (key, value) :: other :: others, _, whole, level, fuel + 1, room, space, rest, blank,
    enough => by
    rw [membersAreWhole, Bool.and_eq_true] at whole
    rw [writeMembersIn] at enough
    simp only [List.length_cons, List.length_append] at enough
    have read := @value?_writeIn value whole.1 level fuel room
      (',' :: (writeMembersIn layout level (other :: others) ++ (space ++ '\x7d' :: rest)))
      (by omega) (endsNumber_cons (by decide) _)
    have more := @members?_writeMembersIn (other :: others) (List.cons_ne_nil _ _) whole.2 level
      fuel room space rest blank (by omega)
    rw [← value?_space layout.blank_gap] at read
    rw [writeMembersIn_more_append, members?_space (layout.blank_line level), depthMembers]
    split at read
    next fits =>
      rw [members?_more read, more]
      by_cases shallow : depthMembers (other :: others) ≤ room
      · rw [if_pos shallow, if_pos (Nat.max_le.mpr ⟨fits, shallow⟩)]
        rfl
      · rw [if_neg shallow, if_neg (fun both => shallow (Nat.max_le.mp both).2)]
        rfl
    next deep => rw [members?_none read, if_neg (fun both => deep (Nat.max_le.mp both).1)]
  | [], nonempty, _, _, _, _, _, _, _, _ => absurd rfl nonempty
  | [(key, value)], _, _, level, 0, _, _, _, _, enough => by
    rw [writeMembersIn, List.length_append] at enough
    simp only [List.length_append, List.length_cons] at enough
    omega
  | (key, value) :: other :: others, _, _, level, 0, _, _, _, _, enough => by
    rw [writeMembersIn, List.length_append, List.length_cons] at enough
    omega

end

end

/-- A written value is read back if there is room for its depth; otherwise nothing is read. -/
theorem value?_write (value : Json) (whole : value.isWhole = true) {fuel room : Nat}
    {rest : List Char} (enough : 2 * (write value).length ≤ fuel + 1) (closes : Closes rest) :
    value? fuel room (write value ++ rest) =
      if value.depth ≤ room then some (value, rest) else none := by
  rw [← writeIn_compact value 0] at enough ⊢
  exact value?_writeIn compactLayout value whole enough closes.endsNumber

end Reader

/-! ### Whole texts -/

/-- A value that was written in a layout is read back if it is not too deep; otherwise its text is
none. -/
theorem parse?_writeIn (layout : Layout) {value : Json} (whole : value.isWhole = true) :
    parse? (String.ofList (writeIn layout 0 value)) =
      if value.depth ≤ Reader.maxDepth then some value else none := by
  have read := @Reader.value?_writeIn layout value whole 0 (2 * (writeIn layout 0 value).length + 2)
    Reader.maxDepth [] (by omega) nofun
  rw [List.append_nil] at read
  rw [parse?]
  simp only [String.toList_ofList, read]
  by_cases fits : value.depth ≤ Reader.maxDepth
  · rw [if_pos fits, if_pos fits]
    rfl
  · rw [if_neg fits, if_neg fits]

theorem parse?_compact {value : Json} (whole : value.isWhole = true) :
    parse? value.compact = if value.depth ≤ Reader.maxDepth then some value else none := by
  rw [compact, ← writeIn_compact value 0, parse?_writeIn compactLayout whole]

theorem parse?_pretty {value : Json} (whole : value.isWhole = true) :
    parse? value.pretty = if value.depth ≤ Reader.maxDepth then some value else none := by
  rw [pretty, ← writeIn_lines value 0, parse?_writeIn lineLayout whole]

/-- No two values are written in the same way. -/
theorem compact_injective {value other : Json} (whole : value.isWhole = true)
    (wholeOther : other.isWhole = true) (same : value.compact = other.compact) : value = other := by
  have written : write value = write other := by
    simpa only [compact, String.toList_ofList] using congrArg String.toList same
  have read := @Reader.value?_write value whole (2 * (write value).length)
    (max value.depth other.depth) [] (by omega) nofun
  have readOther := @Reader.value?_write other wholeOther (2 * (write value).length)
    (max value.depth other.depth) [] (by rw [written]; omega) nofun
  rw [if_pos (Nat.le_max_left _ _), written] at read
  rw [if_pos (Nat.le_max_right _ _), written, read] at readOther
  exact (Prod.mk.inj (Option.some.inj readOther)).1

/-- The bytes of a plain value are read back as the value if it is not too deep, and otherwise not
at all. -/
theorem canonicalOfBytes?_compact {value : Json} (plain : value.IsPlain) :
    canonicalOfBytes? (Bytes.ofText value.compact) =
      if value.depth ≤ Reader.maxDepth then some value else none := by
  rw [canonicalOfBytes?, ofBytes?, Bytes.toText?_ofText, Option.bind_some, parse?_compact plain.1]
  split
  next => rw [Option.map_some, canonical_eq_self value plain.2]
  next => rfl

end PolicyLedger.Json
