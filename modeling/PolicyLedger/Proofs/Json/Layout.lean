/-
**Layouts of written values.**

Values are written without any space or on indented lines. Both are layouts, which differ in the
space that they put in front of the items and members of a level, before the bracket or brace that
closes it, and after a colon. `writeIn` writes a value in any layout; `compactLayout` is the one of
`write` (`writeIn_compact`) and `lineLayout` the one of `writeLines` (`writeIn_lines`).
-/

import PolicyLedger.Json.Reader
import PolicyLedger.Json.Writer

namespace PolicyLedger.Json

open Reader (isSpace)

/-- The space around the parts of a value. -/
structure Layout where
  line : Nat → List Char
  gap : List Char
  blank_line : ∀ level, ∀ c ∈ line level, isSpace c = true
  blank_gap : ∀ c ∈ gap, isSpace c = true

/-- No space. -/
def compactLayout : Layout where
  line _ := []
  gap := []
  blank_line _ _ inside := absurd inside List.not_mem_nil
  blank_gap _ inside := absurd inside List.not_mem_nil

/-- Lines indented by two spaces a level, and one space after a colon. -/
def lineLayout : Layout where
  line := newLine
  gap := [' ']
  blank_line level c inside := by
    obtain rfl | inside := List.mem_cons.mp inside
    · rfl
    · rw [List.eq_of_mem_replicate inside]
      rfl
  blank_gap c inside := by
    obtain rfl := List.mem_singleton.mp inside
    rfl

mutual

/-- A value in a layout, with its parts on a level. -/
def writeIn (layout : Layout) (level : Nat) : Json → List Char
  | list [] => ['[', ']']
  | list (item :: rest) =>
    '[' :: writeItemsIn layout (level + 1) (item :: rest) ++ layout.line level ++ [']']
  | object [] => ['\x7b', '\x7d']
  | object (first :: rest) =>
    '\x7b' :: writeMembersIn layout (level + 1) (first :: rest) ++ layout.line level ++ ['\x7d']
  | value => write value

/-- Values in a layout, with commas between them. -/
def writeItemsIn (layout : Layout) (level : Nat) : List Json → List Char
  | [] => []
  | [item] => layout.line level ++ writeIn layout level item
  | item :: other :: rest =>
    layout.line level ++ writeIn layout level item ++
      ',' :: writeItemsIn layout level (other :: rest)

/-- Members in a layout, with commas between them. -/
def writeMembersIn (layout : Layout) (level : Nat) : List (String × Json) → List Char
  | [] => []
  | [(key, value)] =>
    layout.line level ++ writeText key ++ ':' :: layout.gap ++ writeIn layout level value
  | (key, value) :: other :: rest =>
    layout.line level ++ writeText key ++ ':' :: layout.gap ++ writeIn layout level value ++
      ',' :: writeMembersIn layout level (other :: rest)

end

/-! ### In front of other text -/

section

variable (layout : Layout) (level : Nat) (rest : List Char)

theorem writeIn_list_append (item : Json) (others : List Json) :
    writeIn layout level (list (item :: others)) ++ rest =
      '[' :: (writeItemsIn layout (level + 1) (item :: others) ++
        (layout.line level ++ ']' :: rest)) := by
  simp [writeIn]

theorem writeIn_object_append (first : String × Json) (others : List (String × Json)) :
    writeIn layout level (object (first :: others)) ++ rest =
      '\x7b' :: (writeMembersIn layout (level + 1) (first :: others) ++
        (layout.line level ++ '\x7d' :: rest)) := by
  simp [writeIn]

theorem writeItemsIn_last_append (item : Json) :
    writeItemsIn layout level [item] ++ rest =
      layout.line level ++ (writeIn layout level item ++ rest) := by
  simp [writeItemsIn]

theorem writeItemsIn_more_append (item other : Json) (others : List Json) :
    writeItemsIn layout level (item :: other :: others) ++ rest =
      layout.line level ++ (writeIn layout level item ++
        ',' :: (writeItemsIn layout level (other :: others) ++ rest)) := by
  simp [writeItemsIn]

theorem writeMembersIn_last_append (key : String) (value : Json) :
    writeMembersIn layout level [(key, value)] ++ rest =
      layout.line level ++ (writeText key ++
        ':' :: (layout.gap ++ (writeIn layout level value ++ rest))) := by
  simp [writeMembersIn]

theorem writeMembersIn_more_append (key : String) (value : Json) (other : String × Json)
    (others : List (String × Json)) :
    writeMembersIn layout level ((key, value) :: other :: others) ++ rest =
      layout.line level ++ (writeText key ++
        ':' :: (layout.gap ++ (writeIn layout level value ++
          ',' :: (writeMembersIn layout level (other :: others) ++ rest)))) := by
  simp [writeMembersIn]

end

/-! ### The two layouts -/

mutual

/-- Values without any space are in a layout. -/
theorem writeIn_compact : (value : Json) → (level : Nat) →
    writeIn compactLayout level value = write value
  | null, _ | bool _, _ | number _, _ | text _, _ => rfl
  | list [], _ => rfl
  | object [], _ => rfl
  | list (item :: rest), level => by
    rw [writeIn, writeItemsIn_compact (item :: rest)]
    exact congrArg (· ++ [']']) (List.append_nil _)
  | object (first :: rest), level => by
    rw [writeIn, writeMembersIn_compact (first :: rest)]
    exact congrArg (· ++ ['\x7d']) (List.append_nil _)

theorem writeItemsIn_compact : (items : List Json) → (level : Nat) →
    writeItemsIn compactLayout level items = writeItems items
  | [], _ => rfl
  | [item], level => by
    rw [writeItemsIn, writeIn_compact item, writeItems]
    rfl
  | item :: other :: rest, level => by
    rw [writeItemsIn, writeIn_compact item, writeItemsIn_compact (other :: rest), writeItems]
    rfl

theorem writeMembersIn_compact : (members : List (String × Json)) → (level : Nat) →
    writeMembersIn compactLayout level members = writeMembers members
  | [], _ => rfl
  | [(key, value)], level => by
    rw [writeMembersIn, writeIn_compact value, writeMembers, List.append_assoc]
    rfl
  | (key, value) :: other :: rest, level => by
    rw [writeMembersIn, writeIn_compact value, writeMembersIn_compact (other :: rest),
      writeMembers]
    simp [compactLayout]

end

mutual

/-- Values on indented lines are in a layout. -/
theorem writeIn_lines : (value : Json) → (level : Nat) →
    writeIn lineLayout level value = writeLines level value
  | null, _ | bool true, _ | bool false, _ | number _, _ | text _, _ => rfl
  | list [], _ => rfl
  | object [], _ => rfl
  | list (item :: rest), level => by
    rw [writeIn, writeItemsIn_lines (item :: rest)]
    rfl
  | object (first :: rest), level => by
    rw [writeIn, writeMembersIn_lines (first :: rest)]
    rfl

theorem writeItemsIn_lines : (items : List Json) → (level : Nat) →
    writeItemsIn lineLayout level items = writeItemLines level items
  | [], _ => rfl
  | [item], level => by
    rw [writeItemsIn, writeIn_lines item]
    rfl
  | item :: other :: rest, level => by
    rw [writeItemsIn, writeIn_lines item, writeItemsIn_lines (other :: rest)]
    rfl

theorem writeMembersIn_lines : (members : List (String × Json)) → (level : Nat) →
    writeMembersIn lineLayout level members = writeMemberLines level members
  | [], _ => rfl
  | [(key, value)], level => by
    rw [writeMembersIn, writeIn_lines value, writeMemberLines, List.append_assoc]
    rfl
  | (key, value) :: other :: rest, level => by
    rw [writeMembersIn, writeIn_lines value, writeMembersIn_lines (other :: rest),
      writeMemberLines]
    simp [lineLayout]

end

end PolicyLedger.Json
