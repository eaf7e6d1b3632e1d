/-
**Texts between quotation marks.**

A character is written as it is or as an escape, and either way it is read back (`Stands`,
`stands_escapeChar`). A text token takes what is written up to the closing quotation mark
(`Passes`), and the text and the pattern that were written are made of it again
(`textOf?_escapeText`, `patternOf?_print`). No carriage return is written as it is.
-/

import PolicyLedger.Policy.Printer
import PolicyLedger.Policy.Token
import PolicyLedger.Proofs.Policy.Lexes

namespace PolicyLedger.Policy

/-! ### Numbers in braces -/

theorem hexValue?_digitChar {value : Nat} (small : value < 16) :
    Text.hexValue? value.digitChar = some value ∧ value.digitChar ≠ '\x7d' ∧
      value.digitChar ≠ '_' := by
  have all : ∀ digit : Fin 16, Text.hexValue? digit.1.digitChar = some digit.1 ∧
      digit.1.digitChar ≠ '\x7d' ∧ digit.1.digitChar ≠ '_' := by decide
  exact all ⟨value, small⟩

theorem bracedDigits_digitChar {digit : Nat} (small : digit < 16) (room value : Nat)
    (rest : List Char) :
    bracedDigits (room + 1) value (digit.digitChar :: rest) =
      bracedDigits room (16 * value + digit) rest := by
  obtain ⟨read, noBrace, noLine⟩ := hexValue?_digitChar small
  rw [bracedDigits.eq_def]
  simp only [if_neg noBrace, if_neg noLine, read]

theorem bracedDigits_brace (room value : Nat) (rest : List Char) :
    bracedDigits room value ('\x7d' :: rest) = some (value, rest) := by
  rw [bracedDigits.eq_def]
  rfl

/-- The digits of a number are taken if there is room for them. -/
theorem bracedDigits_toDigits (number : Nat) {room : Nat}
    (enough : (Nat.toDigits 16 number).length ≤ room) (rest : List Char) :
    bracedDigits room 0 (Nat.toDigits 16 number ++ rest) =
      bracedDigits (room - (Nat.toDigits 16 number).length) number rest := by
  induction number using Nat.strongRecOn generalizing rest with
  | ind number ih =>
    rw [Nat.toDigits_eq_if (by decide)] at enough ⊢
    split at enough
    next small =>
      obtain ⟨room, rfl⟩ : ∃ less, room = less + 1 := ⟨room - 1, by simp at enough; omega⟩
      rw [if_pos small, List.singleton_append, bracedDigits_digitChar small]
      simp
    next large =>
      rw [List.length_append, List.length_singleton] at enough
      rw [if_neg large, List.append_assoc, ih (number / 16) (by omega) (by omega),
        List.singleton_append, List.length_append, List.length_singleton]
      obtain ⟨left, same⟩ : ∃ left, room - (Nat.toDigits 16 (number / 16)).length = left + 1 :=
        ⟨_, (Nat.succ_pred_eq_of_pos (by omega)).symm⟩
      rw [same, bracedDigits_digitChar (Nat.mod_lt number (by decide)),
        show 16 * (number / 16) + number % 16 = number by omega,
        show room - ((Nat.toDigits 16 (number / 16)).length + 1) = left by omega]

theorem scalar?_toNat (c : Char) : Text.scalar? c.toNat = some c := by
  have valid : c.toNat < 0xD800 ∨ (0xDFFF < c.toNat ∧ c.toNat < 0x110000) := c.valid
  rw [Text.scalar?, if_pos valid, Char.ofNat_toNat]

/-- The digits of a number are hexadecimal, and none of them ends it. -/
theorem exists_digit_of_mem {number : Nat} {c : Char} (inside : c ∈ Nat.toDigits 16 number) :
    ∃ value < 16, c = value.digitChar := by
  induction number using Nat.strongRecOn with
  | ind number ih =>
    rw [Nat.toDigits_eq_if (by decide)] at inside
    split at inside
    next small => exact ⟨number, small, List.mem_singleton.mp inside⟩
    next large =>
      obtain inside | last := List.mem_append.mp inside
      · exact ih (number / 16) (by omega) inside
      · exact ⟨number % 16, Nat.mod_lt number (by decide), List.mem_singleton.mp last⟩

/-- An escape by number is read back. -/
theorem escape?_number (c : Char) (rest : List Char) :
    escape? ('u' :: '\x7b' :: (Text.hexNumber c.toNat ++ '\x7d' :: rest)) = some (c, rest) := by
  have bounded : c.toNat < 16 ^ 6 := by
    have valid : c.toNat < 0xD800 ∨ (0xDFFF < c.toNat ∧ c.toNat < 0x110000) := c.valid
    omega
  have short : (Nat.toDigits 16 c.toNat).length ≤ 6 :=
    (Nat.length_toDigits_le_iff (by decide) (by decide)).mpr bounded
  have whole := bracedDigits_toDigits c.toNat short ('\x7d' :: rest)
  obtain ⟨first, more, digits⟩ := List.exists_cons_of_ne_nil
    (@Nat.toDigits_ne_nil c.toNat 16)
  obtain ⟨value, small, rfl⟩ := exists_digit_of_mem (digits ▸ List.mem_cons_self)
  -- the first digit is read apart from the others
  rw [digits, List.cons_append, bracedDigits_digitChar small] at whole
  have braced : bracedDigits 5 value (more ++ '\x7d' :: rest) = some (c.toNat, rest) := by
    rw [Nat.mul_zero, Nat.zero_add] at whole
    rw [whole, bracedDigits_brace]
  rw [Text.hexNumber, digits, List.cons_append]
  show (Text.hexValue? value.digitChar >>= fun digit =>
    bracedDigits 5 digit (more ++ '\x7d' :: rest) >>= fun read =>
      Text.scalar? read.1 >>= fun char => some (char, read.2)) = _
  rw [(hexValue?_digitChar small).1, Option.bind_eq_bind, Option.bind_some, braced]
  show (Text.scalar? c.toNat >>= fun char => some (char, rest)) = _
  rw [scalar?_toNat]
  rfl

/-! ### Characters -/

/-- The ways in which a character is written between quotation marks: as it is, or as an escape. -/
inductive Stands (c : Char) : List Char → Prop
  | plain (noQuote : c ≠ '"') (noEscape : c ≠ '\\') (noReturn : c ≠ '\r') : Stands c [c]
  | escape {first : Char} {more : List Char}
    (read : ∀ rest, escape? (first :: (more ++ rest)) = some (c, rest)) (line : first ≠ '\n')
    (noReturn : first ≠ '\r') (noStar : first ≠ '*')
    (others : ∀ d ∈ more, d ≠ '"' ∧ d ≠ '\\' ∧ d ≠ '\r') : Stands c ('\\' :: first :: more)

/-- A character is written in one of these ways. -/
theorem stands_escapeChar (extending : Bool) (c : Char) :
    Stands c (Text.escapeChar extending c) := by
  rw [Text.escapeChar]
  by_cases null : c = '\x00'
  · rw [if_pos null, null]
    exact .escape (fun _ => rfl) (by decide) (by decide) (by decide) nofun
  rw [if_neg null]
  by_cases tab : c = '\t'
  · rw [if_pos tab, tab]
    exact .escape (fun _ => rfl) (by decide) (by decide) (by decide) nofun
  rw [if_neg tab]
  by_cases carriage : c = '\r'
  · rw [if_pos carriage, carriage]
    exact .escape (fun _ => rfl) (by decide) (by decide) (by decide) nofun
  rw [if_neg carriage]
  by_cases newline : c = '\n'
  · rw [if_pos newline, newline]
    exact .escape (fun _ => rfl) (by decide) (by decide) (by decide) nofun
  rw [if_neg newline]
  by_cases special : c = '\\' ∨ c = '"' ∨ c = '\x27'
  · rw [if_pos special]
    obtain rfl | rfl | rfl := special <;>
      exact .escape (fun _ => rfl) (by decide) (by decide) (by decide) nofun
  rw [if_neg special]
  rw [not_or, not_or] at special
  split
  · have braced : ∀ d ∈ '\x7b' :: (Text.hexNumber c.toNat ++ ['\x7d']),
        d ≠ '"' ∧ d ≠ '\\' ∧ d ≠ '\r' := by
      intro d inside
      obtain rfl | inside := List.mem_cons.mp inside
      · decide
      obtain inside | last := List.mem_append.mp inside
      · obtain ⟨value, small, rfl⟩ := exists_digit_of_mem inside
        have all : ∀ digit : Fin 16, digit.1.digitChar ≠ '"' ∧ digit.1.digitChar ≠ '\\' ∧
            digit.1.digitChar ≠ '\r' := by decide
        exact all ⟨value, small⟩
      · obtain rfl := List.mem_singleton.mp last
        decide
    show Stands c ('\\' :: 'u' :: '\x7b' :: (Text.hexNumber c.toNat ++ ['\x7d']))
    refine .escape (fun rest => ?_) (by decide) (by decide) (by decide) braced
    rw [List.cons_append, List.append_assoc]
    exact escape?_number c rest
  · exact .plain special.2.1 special.1 carriage

/-- Characters that a text token takes as they are, whatever follows them. -/
def Passes (word : List Char) : Prop :=
  ∀ rest, Token.rawText? (word ++ rest) =
    (Token.rawText? rest).map fun (read, rest) => (word ++ read, rest)

namespace Passes

theorem nil : Passes [] := fun rest => by
  cases read : Token.rawText? rest <;> simp [read]

theorem append {first second : List Char} (passes : Passes first) (others : Passes second) :
    Passes (first ++ second) := by
  intro rest
  rw [List.append_assoc, passes, others, Option.map_map]
  congr 1
  funext ⟨read, rest⟩
  exact congrArg (·, rest) (List.append_assoc first second read).symm

theorem of_plain {word : List Char} (plain : ∀ d ∈ word, d ≠ '"' ∧ d ≠ '\\') : Passes word := by
  induction word with
  | nil => exact nil
  | cons d word ih =>
    rw [List.forall_mem_cons] at plain
    intro rest
    rw [List.cons_append, Token.rawText?_cons _ plain.1.1 plain.1.2, ih plain.2, Option.map_map]
    rfl

/-- A backslash takes the next character with it. -/
theorem of_escape {first : Char} (line : first ≠ '\n') : Passes ['\\', first] := by
  intro rest
  rw [List.cons_append, List.cons_append, Token.rawText?, if_neg line]
  rfl

end Passes

namespace Stands

variable {c : Char} {word : List Char}

theorem passes (stands : Stands c word) : Passes word := by
  cases stands with
  | plain noQuote noEscape => exact .of_plain (List.forall_mem_singleton.mpr ⟨noQuote, noEscape⟩)
  | escape _ line _ _ others =>
    exact (Passes.of_escape line).append (.of_plain fun d inside => ⟨(others d inside).1,
      (others d inside).2.1⟩)

theorem noReturn (stands : Stands c word) : '\r' ∉ word := by
  cases stands with
  | plain _ _ noReturn => exact fun inside => noReturn (List.mem_singleton.mp inside).symm
  | escape _ _ noReturn _ others =>
    rintro (_ | ⟨_, _ | ⟨_, inside⟩⟩)
    · exact noReturn rfl
    · exact (others _ inside).2.2 rfl

theorem ne_nil (stands : Stands c word) : word ≠ [] := by
  cases stands <;> exact List.cons_ne_nil _ _

theorem unescape?_append (stands : Stands c word) (fuel : Nat) (rest : List Char) :
    unescape? (fuel + 1) (word ++ rest) = (unescape? fuel rest).map fun read => c :: read := by
  cases stands with
  | plain _ noEscape noReturn =>
    rw [List.singleton_append, unescape?, if_neg noReturn]
    exact noEscape
  | escape read =>
    rw [List.cons_append, List.cons_append, unescape?, read]
    show (unescape? fuel rest >>= fun read => some (c :: read)) = _
    cases unescape? fuel rest <;> rfl

/-- A character of a pattern is read back unless it is an asterisk. -/
theorem pattern?_append (stands : Stands c word) (other : c ≠ '*') (fuel : Nat)
    (rest : List Char) :
    pattern? (fuel + 1) (word ++ rest) =
      (pattern? fuel rest).map fun read => .char c :: read := by
  cases stands with
  | plain _ noEscape noReturn =>
    rw [List.singleton_append, pattern?, if_neg noReturn, if_neg other]
    · exact fun rest same => absurd same noEscape
    · exact fun same => noEscape same
  | escape read _ _ noStar =>
    rw [List.cons_append, List.cons_append, pattern?, read]
    · show (pattern? fuel rest >>= fun read =>
        some ((if c = '*' then .wildcard else .char c) :: read)) = _
      rw [if_neg other]
      cases pattern? fuel rest <;> rfl
    · exact fun rest same => noStar (List.cons.inj same).1

end Stands

/-! ### Texts -/

/-- Characters are written one after the other. -/
inductive Forms : List Char → List Char → Prop
  | nil : Forms [] []
  | cons {c : Char} {word cs raw : List Char} (stands : Stands c word) (forms : Forms cs raw) :
    Forms (c :: cs) (word ++ raw)

namespace Forms

variable {cs raw : List Char}

theorem of_flatMap (cs : List Char) : Forms cs (cs.flatMap (Text.escapeChar false)) := by
  induction cs with
  | nil => exact .nil
  | cons c cs ih => exact .cons (stands_escapeChar false c) ih

theorem of_escapeText (cs : List Char) : Forms cs (Text.escapeText cs) := by
  cases cs with
  | nil => exact .nil
  | cons c cs => exact .cons (stands_escapeChar true c) (of_flatMap cs)

theorem passes (forms : Forms cs raw) : Passes raw := by
  induction forms with
  | nil => exact .nil
  | cons stands _ ih => exact stands.passes.append ih

theorem noReturn (forms : Forms cs raw) : '\r' ∉ raw := by
  induction forms with
  | nil => exact nofun
  | cons stands _ ih =>
    rw [List.mem_append, not_or]
    exact ⟨stands.noReturn, ih⟩

theorem length_le (forms : Forms cs raw) : cs.length ≤ raw.length := by
  induction forms with
  | nil => exact Nat.le_refl _
  | cons stands _ ih =>
    have nonempty := List.length_pos_iff.mpr stands.ne_nil
    rw [List.length_cons, List.length_append]
    omega

theorem unescape?_eq (forms : Forms cs raw) {fuel : Nat} (enough : cs.length < fuel) :
    unescape? fuel raw = some cs := by
  induction forms generalizing fuel with
  | nil =>
    obtain ⟨fuel, rfl⟩ := Nat.exists_eq_succ_of_ne_zero (Nat.ne_of_gt enough)
    rfl
  | @cons c word cs raw stands _ ih =>
    rw [List.length_cons] at enough
    obtain ⟨fuel, rfl⟩ : ∃ less, fuel = less + 1 := ⟨fuel - 1, by omega⟩
    rw [stands.unescape?_append, ih (by omega)]
    rfl

/-- Characters that need no escape are written as they are. -/
theorem of_plain {cs : List Char} (plain : ∀ c ∈ cs, c ≠ '"' ∧ c ≠ '\\' ∧ c ≠ '\r') :
    Forms cs cs := by
  induction cs with
  | nil => exact .nil
  | cons c cs ih =>
    rw [List.forall_mem_cons] at plain
    exact .cons (.plain plain.1.1 plain.1.2.1 plain.1.2.2) (ih plain.2)

theorem textOf?_eq {text : String} (forms : Forms text.toList raw) : textOf? raw = some text := by
  rw [textOf?, forms.unescape?_eq (Nat.lt_succ_of_le forms.length_le)]
  exact congrArg some String.ofList_toList

end Forms

/-- A text is read back from between its quotation marks. -/
theorem textOf?_escapeText (text : String) :
    textOf? (Text.escapeText text.toList) = some text :=
  (Forms.of_escapeText text.toList).textOf?_eq

/-! ### Patterns -/

namespace PatternElement

variable (element : PatternElement)

/-- An element is read back in front of others. -/
theorem pattern?_append (fuel : Nat) (rest : List Char) :
    pattern? (fuel + 1) (element.print ++ rest) =
      (pattern? fuel rest).map fun read => element :: read := by
  cases element with
  | wildcard =>
    rw [print, List.singleton_append, pattern?, if_neg (by decide), if_pos rfl]
    all_goals intros; contradiction
  | char c =>
    rw [print]
    by_cases star : c = '*'
    · rw [if_pos star, star]
      rfl
    · rw [if_neg star]
      exact (stands_escapeChar true c).pattern?_append star fuel rest

theorem passes : Passes element.print := by
  cases element with
  | wildcard => exact .of_plain (List.forall_mem_singleton.mpr (by decide))
  | char c =>
    rw [print]
    split
    · exact .of_escape (by decide)
    · exact (stands_escapeChar true c).passes

theorem noReturn : '\r' ∉ element.print := by
  cases element with
  | wildcard => decide
  | char c =>
    rw [print]
    split
    · decide
    · exact (stands_escapeChar true c).noReturn

theorem print_ne_nil : element.print ≠ [] := by
  cases element with
  | wildcard => exact List.cons_ne_nil _ _
  | char c =>
    rw [print]
    split
    · exact List.cons_ne_nil _ _
    · exact (stands_escapeChar true c).ne_nil

end PatternElement

theorem passes_pattern (pattern : List PatternElement) :
    Passes (pattern.flatMap PatternElement.print) := by
  induction pattern with
  | nil => exact .nil
  | cons element rest ih => exact element.passes.append ih

theorem pattern?_print (pattern : List PatternElement) {fuel : Nat}
    (enough : pattern.length < fuel) :
    pattern? fuel (pattern.flatMap PatternElement.print) = some pattern := by
  induction pattern generalizing fuel with
  | nil =>
    obtain ⟨fuel, rfl⟩ := Nat.exists_eq_succ_of_ne_zero (Nat.ne_of_gt enough)
    rfl
  | cons element rest ih =>
    rw [List.length_cons] at enough
    obtain ⟨fuel, rfl⟩ : ∃ less, fuel = less + 1 := ⟨fuel - 1, by omega⟩
    rw [List.flatMap_cons, element.pattern?_append, ih (by omega)]
    rfl

/-- A pattern is read back from between its quotation marks. -/
theorem patternOf?_print (pattern : List PatternElement) :
    patternOf? (pattern.flatMap PatternElement.print) = some pattern := by
  have bound : pattern.length ≤ (pattern.flatMap PatternElement.print).length := by
    induction pattern with
    | nil => exact Nat.le_refl _
    | cons element rest ih =>
      have nonempty := List.length_pos_iff.mpr element.print_ne_nil
      rw [List.flatMap_cons, List.length_cons, List.length_append]
      omega
  exact pattern?_print pattern (Nat.lt_succ_of_le bound)

end PolicyLedger.Policy
