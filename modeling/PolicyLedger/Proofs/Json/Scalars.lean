/-
**Texts and numbers that were written.**

What the writer makes of a text or of a whole number is read back: escaped characters one by one
(`chars_escape`), and digits as long as no number goes on after them (`number?_intDigits`). In
written values a comma or a closing bracket or brace follows, or nothing (`Closes`), and there may
be space before it (`EndsNumber.of_space`).
-/

import PolicyLedger.Json.Reader
import PolicyLedger.Json.Writer
import PolicyLedger.Proofs.Text.Digit

namespace PolicyLedger.Json.Reader

/-! ### Texts -/

/-- A malformed number makes an escape malformed, whatever follows. -/
theorem chars_unit_none {a b c d : Char} (unread : unit? a b c d = none) (rest : List Char) :
    chars ('\\' :: 'u' :: a :: b :: c :: d :: rest) = none := by
  by_cases more : ∃ e f g h after, rest = '\\' :: 'u' :: e :: f :: g :: h :: after
  · obtain ⟨e, f, g, h, after, rfl⟩ := more
    rw [chars, unread]
  · rw [chars, unread]
    exact fun e f g h after same => more ⟨e, f, g, h, after, same⟩

theorem chars_unit {a b c d : Char} {unit : Nat} (read : unit? a b c d = some unit)
    (high : isHigh unit = false) (low : isLow unit = false) (rest : List Char) :
    chars ('\\' :: 'u' :: a :: b :: c :: d :: rest) = before (Char.ofNat unit) (chars rest) := by
  by_cases more : ∃ e f g h after, rest = '\\' :: 'u' :: e :: f :: g :: h :: after
  · obtain ⟨e, f, g, h, after, rfl⟩ := more
    rw [chars, read]
    cases second : unit? e f g h with
    | none => rw [chars_unit_none second, before]
    | some next => simp only [high, low, Bool.false_eq_true, if_false]
  · rw [chars, read]
    · simp only [high, low, Bool.or_self, Bool.false_eq_true, if_false]
    · exact fun e f g h after same => more ⟨e, f, g, h, after, same⟩

theorem chars_short {c meant : Char} (short : shortEscape? c = some meant) (rest : List Char) :
    chars ('\\' :: c :: rest) = before meant (chars rest) := by
  have other : c ≠ 'u' := by
    rintro rfl
    cases short
  rw [chars, short]
  all_goals intros; contradiction

theorem unit?_byte {code : Nat} (small : code < 256) :
    unit? '0' '0' (Text.hexDigit (code / 16)) (Text.hexDigit (code % 16)) = some code := by
  have zero : Text.hexValue? '0' = some 0 := rfl
  have high := Text.hexValue?_hexDigit (show code / 16 < 16 by omega)
  have low := Text.hexValue?_hexDigit (show code % 16 < 16 by omega)
  simp [unit?, Text.hexNumber?, zero, high, low]
  omega

/-- An escaped character is read back. -/
theorem chars_escape (c : Char) (rest : List Char) :
    chars (escape c ++ rest) = before c (chars rest) := by
  rw [escape]
  iterate 7 (split; next same => rw [same]; exact chars_short rfl rest)
  split
  next control =>
    have whole := chars_unit (unit?_byte (show c.toNat < 256 by omega)) (by simp [isHigh]; omega)
      (by simp [isLow]; omega) rest
    rw [Char.ofNat_toNat] at whole
    exact whole
  next printed => exact chars_plain (by assumption) (by assumption) printed rest

/-- A written text is read back. -/
theorem chars_escapes (cs rest : List Char) :
    chars (cs.flatMap escape ++ '"' :: rest) = some (cs, rest) := by
  induction cs with
  | nil =>
    show chars ('"' :: rest) = _
    rw [chars, if_pos rfl]
    all_goals intros; contradiction
  | cons c cs ih => rw [List.flatMap_cons, List.append_assoc, chars_escape, ih, before]

/-! ### Numbers -/

/-- A row of characters after which no number goes on. -/
def Closes (rest : List Char) : Prop :=
  ∀ c, rest.head? = some c → c = ',' ∨ c = ']' ∨ c = '\x7d'

/-- A row of characters whose first one belongs to no number. -/
def EndsNumber (rest : List Char) : Prop :=
  ∀ c, rest.head? = some c → Text.isDigit c = false ∧ c ≠ '.' ∧ c ≠ 'e' ∧ c ≠ 'E'

theorem Closes.endsNumber {rest : List Char} (closes : Closes rest) : EndsNumber rest := by
  intro c first
  obtain rfl | rfl | rfl := closes c first <;> decide

/-- Space belongs to no number. -/
theorem EndsNumber.of_space {space rest : List Char} (blank : ∀ c ∈ space, isSpace c = true)
    (ends : EndsNumber rest) : EndsNumber (space ++ rest) := by
  cases space with
  | nil => exact ends
  | cons c space =>
    intro first same
    obtain rfl := Option.some.inj same
    have spaced := blank c List.mem_cons_self
    simp only [isSpace, Bool.or_eq_true, beq_iff_eq] at spaced
    obtain ((rfl | rfl) | rfl) | rfl := spaced <;> decide

theorem le_ofDigitChars (cs : List Char) (value : Nat) : value ≤ Nat.ofDigitChars 10 cs value := by
  induction cs generalizing value with
  | nil => exact Nat.le_of_eq Nat.ofDigitChars_nil.symm
  | cons c cs ih =>
    rw [Nat.ofDigitChars_cons]
    exact Nat.le_trans (by omega) (ih _)

theorem wholeDigits_eq {cs : List Char} {value : Nat}
    (fits : Nat.ofDigitChars 10 cs value ≤ maxSignificand) :
    wholeDigits ⟨value, 0⟩ cs = ⟨Nat.ofDigitChars 10 cs value, 0⟩ := by
  induction cs generalizing value with
  | nil => rw [wholeDigits, Nat.ofDigitChars_nil]
  | cons c cs ih =>
    rw [Nat.ofDigitChars_cons] at fits ⊢
    have next : value * 10 + (c.toNat - 48) = 10 * value + (c.toNat - '0'.toNat) := by
      rw [Nat.mul_comm]
      rfl
    have below := Nat.le_trans (le_ofDigitChars cs _) fits
    rw [wholeDigits, next, if_neg (Nat.not_lt.mpr below), ih fits]

theorem fraction?_of_ends (scaled : Scaled) {rest : List Char} (ends : EndsNumber rest) :
    fraction? scaled rest = some (scaled, false, rest) := by
  rw [fraction?]
  rintro after rfl
  exact (ends '.' rfl).2.1 rfl

theorem exponent?_of_ends (scaled : Scaled) {rest : List Char} (ends : EndsNumber rest) :
    exponent? scaled rest = some (scaled, false, rest) := by
  cases rest with
  | nil => rfl
  | cons c rest =>
    have other : ¬(c = 'e' ∨ c = 'E') := not_or.mpr (ends c rfl).2.2
    simp only [exponent?, if_neg other]

theorem digits_append {n : Nat} {rest : List Char} (ends : EndsNumber rest) :
    (Nat.toDigits 10 n ++ rest).takeWhile Text.isDigit = Nat.toDigits 10 n ∧
      (Nat.toDigits 10 n ++ rest).dropWhile Text.isDigit = rest := by
  have all : ∀ c ∈ Nat.toDigits 10 n, Text.isDigit c = true := fun _ => Text.isDigit_of_mem_toDigits
  have stop : rest.takeWhile Text.isDigit = [] ∧ rest.dropWhile Text.isDigit = rest := by
    cases rest with
    | nil => exact ⟨rfl, rfl⟩
    | cons c rest =>
      have other : Text.isDigit c = false := (ends c rfl).1
      rw [List.takeWhile_cons_of_neg (by simp [other]),
        List.dropWhile_cons_of_neg (by simp [other])]
      exact ⟨rfl, rfl⟩
  rw [List.takeWhile_append_of_pos all, List.dropWhile_append_of_pos all, stop.1, stop.2,
    List.append_nil]
  exact ⟨rfl, rfl⟩

/-- Written digits are read back as a number with a sign. -/
theorem unsigned?_toDigits {negative : Bool} {n : Nat} (small : n ≤ maxSignificand)
    (proper : negative = true → n ≠ 0)
    (fits : FitsWhole (if negative then -(n : Int) else n)) {rest : List Char}
    (ends : EndsNumber rest) :
    unsigned? negative (Nat.toDigits 10 n ++ rest) =
      some (.whole (if negative then -(n : Int) else n) fits, rest) := by
  obtain ⟨taken, dropped⟩ := @digits_append n rest ends
  have led : ((Nat.toDigits 10 n).isEmpty || ((Nat.toDigits 10 n).head? == some '0' &&
      decide (1 < (Nat.toDigits 10 n).length))) = false := by
    rw [Bool.or_eq_false_iff, List.isEmpty_eq_false_iff]
    refine ⟨Nat.toDigits_ne_nil, ?_⟩
    obtain rfl | positive := Nat.eq_zero_or_pos n
    · rfl
    · simp [Text.head?_toDigits positive]
  have value := Nat.ofDigitChars_ten_toDigits ▸ @wholeDigits_eq (Nat.toDigits 10 n) 0
    (by rw [Nat.ofDigitChars_ten_toDigits]; exact small)
  have signed : (negative && n == 0) = false := by
    cases negative with
    | false => rfl
    | true => simpa using proper rfl
  rw [unsigned?]
  simp only [taken, dropped, led, value, fraction?_of_ends _ ends,
    exponent?_of_ends _ ends, finish?, signed, fits, bind, Option.bind, pure]
  rfl

/-- A written whole number is read back. -/
theorem number?_intDigits {value : Int} (fits : FitsWhole value) {rest : List Char}
    (ends : EndsNumber rest) :
    number? (Text.intDigits value ++ rest) = some (.whole value fits, rest) := by
  have low := fits.1
  have high := fits.2
  rw [Text.intDigits]
  by_cases negative : value < 0
  · rw [if_pos negative]
    show unsigned? true (Nat.toDigits 10 value.natAbs ++ rest) = _
    have same : -(value.natAbs : Int) = value := by omega
    rw [@unsigned?_toDigits true value.natAbs (by rw [maxSignificand]; omega) (by omega)
      (by rw [if_pos rfl, same]; exact fits) rest ends]
    simp only [if_true, same]
  · rw [if_neg negative, List.nil_append]
    have same : (value.natAbs : Int) = value := by omega
    have unsigned : number? (Nat.toDigits 10 value.natAbs ++ rest) =
        unsigned? false (Nat.toDigits 10 value.natAbs ++ rest) := by
      rw [number?]
      intro after minus
      have first : '-' ∈ Nat.toDigits 10 value.natAbs := by
        cases digits : Nat.toDigits 10 value.natAbs with
        | nil => exact absurd digits Nat.toDigits_ne_nil
        | cons c cs =>
          rw [digits, List.cons_append] at minus
          exact (List.cons.inj minus).1 ▸ List.mem_cons_self
      exact absurd (Text.isDigit_of_mem_toDigits first) (by decide)
    rw [unsigned, @unsigned?_toDigits false value.natAbs (by rw [maxSignificand]; omega) nofun
      (by rw [if_neg (by decide), same]; exact fits) rest ends]
    simp only [Bool.false_eq_true, if_false, same]

end PolicyLedger.Json.Reader
