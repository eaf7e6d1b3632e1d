/-
**Instants that are written and read.**

A number below a power of ten is read back from as many digits (`fixedNumber?_padded`), so the fields
of a date and a time are read back (`strict?_fields`). They denote the instant again if it has no
fraction and its year has four digits (`readStrict_rfc3339Seconds`).
-/

import PolicyLedger.Proofs.Text.Digit
import PolicyLedger.Proofs.Time.Calendar
import PolicyLedger.Time.Reader

namespace PolicyLedger.Time

/-! ### Numbers -/

theorem length_padded {width value : Nat} (positive : 0 < width) (fits : value < 10 ^ width) :
    (Instant.padded width value).length = width := by
  have short : (Nat.toDigits 10 value).length ≤ width :=
    (Nat.length_toDigits_le_iff (by decide) positive).mpr fits
  rw [Instant.padded, List.length_append, List.length_replicate]
  omega

theorem decimalValue_zeros (count : Nat) (digits : List Char) :
    Text.decimalValue (List.replicate count '0' ++ digits) = Text.decimalValue digits := by
  induction count with
  | zero => rfl
  | succ count ih => exact ih

theorem decimalValue_padded (width value : Nat) :
    Text.decimalValue (Instant.padded width value) = value := by
  rw [Instant.padded, decimalValue_zeros, Text.decimalValue_toDigits]

theorem isDigit_of_mem_padded {width value : Nat} {c : Char}
    (inside : c ∈ Instant.padded width value) : Text.isDigit c = true := by
  obtain zero | digit := List.mem_append.mp inside
  · obtain rfl := (List.mem_replicate.mp zero).2
    rfl
  · exact Text.isDigit_of_mem_toDigits digit

/-- A number is read back from the digits that fill a width. -/
theorem fixedNumber?_padded {width value : Nat} (positive : 0 < width) (fits : value < 10 ^ width)
    (rest : List Char) :
    Text.fixedNumber? width (Instant.padded width value ++ rest) = some (value, rest) := by
  have length := length_padded positive fits
  have taken : (Instant.padded width value ++ rest).take width = Instant.padded width value :=
    List.take_left' length
  have digits : (Instant.padded width value).all Text.isDigit = true :=
    List.all_eq_true.mpr fun c inside => isDigit_of_mem_padded inside
  have dropped : (Instant.padded width value ++ rest).drop width = rest :=
    List.drop_left' length
  rw [Text.fixedNumber?]
  simp only [taken, dropped]
  rw [if_pos ⟨length, digits⟩, decimalValue_padded]

/-! ### Fields -/

/-- The fields of a date and a time are read back. -/
theorem strict?_fields {year month day hour minute second : Nat} (inYear : year < 10000)
    (inMonth : month < 100) (inDay : day < 100) (inHour : hour < 100) (inMinute : minute < 100)
    (inSecond : second < 100) :
    Reader.strict? (Instant.padded 4 year ++ '-' :: (Instant.padded 2 month ++
      '-' :: (Instant.padded 2 day ++ 'T' :: (Instant.padded 2 hour ++
      ':' :: (Instant.padded 2 minute ++ ':' :: (Instant.padded 2 second ++ ['Z'])))))) =
      some (⟨⟨year, month, day⟩, hour, minute, second, 0, 0⟩, []) := by
  have dash : ∀ rest, Text.after? '-' ('-' :: rest) = some rest := fun _ => rfl
  have colon : ∀ rest, Text.after? ':' (':' :: rest) = some rest := fun _ => rfl
  have mark : ∀ rest, Reader.afterDate? ('T' :: rest) = some rest := fun _ => rfl
  have noFraction : Reader.fraction? ['Z'] = some (0, ['Z']) := rfl
  have noOffset : Reader.offset? (Text.after? ':') ['Z'] = some (0, []) := rfl
  simp only [Reader.strict?, bind, Option.bind, pure,
    fixedNumber?_padded (show 0 < 4 by decide) inYear,
    fixedNumber?_padded (show 0 < 2 by decide) inMonth,
    fixedNumber?_padded (show 0 < 2 by decide) inDay,
    fixedNumber?_padded (show 0 < 2 by decide) inHour,
    fixedNumber?_padded (show 0 < 2 by decide) inMinute,
    fixedNumber?_padded (show 0 < 2 by decide) inSecond, dash, colon, mark, noFraction, noOffset]

/-! ### Instants -/

namespace Instant

/-- An instant has no fraction, or it is the beginning of a leap second at the end of a minute. -/
def IsWhole (instant : Instant) : Prop :=
  instant.nanoseconds = 0 ∨
    instant.nanoseconds = secondNanoseconds ∧ instant.seconds % 60 = 59

/-- The months and the days of the calendar have two digits at most. -/
theorem digits_of_isValid {date : Date} (valid : date.isValid = true) :
    date.month < 100 ∧ date.day < 100 := by
  rw [Date.isValid, Bool.and_eq_true, decide_eq_true_eq, decide_eq_true_eq] at valid
  obtain ⟨first, last⟩ := valid
  rw [Date.monthLength] at last
  split at last
  · split at last <;> omega
  · split at last
    · omega
    · split at last <;> omega

/-- What is written for an instant in a year of four digits. -/
theorem rfc3339Seconds_eq {instant : Instant} (year : 0 ≤ instant.year ∧ instant.year ≤ 9999) :
    instant.rfc3339Seconds = padded 4 instant.year.toNat ++ '-' :: (padded 2 instant.date.month ++
      '-' :: (padded 2 instant.date.day ++ 'T' :: (padded 2 (instant.secondOfDay / 3600) ++
      ':' :: (padded 2 (instant.secondOfDay / 60 % 60) ++ ':' :: (padded 2 (instant.secondOfDay % 60 +
        if instant.nanoseconds < secondNanoseconds then 0 else 1) ++ ['Z']))))) := by
  have ofDate : 0 ≤ instant.date.year ∧ instant.date.year ≤ 9999 := year
  rw [rfc3339Seconds, dateDigits, clockDigits, yearDigits]
  simp only [if_pos ofDate, List.append_assoc, List.cons_append]
  rfl

/-- The time of the day, with the day, is the instant. -/
theorem seconds_eq (instant : Instant) :
    instant.date.toDays * daySeconds + (instant.secondOfDay / 3600 : Nat) * 3600 +
      (instant.secondOfDay / 60 % 60 : Nat) * 60 + (instant.secondOfDay % 60 : Nat) =
      instant.seconds := by
  have day : instant.date.toDays = instant.seconds / daySeconds := Date.toDays_ofDays _
  have time : (instant.secondOfDay : Int) = instant.seconds % daySeconds :=
    Int.toNat_of_nonneg (Int.emod_nonneg _ (by decide))
  rw [day]
  simp only [daySeconds] at time ⊢
  omega

theorem secondOfDay_lt (instant : Instant) : instant.secondOfDay < 86400 := by
  have time : (instant.secondOfDay : Int) = instant.seconds % daySeconds :=
    Int.toNat_of_nonneg (Int.emod_nonneg _ (by decide))
  have below : instant.seconds % daySeconds < daySeconds := Int.emod_lt_of_pos _ (by decide)
  rw [daySeconds] at time below
  omega

/-- Fields in their ranges, in universal time, denote an instant. -/
theorem toInstant?_eq {date : Date} {hour minute second : Nat}
    (inUse : Fields.isYear date.year = true) (valid : date.isValid = true) (inHour : hour < 24)
    (inMinute : minute < 60) (inSecond : second ≤ 60) {instant : Instant}
    (made : instant = ⟨date.toDays * daySeconds + hour * 3600 + minute * 60 +
      (if second = 60 then 59 else second : Int), if second = 60 then secondNanoseconds else 0⟩)
    (again : Fields.isYear instant.year = true) :
    Fields.toInstant? ⟨date, hour, minute, second, 0, 0⟩ = some instant := by
  rw [Fields.toInstant?]
  simp only [inUse, valid, inHour, inMinute, inSecond, decide_true, Bool.and_true, Bool.true_and,
    Int.natAbs_zero]
  rw [if_pos (by simp)]
  simp only [Int.sub_zero, Nat.zero_add, ← made, again, if_true]

/-- The fields of an instant denote it. -/
theorem toInstant?_fields {instant : Instant} (whole : instant.IsWhole)
    (year : 0 ≤ instant.year ∧ instant.year ≤ 9999) :
    Fields.toInstant? ⟨instant.date, instant.secondOfDay / 3600, instant.secondOfDay / 60 % 60,
      instant.secondOfDay % 60 + (if instant.nanoseconds < secondNanoseconds then 0 else 1), 0, 0⟩ =
      some instant := by
  have valid : instant.date.isValid = true := Date.isValid_ofDays (instant.seconds / daySeconds)
  have inUse : Fields.isYear instant.year = true := by
    rw [Fields.isYear, Bool.and_eq_true, decide_eq_true_eq, decide_eq_true_eq, Fields.firstYear,
      Fields.lastYear]
    omega
  have below := instant.secondOfDay_lt
  have seconds := instant.seconds_eq
  refine toInstant?_eq inUse valid (by omega) (by omega) (by split <;> omega) ?_ inUse
  obtain unchanged | ⟨leap, last⟩ := whole
  · have early : instant.nanoseconds < secondNanoseconds := unchanged ▸ by decide
    rw [if_pos early, Nat.add_zero, if_neg (by omega), if_neg (by omega)]
    exact congrArg₂ Instant.mk seconds.symm unchanged
  · -- second 60 stands for the leap second after second 59
    have late : ¬ instant.nanoseconds < secondNanoseconds := by omega
    have final : instant.secondOfDay % 60 = 59 := by
      have time : (instant.secondOfDay : Int) = instant.seconds % daySeconds :=
        Int.toNat_of_nonneg (Int.emod_nonneg _ (by decide))
      rw [daySeconds] at time
      omega
    rw [final] at seconds ⊢
    rw [if_neg late, if_pos (by decide), if_pos (by decide)]
    exact congrArg₂ Instant.mk seconds.symm leap

/-- The fields that an instant in a year of four digits is written with are read. -/
theorem strict?_rfc3339Seconds {instant : Instant}
    (year : 0 ≤ instant.year ∧ instant.year ≤ 9999) :
    Reader.strict? instant.rfc3339Seconds = some (⟨instant.date, instant.secondOfDay / 3600,
      instant.secondOfDay / 60 % 60, instant.secondOfDay % 60 +
        (if instant.nanoseconds < secondNanoseconds then 0 else 1), 0, 0⟩, []) := by
  have inMonth := digits_of_isValid (Date.isValid_ofDays (instant.seconds / daySeconds))
  have below := instant.secondOfDay_lt
  have ofDate : (instant.year.toNat : Int) = instant.date.year := Int.toNat_of_nonneg year.1
  have read := @strict?_fields instant.year.toNat instant.date.month instant.date.day
    (instant.secondOfDay / 3600) (instant.secondOfDay / 60 % 60) (instant.secondOfDay % 60 +
      if instant.nanoseconds < secondNanoseconds then 0 else 1) (by omega) inMonth.1 inMonth.2
    (by omega) (by omega) (by split <;> omega)
  rw [rfc3339Seconds_eq year, read, ofDate]

/-- **An instant without a fraction is read back** if its year has four digits. -/
theorem readStrict_rfc3339Seconds {instant : Instant} (whole : instant.IsWhole)
    (year : 0 ≤ instant.year ∧ instant.year ≤ 9999) :
    readStrict instant.rfc3339Seconds = some instant := by
  rw [readStrict, strict?_rfc3339Seconds year]
  exact toInstant?_fields whole year

end Instant

end PolicyLedger.Time
