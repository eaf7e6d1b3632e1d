/-
**Instants to the second.**

What is read, in either form, has less than a second of a fraction and an offset of whole minutes
(`Fields.IsFine`), so a leap second lies at the end of a minute (`Instant.IsOnClock`). What is
written without a fraction has no blanks (`not_mem_rfc3339Seconds`). An instant is read back from it
just if it has no fraction and its year has four digits (`readStrict_rfc3339Seconds_eq_some_iff`).
-/

import PolicyLedger.Proofs.Steps
import PolicyLedger.Proofs.Time.Strict

namespace PolicyLedger.Time

open Steps (Gives)

/-- A number of some digits is below the power of ten with as many zeros. -/
theorem decimalValue_lt {digits : List Char} (all : ∀ c ∈ digits, Text.isDigit c = true) :
    Text.decimalValue digits < 10 ^ digits.length := by
  suffices folded : ∀ sum : Nat,
      digits.foldl (fun sum c => 10 * sum + (c.toNat - 48)) sum < (sum + 1) * 10 ^ digits.length by
    exact (folded 0).trans_eq (by rw [Nat.zero_add, Nat.one_mul])
  induction digits with
  | nil => exact fun sum => Nat.lt_of_lt_of_eq (Nat.lt_succ_self sum) (Nat.mul_one _).symm
  | cons c rest ih =>
    intro sum
    rw [List.forall_mem_cons] at all
    have digit := (Text.toDigits_digit all.1).1
    calc rest.foldl _ (10 * sum + (c.toNat - 48))
        < (10 * sum + (c.toNat - 48) + 1) * 10 ^ rest.length := ih all.2 _
      _ ≤ 10 * (sum + 1) * 10 ^ rest.length := Nat.mul_le_mul_right _ (by omega)
      _ = (sum + 1) * 10 ^ (rest.length + 1) := by
        rw [Nat.pow_succ, Nat.mul_comm 10, Nat.mul_assoc, Nat.mul_comm 10]

/-- The fields have less than a second of a fraction and an offset of whole minutes. -/
structure Fields.IsFine (fields : Fields) : Prop where
  fraction : fields.nanoseconds < Instant.secondNanoseconds
  offset : fields.offset % 60 = 0

namespace Reader

variable {cs : List Char}

theorem fraction?_lt : Gives (· < Instant.secondNanoseconds) (fraction? cs) := by
  rw [fraction?.eq_def]
  split
  · exact .of_some (by decide)
  next c rest =>
    split
    · dsimp only
      split
      · exact .of_none
      · refine .of_some ?_
        generalize counted : (rest.takeWhile Text.isDigit).take 9 = digits
        have digit : ∀ c ∈ digits, Text.isDigit c = true := fun c inside =>
          List.all_eq_true.mp List.all_takeWhile c (List.mem_of_mem_take (counted ▸ inside))
        have short : digits.length ≤ 9 := counted ▸ List.length_take_le _ _
        calc Text.decimalValue digits * 10 ^ (9 - digits.length)
            < 10 ^ digits.length * 10 ^ (9 - digits.length) :=
              Nat.mul_lt_mul_of_pos_right (decimalValue_lt digit) (Nat.pow_pos (by decide))
          _ = 10 ^ 9 := by rw [← Nat.pow_add, Nat.add_sub_cancel' short]
          _ = Instant.secondNanoseconds := rfl
    · exact .of_some (by decide)

/-- An offset is a number of minutes. -/
theorem offset?_minutes {between : List Char → Option (List Char)} :
    Gives (fun offset : Int => offset % 60 = 0) (offset? between cs) := by
  rw [offset?.eq_def]
  split
  · exact .of_none
  · split
    · exact .of_some rfl
    · dsimp only
      split
      next sign hours _ _ _ =>
        split
        next minutes _ _ =>
          split
          · refine .of_some ?_
            have whole : sign * ((hours : Int) * 3600 + (minutes : Int) * 60) =
                60 * (sign * ((hours : Int) * 60 + minutes)) := by
              rw [Int.mul_left_comm]
              congr 1
              omega
            rw [whole]
            exact Int.mul_emod_right _ _
          · exact .of_none
        · exact .of_none
      · exact .of_none

theorem looseOffset?_minutes : Gives (fun offset : Int => offset % 60 = 0) (looseOffset? cs) := by
  rw [looseOffset?]
  split
  · exact .of_some rfl
  · exact offset?_minutes

theorem isFine_strict? : Gives Fields.IsFine (strict? cs) := by
  rw [strict?]
  -- only the fraction and the offset, which are read last, matter
  refine .past fun _ _ => .after fun _ => .past fun _ _ => .after fun _ => .past fun _ _ =>
    .after fun _ => .past fun _ _ => .after fun _ => .past fun _ _ => .after fun _ =>
    .past fun _ _ => .bind fraction?_lt fun _ _ fraction =>
    .bind offset?_minutes fun _ _ offset => .of_some ⟨fraction, offset⟩

theorem isFine_lenient? : Gives Fields.IsFine (lenient? cs) := by
  rw [lenient?]
  refine .past fun _ _ => .after fun _ => .past fun _ _ => .after fun _ => .past fun _ _ =>
    .after fun _ => .past fun _ _ => .after fun _ => .past fun _ _ => .after fun _ =>
    .past fun _ _ => .bind fraction?_lt fun _ _ fraction =>
    .bind looseOffset?_minutes fun _ _ offset => .of_some ⟨fraction, offset⟩

end Reader

namespace Instant

/-- A fraction of a second or more belongs to a leap second at the end of a minute. -/
def IsOnClock (instant : Instant) : Prop :=
  instant.nanoseconds < secondNanoseconds ∨ instant.seconds % 60 = 59

/-- The second of an instant is the one that its fields denote, and second 60 counts as a leap
second after second 59. -/
theorem eq_of_toInstant? {fields : Fields} {instant : Instant}
    (found : fields.toInstant? = some instant) :
    instant.seconds = fields.date.toDays * daySeconds + fields.hour * 3600 + fields.minute * 60 +
        (if fields.second = 60 then 59 else fields.second : Int) - fields.offset ∧
      instant.nanoseconds =
        fields.nanoseconds + if fields.second = 60 then secondNanoseconds else 0 := by
  simp only [Fields.toInstant?, Option.ite_none_right_eq_some] at found
  obtain ⟨_, _, same⟩ := found
  obtain rfl := Option.some.inj same
  exact ⟨rfl, rfl⟩

/-- Fields that are fine denote an instant on the clock. -/
theorem isOnClock_of_toInstant? {fields : Fields} {instant : Instant} (fine : fields.IsFine)
    (found : fields.toInstant? = some instant) : instant.IsOnClock := by
  obtain ⟨seconds, nanoseconds⟩ := eq_of_toInstant? found
  have offset := fine.offset
  by_cases leap : fields.second = 60
  · rw [if_pos leap, daySeconds] at seconds
    exact .inr (by omega)
  · rw [if_neg leap] at nanoseconds
    exact .inl (nanoseconds.trans_lt fine.fraction)

theorem isOnClock_of_readStrict {cs : List Char} {instant : Instant}
    (read : readStrict cs = some instant) : instant.IsOnClock := by
  rw [readStrict] at read
  split at read
  next fields found => exact isOnClock_of_toInstant? (Reader.isFine_strict? _ found) read
  · cases read

theorem isOnClock_of_readLenient {cs : List Char} {instant : Instant}
    (read : readLenient cs = some instant) : instant.IsOnClock := by
  rw [readLenient] at read
  split at read
  next fields rest found =>
    split at read
    · exact isOnClock_of_toInstant? (Reader.isFine_lenient? _ found) read
    · cases read
  · cases read

theorem IsWhole.isOnClock {instant : Instant} (whole : instant.IsWhole) : instant.IsOnClock :=
  whole.imp (fun zero => zero.trans_lt (by decide)) And.right

/-- On the clock, a second without a fraction is told by its nanoseconds. -/
theorem isWhole_iff {instant : Instant} (onClock : instant.IsOnClock) :
    instant.IsWhole ↔ instant.nanoseconds = 0 ∨ instant.nanoseconds = secondNanoseconds := by
  refine or_congr_right ⟨And.left, fun leap => ⟨leap, ?_⟩⟩
  exact onClock.resolve_left (leap ▸ Nat.lt_irrefl _)

/-! ### Seconds that are read back -/

/-- No other characters are written than digits and a few marks. -/
theorem not_mem_rfc3339Seconds (instant : Instant) {c : Char} (other : Text.isDigit c = false)
    (marks : c ∉ ['+', '-', ':', 'T', 'Z']) : c ∉ instant.rfc3339Seconds := by
  have digits : ∀ {width value}, c ∉ padded width value := fun inside => by
    rw [isDigit_of_mem_padded inside] at other
    cases other
  have year : c ∉ yearDigits instant.date.year := by
    rw [yearDigits]
    split
    · exact digits
    · rw [List.mem_cons, not_or]
      refine ⟨?_, digits⟩
      split <;> rintro rfl <;> exact marks (by decide)
  simp only [List.mem_cons, not_or] at marks
  simp [rfc3339Seconds, dateDigits, clockDigits, year, digits, marks]

/-- A year that four digits do not suffice for has a sign, which is not read. -/
theorem readStrict_of_sign {instant : Instant}
    (year : ¬ (0 ≤ instant.year ∧ instant.year ≤ 9999)) :
    readStrict instant.rfc3339Seconds = none := by
  obtain ⟨sign, rest, begins, other⟩ : ∃ sign rest,
      instant.rfc3339Seconds = sign :: rest ∧ Text.isDigit sign = false := by
    have date : ¬ (0 ≤ instant.date.year ∧ instant.date.year ≤ 9999) := year
    rw [rfc3339Seconds, dateDigits, yearDigits]
    rw [if_neg date]
    exact ⟨_, _, rfl, by split <;> rfl⟩
  have unread : Text.fixedNumber? 4 (sign :: rest) = none := by
    simp [Text.fixedNumber?, other]
  rw [readStrict, begins, Reader.strict?, unread]
  rfl

/-- The instant that is read back has a whole second. -/
theorem isWhole_of_readStrict {instant : Instant}
    (year : 0 ≤ instant.year ∧ instant.year ≤ 9999)
    (read : readStrict instant.rfc3339Seconds = some instant) : instant.IsWhole := by
  rw [readStrict, strict?_rfc3339Seconds year] at read
  obtain ⟨_, nanoseconds⟩ := eq_of_toInstant? read
  have time : (instant.secondOfDay : Int) = instant.seconds % daySeconds :=
    Int.toNat_of_nonneg (Int.emod_nonneg _ (by decide))
  have second : instant.secondOfDay % 60 < 60 := Nat.mod_lt _ (by decide)
  dsimp only at nanoseconds
  rw [Nat.zero_add] at nanoseconds
  by_cases early : instant.nanoseconds < secondNanoseconds
  · rw [if_pos early, Nat.add_zero, if_neg (Nat.ne_of_lt second)] at nanoseconds
    exact .inl nanoseconds
  · -- second 60 is written for a fraction of a second or more after second 59 only
    rw [if_neg early] at nanoseconds
    by_cases final : instant.secondOfDay % 60 + 1 = 60
    · rw [if_pos final] at nanoseconds
      rw [daySeconds] at time
      exact .inr ⟨nanoseconds, by omega⟩
    · rw [if_neg final] at nanoseconds
      exact .inl nanoseconds

/-- **An instant is read back** just if it has no fraction and its year has four digits. -/
theorem readStrict_rfc3339Seconds_eq_some_iff {instant : Instant} :
    readStrict instant.rfc3339Seconds = some instant ↔
      instant.IsWhole ∧ 0 ≤ instant.year ∧ instant.year ≤ 9999 := by
  constructor
  · intro read
    have year : 0 ≤ instant.year ∧ instant.year ≤ 9999 := by
      by_contra out
      rw [readStrict_of_sign out] at read
      cases read
    exact ⟨isWhole_of_readStrict year read, year⟩
  · exact fun ⟨whole, year⟩ => readStrict_rfc3339Seconds whole year

end Instant
end PolicyLedger.Time
