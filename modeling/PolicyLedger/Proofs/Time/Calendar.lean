/-
**Days and dates.**

An era has four centuries, a century 25 times four years, and each row ends with the century or the
year that may be a day longer. So a day of an era has a place: its century, its four years, its year
and the day in it (`exists_place`). `Date.ofDays` finds this place (`Place.yearOfEra_eq`); hence the
date of a number is a date of the calendar (`isValid_ofDays`), and its number is the one it was made
of (`toDays_ofDays`).
-/

import Mathlib.Tactic.IntervalCases
import PolicyLedger.Time.Calendar

namespace PolicyLedger.Time.Date

/-- The place of a day in an era. The last year of four years has a leap day, but the last year of
a century has one in the last century only. -/
structure Place where
  century : Int
  fours : Int
  year : Int
  day : Int
  inEra : 0 ≤ century ∧ century ≤ 3
  inCentury : 0 ≤ fours ∧ fours ≤ 24
  inFours : 0 ≤ year ∧ year ≤ 3
  inYear : 0 ≤ day ∧ day ≤ 365
  leap : day = 365 → year = 3 ∧ (fours = 24 → century = 3)

namespace Place

/-- The number of the day in the era. -/
def dayOfEra (place : Place) : Int :=
  36524 * place.century + 1461 * place.fours + 365 * place.year + place.day

/-- The year in the era. -/
def yearOfEra (place : Place) : Int := 100 * place.century + 4 * place.fours + place.year

/-- The year is found from the number of the day. -/
theorem yearOfEra_eq (place : Place) :
    (place.dayOfEra - place.dayOfEra / 1460 + place.dayOfEra / 36524 - place.dayOfEra / 146096) /
      365 = place.yearOfEra := by
  obtain ⟨century, fours, year, day, inEra, inCentury, inFours, inYear, leap⟩ := place
  simp only [dayOfEra, yearOfEra]
  generalize number : 36524 * century + 1461 * fours + 365 * year + day = days
  -- the last day of the era is alone in a fifth century and in a second era
  have lastDay : days / 36524 - days / 146096 = century := by
    by_cases last : days = 146096
    · omega
    · have whole : days / 36524 = century := by omega
      omega
  have fourYears : days / 1460 =
      25 * century + fours + (24 * century + fours + 365 * year + day) / 1460 := by omega
  have inside : 0 ≤ day - (24 * century + fours + 365 * year + day) / 1460 ∧
      day - (24 * century + fours + 365 * year + day) / 1460 ≤ 364 := by omega
  omega

/-- The days before the year are those of whole years, with a leap day for each four years but not
for a century. -/
theorem day_eq (place : Place) :
    place.dayOfEra - (365 * place.yearOfEra + place.yearOfEra / 4 - place.yearOfEra / 100) =
      place.day := by
  obtain ⟨century, fours, year, day, inEra, inCentury, inFours, inYear, leap⟩ := place
  simp only [dayOfEra, yearOfEra]
  omega

theorem yearOfEra_range (place : Place) : 0 ≤ place.yearOfEra ∧ place.yearOfEra ≤ 399 := by
  obtain ⟨century, fours, year, day, inEra, inCentury, inFours, inYear, leap⟩ := place
  simp only [yearOfEra]
  omega

end Place

/-- Every day of an era has a place. -/
theorem exists_place {dayOfEra : Int} (low : 0 ≤ dayOfEra) (high : dayOfEra < eraDays) :
    ∃ place : Place, place.dayOfEra = dayOfEra := by
  rw [eraDays] at high
  by_cases last : dayOfEra = 146096
  · exact ⟨⟨3, 24, 3, 365, by omega, by omega, by omega, by omega, by omega⟩, by
      simp only [Place.dayOfEra]
      omega⟩
  · by_cases leap : dayOfEra % 36524 % 1461 = 1460
    · exact ⟨⟨dayOfEra / 36524, dayOfEra % 36524 / 1461, 3, 365, by omega, by omega, by omega,
        by omega, by omega⟩, by
        simp only [Place.dayOfEra]
        omega⟩
    · exact ⟨⟨dayOfEra / 36524, dayOfEra % 36524 / 1461, dayOfEra % 36524 % 1461 / 365,
        dayOfEra % 36524 % 1461 % 365, by omega, by omega, by omega, by omega, by omega⟩, by
        simp only [Place.dayOfEra]
        omega⟩

/-- A month of a year that begins in March. -/
structure MarchMonth where
  index : Int
  inYear : 0 ≤ index ∧ index ≤ 11

namespace MarchMonth

/-- The number of the month in a year that begins in January. -/
def number (month : MarchMonth) : Nat :=
  (if month.index < 10 then month.index + 3 else month.index - 9).toNat

/-- The number of days before the month. -/
def daysBefore (month : MarchMonth) : Int := (153 * month.index + 2) / 5

theorem number_eq (month : MarchMonth) :
    (month.number : Int) = if month.index < 10 then month.index + 3 else month.index - 9 := by
  have inYear := month.inYear
  rw [number, Int.toNat_of_nonneg]
  split <;> omega

end MarchMonth

/-- A date, its year counted from March. -/
def ofMarchYear (year : Int) (month : MarchMonth) (day : Nat) : Date :=
  ⟨if month.index < 10 then year else year + 1, month.number, day⟩

/-- The number of a date whose year is counted from March. -/
theorem toDays_ofMarchYear (era yearOfEra : Int) (inEra : 0 ≤ yearOfEra ∧ yearOfEra ≤ 399)
    (month : MarchMonth) (day : Nat) :
    (ofMarchYear (yearOfEra + era * 400) month day).toDays =
      era * eraDays + yearOfEra * 365 + yearOfEra / 4 - yearOfEra / 100 +
        (month.daysBefore + day - 1) - epochDay := by
  have inYear := month.inYear
  have sameEra : (yearOfEra + era * 400) / 400 = era := by omega
  have rest : yearOfEra + era * 400 - era * 400 = yearOfEra := by omega
  rw [ofMarchYear, toDays, MarchMonth.daysBefore]
  simp only [month.number_eq]
  by_cases spring : month.index < 10
  · have index : month.index + 3 - 3 = month.index := by omega
    rw [if_pos spring, if_pos spring, if_neg (by omega), if_neg (by omega), sameEra, rest, index]
  · have index : month.index - 9 + 9 = month.index := by omega
    have year : yearOfEra + era * 400 + 1 - 1 = yearOfEra + era * 400 := by omega
    rw [if_neg spring, if_neg spring, if_pos (by omega), if_pos (by omega), year, sameEra, rest,
      index]

/-- The month that a day of a year lies in. -/
def monthOf (day : Int) (inYear : 0 ≤ day ∧ day ≤ 365) : MarchMonth :=
  ⟨(5 * day + 2) / 153, by omega⟩

theorem daysBefore_monthOf_le {day : Int} (inYear : 0 ≤ day ∧ day ≤ 365) :
    (monthOf day inYear).daysBefore ≤ day := by
  simp only [MarchMonth.daysBefore, monthOf]
  omega

/-- A month but February has the days up to the next one. -/
theorem monthLength_number (year : Int) {month : MarchMonth} (other : month.index ≠ 11) :
    (monthLength year month.number : Int) = (153 * (month.index + 1) + 2) / 5 - month.daysBefore := by
  obtain ⟨index, low, high⟩ := month
  have short : index < 11 := by
    have other : index ≠ 11 := other
    omega
  interval_cases index <;> rfl

/-- A date is made of the place of its day. -/
theorem ofDays_eq (days : Int) :
    ∃ place : Place, place.dayOfEra = (days + epochDay) % eraDays ∧
      ofDays days =
        ofMarchYear (place.yearOfEra + (days + epochDay) / eraDays * 400)
          (monthOf place.day place.inYear)
          (place.day - (monthOf place.day place.inYear).daysBefore + 1).toNat := by
  have low : 0 ≤ (days + epochDay) % eraDays := Int.emod_nonneg _ (by decide)
  have high : (days + epochDay) % eraDays < eraDays := Int.emod_lt_of_pos _ (by decide)
  obtain ⟨place, same⟩ := exists_place low high
  refine ⟨place, same, ?_⟩
  have inEra : days + epochDay - (days + epochDay) / eraDays * eraDays = place.dayOfEra := by
    rw [same, Int.emod_def, Int.mul_comm]
  have first : 0 ≤ (5 * place.day + 2) / 153 := (monthOf place.day place.inYear).inYear.1
  have last : (5 * place.day + 2) / 153 ≤ 11 := (monthOf place.day place.inYear).inYear.2
  simp only [ofDays, inEra, place.yearOfEra_eq, place.day_eq, ofMarchYear, MarchMonth.number,
    MarchMonth.daysBefore]
  by_cases spring : (monthOf place.day place.inYear).index < 10
  · rw [if_pos spring, if_pos spring]
    have index : (5 * place.day + 2) / 153 < 10 := spring
    rw [if_pos index, if_neg (by omega)]
    rfl
  · rw [if_neg spring, if_neg spring]
    have index : ¬ (5 * place.day + 2) / 153 < 10 := spring
    rw [if_neg index, if_pos (by omega)]
    rfl

/-- The number of a date is the one that the date was made of. -/
theorem toDays_ofDays (days : Int) : (ofDays days).toDays = days := by
  obtain ⟨place, same, date⟩ := ofDays_eq days
  have before := place.day_eq
  have inYear := place.inYear
  have whole : (days + epochDay) / eraDays * eraDays + place.dayOfEra = days + epochDay := by
    rw [same, Int.mul_comm]
    exact Int.mul_ediv_add_emod _ _
  have day : ((place.day - (monthOf place.day place.inYear).daysBefore + 1).toNat : Int) =
      place.day - (monthOf place.day place.inYear).daysBefore + 1 := by
    have begun := daysBefore_monthOf_le place.inYear
    omega
  rw [date, toDays_ofMarchYear _ _ place.yearOfEra_range, day]
  omega

/-- A year with a day more than others is a leap year in January. -/
theorem isLeapYear_of_leap (place : Place) (era : Int) (last : place.day = 365) :
    isLeapYear (place.yearOfEra + era * 400 + 1) = true := by
  obtain ⟨year, full⟩ := place.leap last
  have inEra := place.inEra
  have inCentury := place.inCentury
  rw [isLeapYear, Place.yearOfEra, year]
  by_cases fours : place.fours = 24
  · have century := full fours
    rw [fours, century]
    simp only [Bool.and_eq_true, Bool.or_eq_true, beq_iff_eq]
    omega
  · simp only [Bool.and_eq_true, Bool.or_eq_true, beq_iff_eq, bne_iff_ne]
    omega

/-- The day of a month is within the month. -/
theorem le_monthLength (place : Place) (era : Int) :
    (place.day - (monthOf place.day place.inYear).daysBefore + 1).toNat ≤
      monthLength (if (monthOf place.day place.inYear).index < 10 then
        place.yearOfEra + era * 400 else place.yearOfEra + era * 400 + 1)
        (monthOf place.day place.inYear).number := by
  have inYear := place.inYear
  have index : (monthOf place.day place.inYear).index = (5 * place.day + 2) / 153 := rfl
  by_cases february : (monthOf place.day place.inYear).index = 11
  · have number : (monthOf place.day place.inYear).number = 2 := by
      rw [MarchMonth.number, february]
      rfl
    have before : (monthOf place.day place.inYear).daysBefore = 337 := by
      rw [MarchMonth.daysBefore, february]
      rfl
    rw [number, before, february, if_neg (by decide), monthLength, if_pos rfl]
    by_cases last : place.day = 365
    · rw [isLeapYear_of_leap place era last, last]
      decide
    · split <;> omega
  · have length := monthLength_number (if (monthOf place.day place.inYear).index < 10 then
      place.yearOfEra + era * 400 else place.yearOfEra + era * 400 + 1) february
    omega

/-- A date that is made of a number is one of the calendar. -/
theorem isValid_ofDays (days : Int) : (ofDays days).isValid = true := by
  obtain ⟨place, same, date⟩ := ofDays_eq days
  have begun := daysBefore_monthOf_le place.inYear
  have within := le_monthLength place ((days + epochDay) / eraDays)
  rw [date, isValid, Bool.and_eq_true, decide_eq_true_eq, decide_eq_true_eq]
  refine ⟨?_, within⟩
  show 1 ≤ Int.toNat _
  omega

end PolicyLedger.Time.Date
