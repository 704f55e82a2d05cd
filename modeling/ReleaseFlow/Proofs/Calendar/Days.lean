import Mathlib.Algebra.BigOperators.Group.Finset.Basic
import Mathlib.Algebra.BigOperators.Intervals
import Mathlib.Tactic.IntervalCases
import ReleaseFlow.Calendar

/-!
# The days of the calendar

Days are counted from the start of 1970, by the lengths of the months.

* `daysBeforeMonth`, `daysInYear`, `daysBeforeYear`, `dayNumber`: how days are counted;
* `daysBeforeYear_eq`: the days before a year by the number of its leap years;
* `exists_quotients`, `yearOfEra_eq`: where a day lies in 400 years;
* `dayOfYear_isCivil`: where a day lies in a year that is counted from March;
* `civilOfDays_isCivil`: **every day has its date**.
-/

namespace ReleaseFlow

open Finset (range)

/-! ## Counting -/

/-- The days of a year before one of its months. -/
def daysBeforeMonth (year : ℤ) (month : ℕ) : ℕ :=
  ∑ k ∈ range (month - 1), daysInMonth year (k + 1)

def daysInYear (year : ℤ) : ℕ :=
  daysBeforeMonth year 13

/-- The days from the start of 1970 to the start of a year; before 1970 they are counted back. -/
def daysBeforeYear (year : ℤ) : ℤ :=
  ∑ k ∈ range (year - 1970).toNat, (daysInYear (1970 + k) : ℤ) -
    ∑ k ∈ range (1970 - year).toNat, (daysInYear (1969 - k) : ℤ)

/-- The numbers of a date. -/
structure IsCivil (year : ℤ) (month day : ℕ) : Prop where
  isMonth : 1 ≤ month ∧ month ≤ 12
  isDay : 1 ≤ day ∧ day ≤ daysInMonth year month

/-- The days from the start of 1970 to a date. -/
def dayNumber (year : ℤ) (month day : ℕ) : ℤ :=
  daysBeforeYear year + daysBeforeMonth year month + (day - 1 : ℕ)

/-! ## Years -/

/-- One for the years with a leap day. -/
def leapDays (year : ℤ) : ℕ :=
  if isLeapYear year then 1 else 0

theorem isLeapYear_iff (year : ℤ) :
    isLeapYear year = true ↔ year % 4 = 0 ∧ (year % 100 ≠ 0 ∨ year % 400 = 0) := by
  simp [isLeapYear]

theorem daysInYear_eq (year : ℤ) : daysInYear year = 365 + leapDays year := by
  simp only [daysInYear, daysBeforeMonth, leapDays, Finset.sum_range_succ, Finset.sum_range_zero,
    daysInMonth]
  split_ifs <;> rfl

/-- The days before a year: every fourth year has a leap day, but not every hundredth one, but
every four hundredth. There are 477 such years up to 1969. -/
def yearStart (year : ℤ) : ℤ :=
  365 * (year - 1970) + ((year - 1) / 4 - (year - 1) / 100 + (year - 1) / 400 - 477)

theorem yearStart_succ (year : ℤ) : yearStart (year + 1) = yearStart year + daysInYear year := by
  rw [yearStart, yearStart, daysInYear_eq, leapDays]
  split
  · next h =>
    rw [isLeapYear_iff] at h
    push_cast
    omega
  · next h =>
    rw [isLeapYear_iff] at h
    push_cast
    omega

theorem daysBeforeYear_eq (year : ℤ) : daysBeforeYear year = yearStart year := by
  have hafter : ∀ n : ℕ, ∑ k ∈ range n, (daysInYear (1970 + k) : ℤ) = yearStart (1970 + n) := by
    intro n
    induction n with
    | zero => rfl
    | succ n ih => rw [Finset.sum_range_succ, ih, ← yearStart_succ, Nat.cast_succ, add_assoc]
  have hbefore : ∀ n : ℕ, ∑ k ∈ range n, (daysInYear (1969 - k) : ℤ) = -yearStart (1970 - n) := by
    intro n
    induction n with
    | zero => rfl
    | succ n ih =>
      have hstep := yearStart_succ (1969 - n)
      have hnext : (1969 - n : ℤ) + 1 = 1970 - n := by omega
      have hthis : (1970 - (n + 1 : ℕ) : ℤ) = 1969 - n := by omega
      rw [hnext] at hstep
      rw [Finset.sum_range_succ, ih, hthis, hstep]
      omega
  rw [daysBeforeYear, hafter, hbefore]
  rcases le_total year 1970 with h | h
  · rw [Int.toNat_eq_zero.2 (by omega), Int.toNat_of_nonneg (by omega)]
    have hsame : (1970 - (1970 - year) : ℤ) = year := by omega
    rw [hsame]
    have hstart : yearStart (1970 + (0 : ℕ)) = 0 := rfl
    omega
  · rw [Int.toNat_of_nonneg (by omega : (0 : ℤ) ≤ year - 1970),
      Int.toNat_eq_zero.2 (by omega : 1970 - year ≤ 0)]
    have hsame : (1970 + (year - 1970) : ℤ) = year := by omega
    have hstart : yearStart (1970 - (0 : ℕ)) = 0 := rfl
    rw [hsame]
    omega

/-! ## Months -/

theorem daysInMonth_two (year : ℤ) : daysInMonth year 2 = 28 + leapDays year := by
  rw [daysInMonth, leapDays]
  split <;> rfl

theorem daysInMonth_eq (year : ℤ) {k : ℕ} (hk : k < 10) :
    daysInMonth year (k + 3) + (153 * k + 2) / 5 = (153 * (k + 1) + 2) / 5 := by
  interval_cases k <;> rfl

theorem daysBeforeMonth_succ (year : ℤ) {month : ℕ} (h : 1 ≤ month) :
    daysBeforeMonth year (month + 1) = daysBeforeMonth year month + daysInMonth year month := by
  obtain ⟨k, rfl⟩ := Nat.exists_eq_add_of_le' h
  exact Finset.sum_range_succ _ _

theorem daysBeforeMonth_eq (year : ℤ) {k : ℕ} (hk : k < 10) :
    daysBeforeMonth year (k + 3) = 59 + leapDays year + (153 * k + 2) / 5 := by
  induction k with
  | zero =>
    have hmonths : daysBeforeMonth year 3 = 0 + 31 + daysInMonth year 2 := rfl
    rw [hmonths, daysInMonth_two]
    omega
  | succ k ih =>
    rw [Nat.add_right_comm, daysBeforeMonth_succ year (by omega), ih (by omega), add_assoc,
      Nat.add_comm _ (daysInMonth year _), daysInMonth_eq year (by omega)]

/-- The month in which a day of a year lies, when the year is counted from March. -/
theorem dayOfYear_isCivil (year : ℤ) {n : ℕ} (hn : n < 365 + leapDays (year + 1)) :
    let fromMarch := (5 * n + 2) / 153
    let day := n - (153 * fromMarch + 2) / 5 + 1
    let month := if fromMarch < 10 then fromMarch + 3 else fromMarch - 9
    let inYear := year + if month ≤ 2 then 1 else 0
    IsCivil inYear month day ∧ dayNumber inYear month day = yearStart (year + 1) - 306 + n := by
  intro fromMarch day month inYear
  have hleap : leapDays (year + 1) ≤ 1 := by
    rw [leapDays]
    split <;> omega
  have hbegins : (153 * fromMarch + 2) / 5 ≤ n := by omega
  have hends : n < (153 * (fromMarch + 1) + 2) / 5 := by omega
  by_cases hlate : fromMarch < 10
  · have hmonth : month = fromMarch + 3 := if_pos hlate
    have hyear : inYear = year := by
      change year + (if month ≤ 2 then 1 else 0) = year
      rw [if_neg (by omega), add_zero]
    rw [hyear, hmonth]
    refine ⟨⟨by omega, by omega, ?_⟩, ?_⟩
    · have hlength := daysInMonth_eq year hlate
      omega
    · rw [dayNumber, daysBeforeMonth_eq year hlate, daysBeforeYear_eq, yearStart_succ,
        daysInYear_eq]
      push_cast
      omega
  -- January and February belong to the next year
  · have hmonth : month = fromMarch - 9 := if_neg hlate
    have hyear : inYear = year + 1 := by
      change year + (if month ≤ 2 then 1 else 0) = year + 1
      rw [if_pos (by omega)]
    rw [hyear, dayNumber, daysBeforeYear_eq]
    obtain h | h : month = 1 ∨ month = 2 := by omega
    · have hlength : daysInMonth (year + 1) 1 = 31 := rfl
      have hbefore : daysBeforeMonth (year + 1) 1 = 0 := rfl
      rw [h, hbefore]
      exact ⟨⟨by omega, by omega⟩, by omega⟩
    · have hlength := daysInMonth_two (year + 1)
      have hbefore : daysBeforeMonth (year + 1) 2 = 31 := rfl
      rw [h, hbefore]
      exact ⟨⟨by omega, by omega⟩, by omega⟩

/-! ## Four hundred years -/

/-- Where a day lies in four hundred years: its century, its four years, its year and what is left.
The last day of four years, of a century and of four centuries does not begin the next ones. -/
theorem exists_quotients {day : ℕ} (h : day < 146097) : ∃ century four one left : ℕ,
    century ≤ 3 ∧ four ≤ 24 ∧ one ≤ 3 ∧
      day = 36524 * century + 1461 * four + 365 * one + left ∧
      (left < 365 ∨ left = 365 ∧ one = 3 ∧ (four ≠ 24 ∨ century = 3)) := by
  obtain ⟨century, inCentury, hcentury, hday, hlast⟩ : ∃ century inCentury : ℕ, century ≤ 3 ∧
      day = 36524 * century + inCentury ∧
      (inCentury < 36524 ∨ inCentury = 36524 ∧ century = 3) :=
    ⟨min 3 (day / 36524), day - 36524 * min 3 (day / 36524), by omega, by omega, by omega⟩
  obtain ⟨one, left, hone, hfour, hleft⟩ : ∃ one left : ℕ, one ≤ 3 ∧
      inCentury % 1461 = 365 * one + left ∧ (left < 365 ∨ left = 365 ∧ one = 3) :=
    ⟨min 3 (inCentury % 1461 / 365), inCentury % 1461 - 365 * min 3 (inCentury % 1461 / 365),
      by omega, by omega, by omega⟩
  exact ⟨century, inCentury / 1461, one, left, hcentury, by omega, hone, by omega, by omega⟩

theorem yearOfEra_eq {century four one left : ℕ} (hcentury : century ≤ 3) (hfour : four ≤ 24)
    (hone : one ≤ 3) (hleft : left < 365 ∨ left = 365 ∧ one = 3 ∧ (four ≠ 24 ∨ century = 3)) :
    let day := 36524 * century + 1461 * four + 365 * one + left
    (day - day / 1460 + day / 36524 - day / 146096) / 365 = 100 * century + 4 * four + one := by
  intro day
  -- the last day of all
  have hlast : day / 146096 = if left = 365 ∧ four = 24 then 1 else 0 := by
    split <;> omega
  have hcenturies : day / 36524 = century + if left = 365 ∧ four = 24 then 1 else 0 := by
    split <;> omega
  -- the quotient counts the four years a little early, in the last of them
  obtain ⟨early, hfours, hearly⟩ : ∃ early, day / 1460 = 25 * century + four + early ∧
      (early = 0 ∧ left ≠ 365 ∨ early = 1 ∧ 269 ≤ left) :=
    ⟨day / 1460 - (25 * century + four), by omega, by omega⟩
  rw [hlast, hcenturies, hfours]
  split <;> omega

/-- The days before a year in four hundred years. -/
def eraYearStart (year : ℕ) : ℕ :=
  365 * year + year / 4 - year / 100

/-- The year of a day in four hundred years, and the day in this year. It is the last of a year that
is longer than others only if the leap day comes before the next year. -/
theorem exists_yearOfEra {day : ℕ} (h : day < 146097) : ∃ year left : ℕ,
    (day - day / 1460 + day / 36524 - day / 146096) / 365 = year ∧ year < 400 ∧
      day = eraYearStart year + left ∧ (left < 365 ∨ left = 365 ∧ (year + 1) % 4 = 0 ∧
        ((year + 1) % 100 ≠ 0 ∨ year = 399)) := by
  obtain ⟨century, four, one, left, hcentury, hfour, hone, hday, hleft⟩ := exists_quotients h
  have hstart : eraYearStart (100 * century + 4 * four + one) =
      36524 * century + 1461 * four + 365 * one := by
    have hfours : (100 * century + 4 * four + one) / 4 = 25 * century + four := by omega
    have hcenturies : (100 * century + 4 * four + one) / 100 = century := by omega
    rw [eraYearStart, hfours, hcenturies]
    omega
  have hyear := yearOfEra_eq hcentury hfour hone hleft
  rw [← hday] at hyear
  exact ⟨_, left, hyear, by omega, by rw [hstart, hday], by omega⟩

theorem yearStart_add_era {year : ℕ} (h : year < 400) (era : ℤ) :
    yearStart (year + era * 400 + 1) = era * 146097 + eraYearStart year - 719162 := by
  have hfours : (year + era * 400 + 1 - 1) / 4 = era * 100 + (year / 4 : ℕ) := by omega
  have hcenturies : (year + era * 400 + 1 - 1) / 100 = era * 4 + (year / 100 : ℕ) := by omega
  have heras : (year + era * 400 + 1 - 1) / 400 = era := by omega
  rw [yearStart, hfours, hcenturies, heras, eraYearStart]
  omega

/-- **Every day has its date.** -/
theorem civilOfDays_isCivil (days : ℤ) :
    let (year, month, day) := civilOfDays days
    IsCivil year month day ∧ dayNumber year month day = days := by
  have hdays := Int.mul_fdiv_add_fmod (days + 719468) 146097
  have hbound := Int.fmod_lt_of_pos (days + 719468) (by decide : (0 : ℤ) < 146097)
  obtain ⟨day, hday⟩ := Int.eq_ofNat_of_zero_le
    (Int.fmod_nonneg_of_pos (days + 719468) (by decide : (0 : ℤ) < 146097))
  generalize hera : (days + 719468).fdiv 146097 = era at hdays
  have hrest : (days + 719468 - era * 146097).toNat = day := by omega
  have hinEra : day < 146097 := by omega
  obtain ⟨year, left, hyear, hlt, hsplit, hleft⟩ := exists_yearOfEra hinEra
  have hbehind : day - (365 * year + year / 4 - year / 100) = left := by
    rw [hsplit, eraYearStart, Nat.add_sub_cancel_left]
  have hleap : left < 365 + leapDays (year + era * 400 + 1) := by
    rcases hleft with hleft | ⟨rfl, hlast⟩
    · omega
    · rw [leapDays, if_pos ((isLeapYear_iff _).2 (by omega))]
      omega
  obtain ⟨hcivil, hnumber⟩ := dayOfYear_isCivil (year + era * 400) hleap
  unfold civilOfDays
  simp only [hera, hrest, hyear, hbehind]
  rw [yearStart_add_era hlt] at hnumber
  exact ⟨hcivil, by omega⟩

end ReleaseFlow
