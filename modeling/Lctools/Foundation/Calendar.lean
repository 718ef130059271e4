import Mathlib.Data.Int.Notation
import Mathlib.Tactic.IntervalCases
import Mathlib.Tactic.SplitIfs

/-! # The Gregorian calendar

Dates of the proleptic Gregorian calendar and the days they are counted by. The days
are counted from the first of March of the year 0, so that a leap day is the last
day of the year it belongs to.
-/

namespace Lctools.Calendar

def IsLeap (year : ℤ) : Prop :=
  year % 4 = 0 ∧ (year % 100 ≠ 0 ∨ year % 400 = 0)

instance (year : ℤ) : Decidable (IsLeap year) :=
  inferInstanceAs (Decidable (_ ∧ _))

def daysInMonth (year month : ℤ) : ℤ :=
  if month = 2 then if IsLeap year then 29 else 28
  else if month = 4 ∨ month = 6 ∨ month = 9 ∨ month = 11 then 30
  else 31

@[ext] structure Date where
  year : ℤ
  month : ℤ
  day : ℤ
  month_pos : 1 ≤ month
  month_le : month ≤ 12
  day_pos : 1 ≤ day
  day_le : day ≤ daysInMonth year month
  deriving DecidableEq, Repr

theorem daysInMonth_pos (year month : ℤ) : 1 ≤ daysInMonth year month := by
  unfold daysInMonth
  split_ifs <;> decide

theorem daysInMonth_le (year month : ℤ) : daysInMonth year month ≤ 31 := by
  unfold daysInMonth
  split_ifs <;> decide

def Date.next (date : Date) : Date :=
  if inside : date.day < daysInMonth date.year date.month then
    { date with
      day := date.day + 1
      day_pos := by have := date.day_pos; omega
      day_le := inside }
  else if later : date.month < 12 then
    { year := date.year
      month := date.month + 1
      day := 1
      month_pos := by have := date.month_pos; omega
      month_le := later
      day_pos := Int.le_refl 1
      day_le := daysInMonth_pos .. }
  else
    { year := date.year + 1
      month := 1
      day := 1
      month_pos := Int.le_refl 1
      month_le := Int.le_of_lt (by decide)
      day_pos := Int.le_refl 1
      day_le := daysInMonth_pos .. }

/-! ## The number of a day -/

/-- The days before a month, in a year that begins with March as month 0. -/
def daysBefore (month : ℤ) : ℤ :=
  (153 * month + 2) / 5

def daysBeforeYear (year : ℤ) : ℤ :=
  year * 365 + year / 4 - year / 100 + year / 400

/-- The number of the day with the given year, month and day of the month. -/
def dayNumber (year month day : ℤ) : ℤ :=
  if month ≤ 2 then daysBeforeYear (year - 1) + daysBefore (month + 9) + day - 1
  else daysBeforeYear year + daysBefore (month - 3) + day - 1

def Date.number (date : Date) : ℤ :=
  dayNumber date.year date.month date.day

theorem daysBeforeYear_succ (year : ℤ) :
    daysBeforeYear (year + 1) = daysBeforeYear year + if IsLeap (year + 1) then 366 else 365 := by
  unfold daysBeforeYear
  split_ifs with leap
  · unfold IsLeap at leap
    omega
  · unfold IsLeap at leap
    omega

theorem dayNumber_month_succ {year month : ℤ} (low : 1 ≤ month) (high : month < 12) :
    dayNumber year (month + 1) 1 = dayNumber year month (daysInMonth year month) + 1 := by
  have years := daysBeforeYear_succ (year - 1)
  rw [Int.sub_add_cancel] at years
  have months : month = 1 ∨ month = 2 ∨ month = 3 ∨ month = 4 ∨ month = 5 ∨ month = 6 ∨
      month = 7 ∨ month = 8 ∨ month = 9 ∨ month = 10 ∨ month = 11 := by
    omega
  rcases months with rfl | rfl | rfl | rfl | rfl | rfl | rfl | rfl | rfl | rfl | rfl
  all_goals
    simp [dayNumber, daysInMonth, daysBefore]
    try omega
  -- The end of February is the end of the year that began with March.
  rw [years]
  split_ifs <;> omega

theorem dayNumber_year_succ (year : ℤ) :
    dayNumber (year + 1) 1 1 = dayNumber year 12 31 + 1 := by
  simp [dayNumber, daysBefore]
  omega

theorem dayNumber_day_succ (year month day : ℤ) :
    dayNumber year month (day + 1) = dayNumber year month day + 1 := by
  unfold dayNumber
  split_ifs <;> omega

theorem Date.number_next (date : Date) : date.next.number = date.number + 1 := by
  unfold Date.next Date.number
  split_ifs with inside later
  · exact dayNumber_day_succ ..
  · have last : date.day = daysInMonth date.year date.month := by
      have := date.day_le
      omega
    rw [last]
    exact dayNumber_month_succ date.month_pos later
  · have december : date.month = 12 := by
      have := date.month_le
      omega
    have last : date.day = 31 := by
      have high := date.day_le
      rw [december] at high inside
      change date.day ≤ 31 at high
      change ¬date.day < 31 at inside
      omega
    rw [december, last]
    exact dayNumber_year_succ date.year

def Date.startOfYear (date : Date) : Date where
  year := date.year
  month := 1
  day := 1
  month_pos := Int.le_refl 1
  month_le := Int.le_of_lt (by decide)
  day_pos := Int.le_refl 1
  day_le := daysInMonth_pos ..

theorem Date.yday_bounds (date : Date) :
    0 ≤ date.number - date.startOfYear.number ∧ date.number - date.startOfYear.number ≤ 365 := by
  have years := daysBeforeYear_succ (date.year - 1)
  rw [Int.sub_add_cancel] at years
  have low := date.day_pos
  have high := date.day_le
  have first := date.month_pos
  have last := date.month_le
  have short := daysInMonth_le date.year date.month
  have february : date.month = 2 → daysInMonth date.year date.month ≤ 29 := by
    intro second
    rw [second, daysInMonth, if_pos rfl]
    split_ifs <;> decide
  have start : date.startOfYear.number = daysBeforeYear (date.year - 1) + 306 := by
    change daysBeforeYear (date.year - 1) + daysBefore 10 + 1 - 1 = _
    rw [daysBefore]
    omega
  rw [start, Date.number, dayNumber]
  by_cases early : date.month ≤ 2
  · rw [if_pos early, daysBefore]
    omega
  · rw [if_neg early, years, daysBefore]
    split_ifs <;> omega

/-! ## The date of a day -/

/-- A day taken apart: its hundred years, the year in it, the month in a year that
begins with March, and the day in that month from 0 on. -/
structure Parts where
  century : ℤ
  year : ℤ
  month : ℤ
  day : ℤ

structure Parts.Regular (parts : Parts) : Prop where
  year_nonneg : 0 ≤ parts.year
  year_lt : parts.year < 100
  month_nonneg : 0 ≤ parts.month
  month_lt : parts.month < 12
  day_nonneg : 0 ≤ parts.day
  day_lt : parts.month ≠ 11 → daysBefore parts.month + parts.day < daysBefore (parts.month + 1)
  leap_day : parts.month = 11 → parts.day ≤ 28
  leap_year : parts.month = 11 → parts.day = 28 → parts.year % 4 = 3
  leap_century : parts.month = 11 → parts.day = 28 → parts.year = 99 → parts.century % 4 = 3

def Parts.number (parts : Parts) : ℤ :=
  daysBeforeYear (100 * parts.century + parts.year) + daysBefore parts.month + parts.day

def centuryOf (number : ℤ) : ℤ :=
  (4 * number + 3) / 146097

/-- The year of a day that is given by its place in its hundred years. -/
def yearOf (inCentury : ℤ) : ℤ :=
  (4 * inCentury + 3) / 1461

/-- The month of a day that is given by its place in its year. -/
def monthOf (inYear : ℤ) : ℤ :=
  (5 * inYear + 2) / 153

def partsOf (number : ℤ) : Parts :=
  let century := centuryOf number
  let inCentury := number - 146097 * century / 4
  let year := yearOf inCentury
  let inYear := inCentury - 1461 * year / 4
  let month := monthOf inYear
  ⟨century, year, month, inYear - daysBefore month⟩

/-- A hundred years have a leap day less than every fourth year, but for every fourth
of them. -/
theorem daysBeforeYear_split {century year : ℤ} (low : 0 ≤ year) (high : year < 100) :
    daysBeforeYear (100 * century + year) = 146097 * century / 4 + 1461 * year / 4 := by
  have fourth : (100 * century + year) / 4 = 25 * century + year / 4 := by omega
  have hundredth : (100 * century + year) / 100 = century := by omega
  have last : (100 * century + year) / 400 = century / 4 := by omega
  have centuries : 146097 * century / 4 = 36524 * century + century / 4 := by omega
  have years : 1461 * year / 4 = 365 * year + year / 4 := by omega
  rw [daysBeforeYear, fourth, hundredth, last, centuries, years]
  omega

section Split

variable {number inCentury inYear : ℤ}

theorem inCentury_bounds (place : inCentury = number - 146097 * centuryOf number / 4) :
    0 ≤ inCentury ∧ inCentury ≤ 36524 ∧ (inCentury = 36524 → centuryOf number % 4 = 3) := by
  have low : 146097 * centuryOf number ≤ 4 * number + 3 := Int.mul_ediv_self_le (by decide)
  have high : 4 * number + 3 < 146097 * centuryOf number + 146097 :=
    Int.lt_mul_ediv_self_add (by decide)
  have centuries : 146097 * centuryOf number / 4 =
      36524 * centuryOf number + centuryOf number / 4 := by
    omega
  have fourfold :
      4 * inCentury = 4 * number - 146097 * centuryOf number + centuryOf number % 4 := by
    rw [place, centuries]
    clear low high
    omega
  generalize 4 * number - 146097 * centuryOf number = rest at *
  have lowRest : -3 ≤ rest := by omega
  have highRest : rest ≤ 146093 := by omega
  clear low high place centuries
  omega

theorem yearOf_bounds (low : 0 ≤ inCentury) (high : inCentury ≤ 36524) :
    0 ≤ yearOf inCentury ∧ yearOf inCentury < 100 := by
  unfold yearOf
  omega

theorem inYear_bounds (place : inYear = inCentury - 1461 * yearOf inCentury / 4) :
    0 ≤ inYear ∧ inYear ≤ 365 ∧ (inYear = 365 → yearOf inCentury % 4 = 3) ∧
      (inYear = 365 → yearOf inCentury = 99 → inCentury = 36524) := by
  unfold yearOf at *
  omega

theorem monthOf_bounds (low : 0 ≤ inYear) (high : inYear ≤ 365) :
    0 ≤ monthOf inYear ∧ monthOf inYear < 12 ∧ daysBefore (monthOf inYear) ≤ inYear ∧
      inYear < daysBefore (monthOf inYear + 1) ∧
      (monthOf inYear = 11 → daysBefore (monthOf inYear) = 337) := by
  unfold monthOf daysBefore
  omega

end Split

section PartsOf

variable (number : ℤ)

theorem partsOf_regular : (partsOf number).Regular := by
  rcases inCentury_bounds (rfl : _ = number - 146097 * centuryOf number / 4) with
    ⟨lowCentury, highCentury, lastCentury⟩
  generalize placed : number - 146097 * centuryOf number / 4 = inCentury at *
  rcases yearOf_bounds lowCentury highCentury with ⟨lowYear, highYear⟩
  rcases inYear_bounds (rfl : _ = inCentury - 1461 * yearOf inCentury / 4) with
    ⟨lowDay, highDay, lastYear, lastDay⟩
  generalize placedDay : inCentury - 1461 * yearOf inCentury / 4 = inYear at *
  rcases monthOf_bounds lowDay highDay with ⟨lowMonth, highMonth, lowRest, highRest, february⟩
  have parts : partsOf number = ⟨centuryOf number, yearOf inCentury, monthOf inYear,
      inYear - daysBefore (monthOf inYear)⟩ := by
    simp only [partsOf, placed, placedDay]
  rw [parts]
  refine ⟨lowYear, highYear, lowMonth, highMonth, ?_, ?_, ?_, ?_, ?_⟩
  · exact Int.sub_nonneg_of_le lowRest
  · intro _
    simp only
    omega
  · intro last
    have before := february last
    simp only
    omega
  · intro last final
    have before := february last
    simp only at final
    exact lastYear (by omega)
  · intro last final ninetyNine
    have before := february last
    simp only at final
    exact lastCentury (lastDay (by omega) ninetyNine)

theorem partsOf_number : (partsOf number).number = number := by
  have regular := partsOf_regular number
  rw [Parts.number, daysBeforeYear_split regular.year_nonneg regular.year_lt]
  simp only [partsOf]
  omega

end PartsOf

section Unique

variable {century year month inCentury inYear : ℤ}

theorem centuryOf_eq (low : 0 ≤ inCentury) (high : inCentury ≤ 36524)
    (last : inCentury = 36524 → century % 4 = 3) :
    centuryOf (146097 * century / 4 + inCentury) = century := by
  have centuries : 146097 * century / 4 = 36524 * century + century / 4 := by omega
  rw [centuryOf, centuries]
  apply Int.le_antisymm
  · apply Int.lt_add_one_iff.mp
    apply Int.ediv_lt_of_lt_mul (by decide)
    omega
  · apply Int.le_ediv_of_mul_le (by decide)
    omega

theorem yearOf_eq (low : 0 ≤ inYear) (high : inYear ≤ 365) (last : inYear = 365 → year % 4 = 3) :
    yearOf (1461 * year / 4 + inYear) = year := by
  unfold yearOf
  omega

theorem monthOf_eq (before : daysBefore month ≤ inYear)
    (after : month ≠ 11 → inYear < daysBefore (month + 1)) (last : inYear ≤ 365) :
    monthOf inYear = month := by
  unfold monthOf daysBefore at *
  omega

end Unique

theorem Parts.Regular.inYear_bounds {parts : Parts} (regular : parts.Regular) :
    0 ≤ daysBefore parts.month ∧ daysBefore parts.month + parts.day ≤ 365 ∧
      (daysBefore parts.month + parts.day = 365 → parts.month = 11 ∧ parts.day = 28) := by
  have monthLow := regular.month_nonneg
  have monthHigh := regular.month_lt
  have dayHigh := regular.day_lt
  have leapDay := regular.leap_day
  unfold daysBefore at *
  omega

theorem Parts.partsOf_number_eq {parts : Parts} (regular : parts.Regular) :
    partsOf parts.number = parts := by
  have total := @daysBeforeYear_split parts.century _ regular.year_nonneg regular.year_lt
  rcases regular.inYear_bounds with ⟨before, inYear⟩
  rcases parts with ⟨century, year, month, day⟩
  rcases regular with ⟨yearLow, yearHigh, monthLow, monthHigh, dayLow, dayHigh, leapDay, leapYear,
    leapCentury⟩
  simp only at total before inYear yearLow yearHigh monthLow monthHigh
  simp only at dayLow dayHigh leapDay leapYear leapCentury
  have inCentury : 1461 * year / 4 + (daysBefore month + day) ≤ 36524 ∧
      (1461 * year / 4 + (daysBefore month + day) = 36524 →
        year = 99 ∧ daysBefore month + day = 365) := by
    omega
  have numbered : (Parts.mk century year month day).number =
      146097 * century / 4 + (1461 * year / 4 + (daysBefore month + day)) := by
    simp only [Parts.number, total]
    omega
  have centuryEq := @centuryOf_eq century (1461 * year / 4 + (daysBefore month + day)) (by omega)
    inCentury.1 (fun last => leapCentury (inYear.2 (inCentury.2 last).2).1
      (inYear.2 (inCentury.2 last).2).2 (inCentury.2 last).1)
  have yearEq := @yearOf_eq year (daysBefore month + day) (by omega) inYear.1
    (fun last => leapYear (inYear.2 last).1 (inYear.2 last).2)
  have monthEq := @monthOf_eq month (daysBefore month + day) (by omega) dayHigh inYear.1
  have cancel : ∀ first second : ℤ, first + second - first = second := by
    intro first second
    omega
  rw [numbered]
  simp only [partsOf, centuryEq, cancel, yearEq, monthEq]

/-! ## Dates and their parts -/

theorem daysInMonth_eq {month : ℤ} (low : 1 ≤ month) (high : month ≤ 12) (other : month ≠ 2)
    (year : ℤ) :
    daysInMonth year month = if month ≤ 2 then daysBefore (month + 10) - daysBefore (month + 9)
      else daysBefore (month - 2) - daysBefore (month - 3) := by
  unfold daysInMonth daysBefore
  rw [if_neg other]
  interval_cases month
  all_goals first | rfl | exact absurd rfl other

theorem daysInMonth_february (year : ℤ) :
    daysInMonth year 2 ≤ 29 ∧ (daysInMonth year 2 = 29 ↔ IsLeap year) := by
  rw [daysInMonth, if_pos rfl]
  split_ifs with leap
  · simpa using leap
  · simpa using leap

/-- A date as a day of a year that begins with March. -/
def Date.parts (date : Date) : Parts :=
  let year := if date.month ≤ 2 then date.year - 1 else date.year
  ⟨year / 100, year % 100, if date.month ≤ 2 then date.month + 9 else date.month - 3, date.day - 1⟩

theorem Date.parts_number (date : Date) : date.parts.number = date.number := by
  have whole : ∀ year : ℤ, 100 * (year / 100) + year % 100 = year := (Int.mul_ediv_add_emod · 100)
  unfold Date.parts Parts.number Date.number dayNumber
  split_ifs <;> simp only [whole] <;> omega

theorem Date.parts_february {date : Date} (last : date.parts.month = 11) : date.month = 2 := by
  have first := date.month_pos
  have final := date.month_le
  simp only [Date.parts] at last
  split_ifs at last <;> omega

theorem Date.parts_leap {date : Date} (february : date.month = 2) (last : date.parts.day = 28) :
    date.parts.year % 4 = 3 ∧ (date.parts.year = 99 → date.parts.century % 4 = 3) := by
  have high := date.day_le
  have leap := daysInMonth_february date.year
  simp only [Date.parts] at last
  rw [february] at high
  have isLeap : IsLeap date.year := leap.2.mp (by omega)
  unfold IsLeap at isLeap
  simp only [Date.parts, february, if_pos (show (2 : ℤ) ≤ 2 from Int.le_refl 2)]
  omega

theorem Date.parts_regular (date : Date) : date.parts.Regular := by
  have high := date.day_le
  have first := date.month_pos
  have final := date.month_le
  refine ⟨?_, ?_, ?_, ?_, ?_, ?_, ?_, ?_, ?_⟩
  · exact Int.emod_nonneg _ (by decide)
  · exact Int.emod_lt_of_pos _ (by decide)
  · simp only [Date.parts]
    split_ifs <;> omega
  · simp only [Date.parts]
    split_ifs <;> omega
  · exact Int.sub_nonneg_of_le date.day_pos
  · intro other
    have notFebruary : date.month ≠ 2 := by
      intro february
      simp [Date.parts, february] at other
    rw [daysInMonth_eq first final notFebruary] at high
    simp only [Date.parts]
    split_ifs at high ⊢
    · rw [show date.month + 9 + 1 = date.month + 10 by omega]
      omega
    · rw [show date.month - 3 + 1 = date.month - 2 by omega]
      omega
  · intro last
    rw [Date.parts_february last] at high
    have short := (daysInMonth_february date.year).1
    simp only [Date.parts]
    omega
  · intro last leapDay
    exact (Date.parts_leap (Date.parts_february last) leapDay).1
  · intro last leapDay
    exact (Date.parts_leap (Date.parts_february last) leapDay).2

/-- The day of a year that begins with March as a date. -/
def Parts.date (parts : Parts) (regular : parts.Regular) : Date where
  year := 100 * parts.century + parts.year + parts.month / 10
  month := parts.month + 3 - 12 * (parts.month / 10)
  day := parts.day + 1
  month_pos := by
    have low := regular.month_nonneg
    have high := regular.month_lt
    omega
  month_le := by
    have low := regular.month_nonneg
    have high := regular.month_lt
    omega
  day_pos := by
    have low := regular.day_nonneg
    omega
  day_le := by
    have low := regular.month_nonneg
    have high := regular.month_lt
    by_cases last : parts.month = 11
    · have short := regular.leap_day last
      have leapYear := regular.leap_year last
      have leapCentury := regular.leap_century last
      have yearLow := regular.year_nonneg
      have yearHigh := regular.year_lt
      rw [last]
      change _ ≤ daysInMonth _ 2
      rw [daysInMonth, if_pos rfl]
      unfold IsLeap
      split_ifs <;> omega
    · have inside := regular.day_lt last
      have notFebruary : parts.month + 3 - 12 * (parts.month / 10) ≠ 2 := by omega
      rw [daysInMonth_eq (by omega) (by omega) notFebruary]
      by_cases late : 10 ≤ parts.month
      · have next : parts.month / 10 = 1 := by omega
        rw [next, if_pos (by omega), show parts.month + 3 - 12 * 1 + 10 = parts.month + 1 by omega,
          show parts.month + 3 - 12 * 1 + 9 = parts.month by omega]
        omega
      · have next : parts.month / 10 = 0 := by omega
        rw [next, if_neg (by omega), show parts.month + 3 - 12 * 0 - 2 = parts.month + 1 by omega,
          show parts.month + 3 - 12 * 0 - 3 = parts.month by omega]
        omega

theorem Parts.parts_date {parts : Parts} (regular : parts.Regular) :
    (parts.date regular).parts = parts := by
  have yearLow := regular.year_nonneg
  have yearHigh := regular.year_lt
  have low := regular.month_nonneg
  have high := regular.month_lt
  rcases parts with ⟨century, year, month, day⟩
  simp only at yearLow yearHigh low high
  by_cases late : 10 ≤ month
  · have next : month / 10 = 1 := by omega
    simp only [Parts.date, Date.parts, next, Parts.mk.injEq]
    rw [if_pos (by omega), if_pos (by omega)]
    omega
  · have next : month / 10 = 0 := by omega
    simp only [Parts.date, Date.parts, next, Parts.mk.injEq]
    rw [if_neg (by omega), if_neg (by omega)]
    omega

theorem Date.parts_injective : Function.Injective Date.parts := by
  intro first second equal
  have bounds := And.intro (And.intro first.month_pos first.month_le)
    (And.intro second.month_pos second.month_le)
  rcases first with ⟨year, month, day, _, _, _, _⟩
  rcases second with ⟨year', month', day', _, _, _, _⟩
  simp only [Date.parts, Parts.mk.injEq] at equal
  simp only [Date.mk.injEq]
  simp only at bounds
  split_ifs at equal <;> omega

def ofNumber (number : ℤ) : Date :=
  (partsOf number).date (partsOf_regular number)

theorem number_ofNumber (number : ℤ) : (ofNumber number).number = number := by
  rw [← Date.parts_number, ofNumber, Parts.parts_date, partsOf_number]

theorem ofNumber_number (date : Date) : ofNumber date.number = date := by
  apply Date.parts_injective
  rw [ofNumber, Parts.parts_date, ← Date.parts_number, Parts.partsOf_number_eq date.parts_regular]

theorem partsOf_add_cycles (number cycles : ℤ) :
    partsOf (number + 146097 * cycles) =
      { partsOf number with century := (partsOf number).century + 4 * cycles } := by
  have century : centuryOf (number + 146097 * cycles) = centuryOf number + 4 * cycles := by
    rw [centuryOf, centuryOf, show 4 * (number + 146097 * cycles) + 3 =
      4 * number + 3 + 4 * cycles * 146097 by omega, Int.add_mul_ediv_right _ _ (by decide)]
  have days : number + 146097 * cycles - 146097 * (centuryOf number + 4 * cycles) / 4 =
      number - 146097 * centuryOf number / 4 := by
    rw [show 146097 * (centuryOf number + 4 * cycles) =
      146097 * centuryOf number + 146097 * cycles * 4 by omega,
      Int.add_mul_ediv_right _ _ (by decide)]
    omega
  simp only [partsOf, century, days]

theorem ofNumber_succ (number : ℤ) : ofNumber (number + 1) = (ofNumber number).next := by
  have counted := (ofNumber number).number_next
  rw [number_ofNumber] at counted
  rw [← counted, ofNumber_number]

/-! ## The order of dates -/

/-- The year decides, then the month, then the day. -/
def Date.Before (first second : Date) : Prop :=
  first.year < second.year ∨ first.year = second.year ∧
    (first.month < second.month ∨ first.month = second.month ∧ first.day < second.day)

theorem Date.before_next (date : Date) : date.Before date.next := by
  rw [Date.next, Date.Before]
  split_ifs
  · exact .inr ⟨rfl, .inr ⟨rfl, Int.lt_succ _⟩⟩
  · exact .inr ⟨rfl, .inl (Int.lt_succ _)⟩
  · exact .inl (Int.lt_succ _)

theorem Date.Before.trans {first second third : Date} (less : first.Before second)
    (more : second.Before third) : first.Before third := by
  unfold Date.Before at *
  omega

theorem ofNumber_before {number later : ℤ} (less : number < later) :
    (ofNumber number).Before (ofNumber later) := by
  have steps : ∀ count : ℕ, (ofNumber number).Before (ofNumber (number + 1 + count)) := by
    intro count
    induction count with
    | zero =>
        rw [Int.natCast_zero, Int.add_zero, ofNumber_succ]
        exact Date.before_next _
    | succ count induction =>
        rw [Int.natCast_succ, ← Int.add_assoc, ofNumber_succ]
        exact induction.trans (Date.before_next _)
  have reached := steps (later - (number + 1)).toNat
  have whole : number + 1 + (later - (number + 1)) = later := by omega
  rwa [Int.toNat_of_nonneg (by omega), whole] at reached

end Lctools.Calendar
