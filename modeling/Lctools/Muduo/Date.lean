import Lctools.Foundation.Calendar
import Lctools.Foundation.Numerals
import Lctools.Foundation.Overflow

/-! # `muduo/base/Date`

A date is kept as its Julian day number. The conversions compute with `int` and with
the division of C, which rounds towards zero.
-/

namespace Lctools.Muduo

open Calendar CString Numerals Overflow

section Arithmetic

variable {ε : Type}

/-- The result of an operation on two `int`. -/
def int (value : ℤ) : Except (Stop ε) ℤ :=
  within (-2 ^ 31) (2 ^ 31 - 1) value

theorem int_ok {value : ℤ} (low : -2147483648 ≤ value) (high : value ≤ 2147483647) :
    int (ε := ε) value = .ok value :=
  within_ok low high

theorem int_bind {β : Type} {value : ℤ} (low : -2147483648 ≤ value) (high : value ≤ 2147483647)
    (next : ℤ → Except (Stop ε) β) : (int value >>= next) = next value :=
  Fallible.bind_ok (int_ok low high) next

end Arithmetic

/-! ## The conversions -/

structure YearMonthDay where
  year : ℤ
  month : ℤ
  day : ℤ
  deriving DecidableEq, Repr

section Conversions

variable {ε : Type}

def getJulianDayNumber (year month day : ℤ) : Except (Stop ε) ℤ := do
  let a := (← int (14 - month)).tdiv 12
  let y ← int ((← int (year + 4800)) - a)
  let m ← int ((← int (month + (← int (12 * a)))) - 3)
  let months ← int (day + (← int ((← int (153 * m)) + 2)).tdiv 5)
  let years ← int (months + (← int (y * 365)))
  let leap ← int ((← int ((← int (years + y.tdiv 4)) - y.tdiv 100)) + y.tdiv 400)
  int (leap - 32045)

def getYearMonthDay (julianDayNumber : ℤ) : Except (Stop ε) YearMonthDay := do
  let a ← int (julianDayNumber + 32044)
  let b := (← int ((← int (4 * a)) + 3)).tdiv 146097
  let c ← int (a - (← int (b * 146097)).tdiv 4)
  let d := (← int ((← int (4 * c)) + 3)).tdiv 1461
  let e ← int (c - (← int (1461 * d)).tdiv 4)
  let m := (← int ((← int (5 * e)) + 2)).tdiv 153
  let day ← int ((← int (e - (← int ((← int (153 * m)) + 2)).tdiv 5)) + 1)
  let month ← int ((← int (m + 3)) - (← int (12 * m.tdiv 10)))
  let year ← int ((← int ((← int ((← int (b * 100)) + d)) - 4800)) + m.tdiv 10)
  return ⟨year, month, day⟩

end Conversions

/-! ## They are the calendar's -/

/-- The Julian day number of a date: that of the first of March of the year 0 is 1721120. -/
def julianDay (date : Calendar.Date) : ℤ :=
  date.number + 1721120

def dateOf (julianDayNumber : ℤ) : Calendar.Date :=
  ofNumber (julianDayNumber - 1721120)

/-- The days from the first of March of the year -4800 on, as far as four times their
number is an `int`. -/
def Covered (julianDayNumber : ℤ) : Prop :=
  -32044 ≤ julianDayNumber ∧ julianDayNumber ≤ 536838867

theorem julianDay_dateOf (julianDayNumber : ℤ) :
    julianDay (dateOf julianDayNumber) = julianDayNumber := by
  rw [julianDay, dateOf, number_ofNumber, Int.sub_add_cancel]

theorem dateOf_julianDay (date : Calendar.Date) : dateOf (julianDay date) = date := by
  rw [julianDay, dateOf, show date.number + 1721120 - 1721120 = date.number by omega,
    ofNumber_number]

theorem dateOf_succ (julianDayNumber : ℤ) :
    dateOf (julianDayNumber + 1) = (dateOf julianDayNumber).next := by
  rw [dateOf, dateOf, show julianDayNumber + 1 - 1721120 = julianDayNumber - 1721120 + 1 by omega,
    ofNumber_succ]

def fields (date : Calendar.Date) : YearMonthDay :=
  ⟨date.year, date.month, date.day⟩

section Correct

variable {ε : Type}

theorem tdiv_eq {value : ℤ} (nonneg : 0 ≤ value) (divisor : ℤ) :
    value.tdiv divisor = value / divisor :=
  Int.tdiv_eq_ediv_of_nonneg nonneg

/-- The fields of a date in the parts that `getYearMonthDay` finds, which counts from
the year -4800 on. -/
theorem fields_dateOf (julianDayNumber : ℤ) :
    let parts := partsOf (julianDayNumber + 32044)
    fields (dateOf julianDayNumber) = ⟨100 * parts.century + parts.year - 4800 + parts.month / 10,
      parts.month + 3 - 12 * (parts.month / 10), parts.day + 1⟩ := by
  have shifted := partsOf_add_cycles (julianDayNumber - 1721120) 12
  rw [show julianDayNumber - 1721120 + 146097 * 12 = julianDayNumber + 32044 by omega] at shifted
  simp only [fields, dateOf, ofNumber, Parts.date, shifted, YearMonthDay.mk.injEq, and_self,
    and_true]
  omega

theorem getYearMonthDay_steps {julianDayNumber a b c d e m k n : ℤ}
    (isA : julianDayNumber + 32044 = a) (isB : (4 * a + 3).tdiv 146097 = b)
    (isC : a - (b * 146097).tdiv 4 = c) (isD : (4 * c + 3).tdiv 1461 = d)
    (isE : c - (1461 * d).tdiv 4 = e) (isM : (5 * e + 2).tdiv 153 = m)
    (isK : (153 * m + 2).tdiv 5 = k) (isN : m.tdiv 10 = n) (inA : 0 ≤ a ∧ a ≤ 536870911)
    (inB : 0 ≤ b ∧ b ≤ 14699) (inC : 0 ≤ c ∧ c ≤ 36524) (inD : 0 ≤ d ∧ d < 100)
    (inE : 0 ≤ e ∧ e ≤ 365) (inM : 0 ≤ m ∧ m < 12) (inK : 0 ≤ k ∧ k ≤ e) (inN : 0 ≤ n ∧ n ≤ 1) :
    getYearMonthDay (ε := ε) julianDayNumber =
      .ok ⟨b * 100 + d - 4800 + n, m + 3 - 12 * n, e - k + 1⟩ := by
  simp (disch := omega) only [getYearMonthDay, ↓int_bind, isA, isB, isC, isD, isE, isM, isK, isN]
  rfl

/-- On a covered day no operation leaves the range of `int`, and rounding towards zero
is rounding down. -/
theorem getYearMonthDay_eq {julianDayNumber : ℤ} (covered : Covered julianDayNumber) :
    getYearMonthDay (ε := ε) julianDayNumber = .ok (fields (dateOf julianDayNumber)) := by
  rcases covered with ⟨low, high⟩
  rw [fields_dateOf]
  generalize days : julianDayNumber + 32044 = number
  have inNumber : 0 ≤ number ∧ number ≤ 536870911 := by omega
  have inCenturies : 0 ≤ centuryOf number ∧ centuryOf number ≤ 14699 := by
    unfold centuryOf
    omega
  rcases inCentury_bounds (rfl : _ = number - 146097 * centuryOf number / 4) with
    ⟨lowCentury, highCentury, _⟩
  generalize placed : number - 146097 * centuryOf number / 4 = inCentury at *
  rcases yearOf_bounds lowCentury highCentury with ⟨lowYear, highYear⟩
  rcases inYear_bounds (rfl : _ = inCentury - 1461 * yearOf inCentury / 4) with
    ⟨lowDay, highDay, _⟩
  generalize placedDay : inCentury - 1461 * yearOf inCentury / 4 = inYear at *
  rcases monthOf_bounds lowDay highDay with ⟨lowMonth, highMonth, lowRest, highRest, _⟩
  have before : 0 ≤ daysBefore (monthOf inYear) := by
    unfold daysBefore
    omega
  have steps := getYearMonthDay_steps (ε := ε) days (tdiv_eq (by omega) _)
    (by rw [tdiv_eq (by omega), Int.mul_comm]; exact placed) (tdiv_eq (by omega) _)
    (by rw [tdiv_eq (by omega)]; exact placedDay) (tdiv_eq (by omega) _) (tdiv_eq (by omega) _)
    (tdiv_eq (by omega) _) inNumber inCenturies ⟨lowCentury, highCentury⟩ ⟨lowYear, highYear⟩
    ⟨lowDay, highDay⟩ ⟨lowMonth, highMonth⟩ ⟨before, lowRest⟩ ⟨by omega, by omega⟩
  simp only [steps, partsOf, placed, placedDay, Except.ok.injEq, YearMonthDay.mk.injEq]
  refine ⟨?_, rfl, rfl⟩
  change centuryOf number * 100 + yearOf inCentury - 4800 + monthOf inYear / 10 = _
  omega

theorem march (date : Calendar.Date) :
    100 * date.parts.century + date.parts.year = date.year - (14 - date.month) / 12 ∧
      date.parts.month = date.month + 12 * ((14 - date.month) / 12) - 3 ∧
      date.parts.day = date.day - 1 := by
  have low := date.month_pos
  have high := date.month_le
  by_cases early : date.month ≤ 2
  · have quotient : (14 - date.month) / 12 = 1 := by omega
    simp only [Date.parts, if_pos early, quotient, and_true]
    omega
  · have quotient : (14 - date.month) / 12 = 0 := by omega
    simp only [Date.parts, if_neg early, quotient, and_true]
    omega

theorem getJulianDayNumber_steps {year month day a y m : ℤ} (isA : (14 - month).tdiv 12 = a)
    (isY : year + 4800 - a = y) (isM : month + 12 * a - 3 = m) (inMonth : 1 ≤ month ∧ month ≤ 12)
    (inDay : 1 ≤ day ∧ day ≤ 31) (inA : 0 ≤ a ∧ a ≤ 1) (inY : 0 ≤ y ∧ y ≤ 5000000)
    (inM : 0 ≤ m ∧ m < 12) :
    getJulianDayNumber (ε := ε) year month day =
      .ok (day + daysBefore m + daysBeforeYear y - 32045) := by
  have months : (153 * m + 2).tdiv 5 = daysBefore m := tdiv_eq (by omega) _
  have fourth : y.tdiv 4 = y / 4 := tdiv_eq inY.1 _
  have hundredth : y.tdiv 100 = y / 100 := tdiv_eq inY.1 _
  have last : y.tdiv 400 = y / 400 := tdiv_eq inY.1 _
  have inBefore : 0 ≤ daysBefore m ∧ daysBefore m ≤ 337 := by
    unfold daysBefore
    omega
  simp (disch := omega) only [getJulianDayNumber, ↓int_bind, isA, isY, isM, months, fourth,
    hundredth, last]
  rw [int_ok (by omega) (by omega), daysBeforeYear]
  congr 1
  omega

theorem daysBeforeYear_cycles (year : ℤ) :
    daysBeforeYear (year + 4800) = daysBeforeYear year + 1753164 := by
  unfold daysBeforeYear
  omega

theorem year_of_covered {year rest : ℤ} (low : 0 ≤ daysBeforeYear year + rest)
    (high : daysBeforeYear year + rest ≤ 536870911) (nonneg : 0 ≤ rest) (inside : rest ≤ 365) :
    0 ≤ year ∧ year ≤ 5000000 := by
  unfold daysBeforeYear at *
  have early : year < 0 → year / 4 ≤ year / 100 ∧ year / 400 ≤ -1 := by omega
  omega

theorem getJulianDayNumber_eq {date : Calendar.Date} (covered : Covered (julianDay date)) :
    getJulianDayNumber (ε := ε) date.year date.month date.day = .ok (julianDay date) := by
  rcases covered with ⟨low, high⟩
  have regular := date.parts_regular
  have lowMonth := date.month_pos
  have highMonth := date.month_le
  have inDay : 1 ≤ date.day ∧ date.day ≤ 31 :=
    ⟨date.day_pos, Int.le_trans date.day_le (daysInMonth_le ..)⟩
  have lowRest := regular.day_nonneg
  rcases regular.inYear_bounds with ⟨before, inYear, _⟩
  rcases march date with ⟨year, month, day⟩
  rw [month] at before
  rw [month, day] at inYear
  rw [day] at lowRest
  rw [julianDay, ← Date.parts_number, Parts.number, year, month, day] at low high ⊢
  have cycles := daysBeforeYear_cycles (date.year - (14 - date.month) / 12)
  have inYears := @year_of_covered (date.year - (14 - date.month) / 12 + 4800)
    (daysBefore (date.month + 12 * ((14 - date.month) / 12) - 3) + (date.day - 1))
    (by omega) (by omega) (by omega) inYear
  rw [getJulianDayNumber_steps (tdiv_eq (by omega) _) rfl rfl ⟨lowMonth, highMonth⟩ inDay
    ⟨by omega, by omega⟩ (by omega) ⟨by omega, by omega⟩]
  congr 1
  rw [show date.year + 4800 - (14 - date.month) / 12 =
    date.year - (14 - date.month) / 12 + 4800 by omega, cycles]
  omega

/-- The conversions are inverse to each other on the covered days, and from one day to
the next they follow the calendar. -/
theorem getYearMonthDay_round_trip {julianDayNumber : ℤ} (covered : Covered julianDayNumber) :
    ∃ date : Calendar.Date,
      getYearMonthDay (ε := ε) julianDayNumber = .ok (fields date) ∧
      getJulianDayNumber (ε := ε) date.year date.month date.day = .ok julianDayNumber ∧
      (Covered (julianDayNumber + 1) →
        getYearMonthDay (ε := ε) (julianDayNumber + 1) = .ok (fields date.next)) ∧
      ∀ other : Calendar.Date, Covered (julianDay other) →
        getJulianDayNumber (ε := ε) other.year other.month other.day = .ok julianDayNumber →
        other = date := by
  refine ⟨dateOf julianDayNumber, getYearMonthDay_eq covered, ?_, ?_, ?_⟩
  · have back := @getJulianDayNumber_eq ε (dateOf julianDayNumber)
      (by rw [julianDay_dateOf]; exact covered)
    rwa [julianDay_dateOf] at back
  · intro following
    rw [getYearMonthDay_eq following, ← dateOf_succ]
  · intro other inside converts
    rw [getJulianDayNumber_eq inside, Except.ok.injEq] at converts
    rw [← converts, dateOf_julianDay]

end Correct

/-- The first of January of 1970 is day 2440588. -/
theorem getYearMonthDay_round_trip_epoch :
    ∃ date : Calendar.Date,
      getYearMonthDay (ε := Empty) 2440588 = .ok (fields date) ∧
      getJulianDayNumber (ε := Empty) date.year date.month date.day = .ok 2440588 ∧
      fields date = ⟨1970, 1, 1⟩ := by
  have covered : Covered 2440588 := ⟨by decide, by decide⟩
  rcases getYearMonthDay_round_trip (ε := Empty) covered with ⟨date, first, second, _⟩
  refine ⟨date, first, second, ?_⟩
  have computed : getYearMonthDay (ε := Empty) 2440588 = .ok ⟨1970, 1, 1⟩ := rfl
  rw [computed, Except.ok.injEq] at first
  exact first.symm

/-! ## The class -/

structure Date where
  julianDayNumber : ℤ
  deriving DecidableEq, Repr

namespace Date

variable {ε : Type}

/-- `Date(int y, int m, int d)`. -/
def ofYearMonthDay (y m d : ℤ) : Except (Stop ε) Date := do
  return ⟨← getJulianDayNumber y m d⟩

def valid (date : Date) : Bool :=
  decide (date.julianDayNumber > 0)

def yearMonthDay (date : Date) : Except (Stop ε) YearMonthDay :=
  getYearMonthDay date.julianDayNumber

def kDaysPerWeek : ℤ := 7

/-- Sunday is 0. -/
def weekDay (date : Date) : Except (Stop ε) ℤ := do
  return (← int (date.julianDayNumber + 1)).tmod kDaysPerWeek

/-- `getJulianDayNumber(1970, 1, 1)`. -/
def kJulianDayOf1970_01_01 : ℤ := 2440588

theorem kJulianDayOf1970_01_01_eq :
    getJulianDayNumber (ε := ε) 1970 1 1 = .ok kJulianDayOf1970_01_01 :=
  rfl

end Date

end Lctools.Muduo
