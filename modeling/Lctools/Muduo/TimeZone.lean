import Lctools.Muduo.Date

/-! # `muduo/base/TimeZone`

Times of day in UTC and in a zone that is read from a file.
-/

namespace Lctools.Muduo

open Calendar Numerals Overflow

structure Tm where
  sec : ℤ
  min : ℤ
  hour : ℤ
  mday : ℤ
  mon : ℤ
  year : ℤ
  wday : ℤ
  yday : ℤ
  isdst : Bool
  gmtoff : ℤ
  zone : List Char
  deriving DecidableEq, Repr

def kSecondsPerDay : ℤ := 24 * 60 * 60

/-! ## UTC -/

section Utc

variable {ε : Type}

/-- `fillHMS`, which computes with `unsigned`. -/
def fillHMS (seconds : ℤ) (utc : Tm) : Tm :=
  let minutes := seconds / 60
  { utc with sec := seconds % 60, min := minutes % 60, hour := minutes / 60 }

/-- A `struct tm` after `bzero`. -/
def Tm.zero : Tm :=
  ⟨0, 0, 0, 0, 0, 0, 0, 0, false, 0, []⟩

/-- The `seconds` and `days` of `toUtcTime`. -/
def secondsAndDays (secondsSinceEpoch : ℤ) : Except (Stop ε) (ℤ × ℤ) :=
  let seconds := wrapSigned 32 (secondsSinceEpoch.tmod kSecondsPerDay)
  let days := wrapSigned 32 (secondsSinceEpoch.tdiv kSecondsPerDay)
  if seconds < 0 then do
    return (← int (seconds + kSecondsPerDay), ← int (days - 1))
  else .ok (seconds, days)

def toUtcTime (secondsSinceEpoch : ℤ) (yday : Bool) : Except (Stop ε) Tm := do
  let utc := { Tm.zero with zone := "GMT".toList }
  let (seconds, days) ← secondsAndDays secondsSinceEpoch
  let utc := fillHMS (wrapUnsigned 32 seconds) utc
  let date : Date := ⟨← int (days + Date.kJulianDayOf1970_01_01)⟩
  let ymd ← date.yearMonthDay
  let utc := { utc with
    year := ← int (ymd.year - 1900)
    mon := ← int (ymd.month - 1)
    mday := ymd.day
    wday := ← date.weekDay }
  if yday then
    let startOfYear ← Date.ofYearMonthDay ymd.year 1 1
    return { utc with yday := ← int (date.julianDayNumber - startOfYear.julianDayNumber) }
  else return utc

/-- `fromUtcTime(int year, .., int seconds)`. -/
def fromYearToSeconds (year month day hour minute seconds : ℤ) : Except (Stop ε) ℤ := do
  let date ← Date.ofYearMonthDay year month day
  let secondsInDay ← int ((← int ((← int (hour * 3600)) + (← int (minute * 60)))) + seconds)
  let days ← int (date.julianDayNumber - Date.kJulianDayOf1970_01_01)
  return days * kSecondsPerDay + secondsInDay

def fromUtcTime (utc : Tm) : Except (Stop ε) ℤ := do
  fromYearToSeconds (← int (utc.year + 1900)) (← int (utc.mon + 1)) utc.mday utc.hour utc.min
    utc.sec

end Utc

/-- The broken-down time that `gmtime_r` is documented to give: the days since the first of
January of 1970 as a date, and what is left of the last one. -/
def gmtime (seconds : ℤ) : Tm :=
  let days := seconds / 86400
  let rest := seconds % 86400
  let date := ofNumber (days + 719468)
  { sec := rest % 60
    min := rest / 60 % 60
    hour := rest / 3600
    mday := date.day
    mon := date.month - 1
    year := date.year - 1900
    wday := (days + 4) % 7
    yday := date.number - dayNumber date.year 1 1
    isdst := false
    gmtoff := 0
    zone := "GMT".toList }

/-- The times whose day is a valid `Date` that the conversions cover. -/
def Representable (seconds : ℤ) : Prop :=
  0 < seconds / 86400 + 2440588 ∧ seconds / 86400 + 2440588 ≤ 536838867

section Correct

variable {ε : Type}

theorem tdiv_tmod_bounds {seconds : ℤ} (representable : Representable seconds) :
    86400 * seconds.tdiv 86400 + seconds.tmod 86400 = seconds ∧
      (-86400 < seconds.tmod 86400 ∧ seconds.tmod 86400 < 86400) ∧
      -2440588 ≤ seconds.tdiv 86400 ∧ seconds.tdiv 86400 ≤ 534398280 := by
  rcases representable with ⟨low, high⟩
  have whole := Int.mul_tdiv_add_tmod seconds 86400
  have below := Int.lt_tmod_of_pos seconds (show (0 : ℤ) < 86400 by decide)
  have above := Int.tmod_lt_of_pos seconds (show (0 : ℤ) < 86400 by decide)
  refine ⟨whole, ⟨below, above⟩, ?_, ?_⟩
  · omega
  · omega

/-- The correction for times before 1970 makes the division of C one by whole days. -/
theorem secondsAndDays_eq {seconds : ℤ} (representable : Representable seconds) :
    secondsAndDays (ε := ε) seconds = .ok (seconds % 86400, seconds / 86400) := by
  have perDay : kSecondsPerDay = 86400 := rfl
  rcases tdiv_tmod_bounds representable with ⟨whole, ⟨below, above⟩, low, high⟩
  have remainder : wrapSigned 32 (seconds.tmod 86400) = seconds.tmod 86400 :=
    wrapSigned_of_mem ⟨by norm_num; omega, by norm_num; omega⟩
  have quotient : wrapSigned 32 (seconds.tdiv 86400) = seconds.tdiv 86400 :=
    wrapSigned_of_mem ⟨by norm_num; omega, by norm_num; omega⟩
  rw [secondsAndDays, perDay, remainder, quotient]
  by_cases early : seconds.tmod 86400 < 0
  · rw [if_pos early, int_bind (by omega) (by omega), int_bind (by omega) (by omega)]
    congr 2
    · omega
    · omega
  · rw [if_neg early]
    congr 2
    · omega
    · omega

theorem wrapUnsigned_rest (seconds : ℤ) : wrapUnsigned 32 (seconds % 86400) = seconds % 86400 :=
  wrapUnsigned_of_mem ⟨by omega, by norm_num; omega⟩

theorem weekDay_eq {julianDayNumber : ℤ} (low : 0 < julianDayNumber)
    (high : julianDayNumber ≤ 536838867) :
    Date.weekDay (ε := ε) ⟨julianDayNumber⟩ = .ok ((julianDayNumber + 1) % 7) := by
  rw [Date.weekDay, int_bind (by simp only; omega) (by simp only; omega),
    Int.tmod_eq_emod_of_nonneg (by simp only; omega)]
  rfl

theorem startOfYear_covered {date : Calendar.Date} (low : 0 < julianDay date)
    (high : julianDay date ≤ 536838867) : Covered (julianDay date.startOfYear) := by
  have yday := date.yday_bounds
  unfold Covered julianDay at *
  omega

theorem year_bounds {date : Calendar.Date} (covered : Covered (julianDay date)) :
    -4800 ≤ date.year ∧ date.year ≤ 5000000 := by
  rcases covered with ⟨low, high⟩
  have regular := date.parts_regular
  have nonneg := regular.day_nonneg
  rcases regular.inYear_bounds with ⟨before, inYear, _⟩
  rcases march date with ⟨year, _, _⟩
  have first := date.month_pos
  have last := date.month_le
  rw [julianDay, ← Date.parts_number, Parts.number, year, Int.add_assoc] at low high
  have cycles := daysBeforeYear_cycles (date.year - (14 - date.month) / 12)
  have inYears := @year_of_covered (date.year - (14 - date.month) / 12 + 4800)
    (daysBefore date.parts.month + date.parts.day) (by omega) (by omega) (by omega) inYear
  omega

theorem toUtcTime_eq {seconds : ℤ} (representable : Representable seconds) :
    toUtcTime (ε := ε) seconds true = .ok (gmtime seconds) := by
  have divided := secondsAndDays_eq (ε := ε) representable
  rcases representable with ⟨low, high⟩
  have covered : Covered (seconds / 86400 + 2440588) := ⟨by omega, high⟩
  have converted := getYearMonthDay_eq (ε := ε) covered
  have wday := weekDay_eq (ε := ε) low high
  have day := julianDay_dateOf (seconds / 86400 + 2440588)
  generalize dateOf (seconds / 86400 + 2440588) = date at converted day
  rw [← day] at low high covered
  have start := getJulianDayNumber_eq (ε := ε) (startOfYear_covered low high)
  rcases year_bounds covered with ⟨lowYear, highYear⟩
  have lowMonth := date.month_pos
  have highMonth := date.month_le
  have yday := date.yday_bounds
  have number : date.number = seconds / 86400 + 719468 := by
    rw [julianDay] at day
    omega
  have fromStart : seconds / 86400 + 2440588 - julianDay date.startOfYear =
      date.number - date.startOfYear.number := by
    rw [julianDay, number]
    omega
  rw [toUtcTime, Fallible.bind_ok divided]
  simp only [wrapUnsigned_rest, Date.kJulianDayOf1970_01_01]
  rw [int_bind (by omega) (by omega), Date.yearMonthDay]
  simp only
  rw [Fallible.bind_ok converted]
  simp only [fields]
  rw [int_bind (by omega) (by omega), int_bind (by omega) (by omega), Fallible.bind_ok wday]
  simp only [if_true, Date.ofYearMonthDay]
  change ((getJulianDayNumber date.startOfYear.year date.startOfYear.month date.startOfYear.day >>=
    fun number => pure (⟨number⟩ : Date)) >>= _) = _
  rw [Fallible.bind_ok start]
  change (int (seconds / 86400 + 2440588 - julianDay date.startOfYear) >>= _) = _
  rw [fromStart, int_bind (by omega) (by omega), gmtime, ← number, ofNumber_number]
  change Except.ok _ = Except.ok _
  congr 2
  · rw [fillHMS]
    simp only
    omega
  · omega

theorem fromYearToSeconds_eq {date : Calendar.Date} {hour minute seconds : ℤ}
    (covered : Covered (julianDay date)) (inHour : 0 ≤ hour ∧ hour < 24)
    (inMinute : 0 ≤ minute ∧ minute < 60) (inSeconds : 0 ≤ seconds ∧ seconds < 60) :
    fromYearToSeconds (ε := ε) date.year date.month date.day hour minute seconds =
      .ok ((julianDay date - 2440588) * 86400 + (hour * 3600 + minute * 60 + seconds)) := by
  rcases covered with ⟨low, high⟩
  rw [fromYearToSeconds, Date.ofYearMonthDay, Fallible.bind_ok (getJulianDayNumber_eq ⟨low, high⟩)]
  change (int (hour * 3600) >>= _) = _
  rw [int_bind (by omega) (by omega), int_bind (by omega) (by omega),
    int_bind (by omega) (by omega), int_bind (by omega) (by omega), Date.kJulianDayOf1970_01_01,
    int_bind (by simp only; omega) (by simp only; omega)]
  rfl

theorem fromUtcTime_gmtime {seconds : ℤ} (representable : Representable seconds) :
    fromUtcTime (ε := ε) (gmtime seconds) = .ok seconds := by
  rcases representable with ⟨low, high⟩
  have number := number_ofNumber (seconds / 86400 + 719468)
  rw [gmtime]
  generalize ofNumber (seconds / 86400 + 719468) = date at *
  have day : julianDay date = seconds / 86400 + 2440588 := by
    rw [julianDay, number]
    omega
  have covered : Covered (julianDay date) := by
    rw [day]
    exact ⟨by omega, high⟩
  rcases year_bounds covered with ⟨lowYear, highYear⟩
  have lowMonth := date.month_pos
  have highMonth := date.month_le
  rw [fromUtcTime]
  simp only [Int.sub_add_cancel]
  rw [int_bind (by omega) (by omega), int_bind (by omega) (by omega),
    fromYearToSeconds_eq covered ⟨by omega, by omega⟩ ⟨by omega, by omega⟩ ⟨by omega, by omega⟩,
    day]
  congr 1
  omega

theorem gmtime_fromYearToSeconds {date : Calendar.Date} {hour minute seconds : ℤ}
    (inHour : 0 ≤ hour ∧ hour < 24) (inMinute : 0 ≤ minute ∧ minute < 60)
    (inSeconds : 0 ≤ seconds ∧ seconds < 60) :
    let utc := gmtime ((julianDay date - 2440588) * 86400 +
      (hour * 3600 + minute * 60 + seconds))
    (utc.year + 1900, utc.mon + 1, utc.mday, utc.hour, utc.min, utc.sec) =
      (date.year, date.month, date.day, hour, minute, seconds) := by
  have days : ((julianDay date - 2440588) * 86400 + (hour * 3600 + minute * 60 + seconds)) / 86400 +
      719468 = date.number := by
    rw [julianDay]
    omega
  have rest : ((julianDay date - 2440588) * 86400 + (hour * 3600 + minute * 60 + seconds)) % 86400 =
      hour * 3600 + minute * 60 + seconds := by
    omega
  simp only [gmtime, days, rest, ofNumber_number, Int.sub_add_cancel, Prod.mk.injEq, true_and]
  omega

/-- On every time whose day is a valid `Date` that is small enough, `toUtcTime` is
`gmtime_r`, and `fromUtcTime` is its inverse in both directions. -/
theorem toUtcTime_round_trip {seconds : ℤ} (representable : Representable seconds) :
    toUtcTime (ε := ε) seconds true = .ok (gmtime seconds) ∧
      fromUtcTime (ε := ε) (gmtime seconds) = .ok seconds ∧
      ∀ (date : Calendar.Date) (hour minute second : ℤ), Covered (julianDay date) →
        0 ≤ hour ∧ hour < 24 → 0 ≤ minute ∧ minute < 60 → 0 ≤ second ∧ second < 60 →
        (fromYearToSeconds (ε := ε) date.year date.month date.day hour minute second = .ok seconds ↔
          date.year = (gmtime seconds).year + 1900 ∧ date.month = (gmtime seconds).mon + 1 ∧
            date.day = (gmtime seconds).mday ∧ hour = (gmtime seconds).hour ∧
            minute = (gmtime seconds).min ∧ second = (gmtime seconds).sec) := by
  refine ⟨toUtcTime_eq representable, fromUtcTime_gmtime representable, ?_⟩
  intro date hour minute second covered inHour inMinute inSecond
  rw [fromYearToSeconds_eq covered inHour inMinute inSecond]
  constructor
  · intro same
    rw [Except.ok.injEq] at same
    have parts := @gmtime_fromYearToSeconds date hour minute second inHour inMinute inSecond
    rw [same] at parts
    simp only [Prod.mk.injEq] at parts
    rcases parts with ⟨year, month, day, hours, minutes, rest⟩
    exact ⟨year.symm, month.symm, day.symm, hours.symm, minutes.symm, rest.symm⟩
  · rintro ⟨year, month, day, rfl, rfl, rfl⟩
    have same : date = ofNumber (seconds / 86400 + 719468) := by
      apply Calendar.Date.ext
      · rw [year, gmtime, Int.sub_add_cancel]
      · rw [month, gmtime, Int.sub_add_cancel]
      · exact day
    rw [same, julianDay, number_ofNumber]
    simp only [gmtime, Except.ok.injEq]
    omega

end Correct

/-- The last second before 1970. -/
theorem toUtcTime_round_trip_negative :
    toUtcTime (ε := Empty) (-1) true = .ok (gmtime (-1)) ∧
      fromUtcTime (ε := Empty) (gmtime (-1)) = .ok (-1) ∧
      gmtime (-1) = ⟨59, 59, 23, 31, 11, 69, 3, 364, false, 0, "GMT".toList⟩ := by
  have representable : Representable (-1) := ⟨by decide, by decide⟩
  rcases toUtcTime_round_trip (ε := Empty) representable with ⟨first, second, _⟩
  exact ⟨first, second, rfl⟩

end Lctools.Muduo
