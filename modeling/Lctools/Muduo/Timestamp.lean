import Lctools.Foundation.FixedWidth
import Lctools.Muduo.TimeZone

/-! # `muduo/base/Timestamp`

A time in microseconds, and the texts of it that are written to a log.
-/

namespace Lctools.Muduo

open Calendar CString FixedWidth Numerals

/-- `%wd`. -/
def spacePadded (width : ℕ) (value : ℤ) : List Char :=
  List.replicate (width - (decimalInt value).length) ' ' ++ decimalInt value

/-- `%0wd`. -/
def zeroPadded (width : ℕ) : (value : ℤ) → List Char
  | .ofNat value => padded width value
  | .negSucc value => '-' :: padded (width - 1) (value + 1)

structure Timestamp where
  microSecondsSinceEpoch : ℤ
  deriving DecidableEq, Repr

namespace Timestamp

def kMicroSecondsPerSecond : ℤ := 1000 * 1000

def secondsSinceEpoch (time : Timestamp) : ℤ :=
  time.microSecondsSinceEpoch.tdiv kMicroSecondsPerSecond

def microseconds (time : Timestamp) : ℤ :=
  time.microSecondsSinceEpoch.tmod kMicroSecondsPerSecond

def toString (time : Timestamp) : List Char :=
  snprintf 31 (decimalInt time.secondsSinceEpoch ++ ['.'] ++ zeroPadded 6 time.microseconds)

/-- The date and the time of day, `%4d%02d%02d %02d:%02d:%02d`. -/
def dateTime (tm : Tm) : List Char :=
  spacePadded 4 (tm.year + 1900) ++ zeroPadded 2 (tm.mon + 1) ++ zeroPadded 2 tm.mday ++ [' '] ++
    zeroPadded 2 tm.hour ++ [':'] ++ zeroPadded 2 tm.min ++ [':'] ++ zeroPadded 2 tm.sec

def toFormattedString (time : Timestamp) (showMicroseconds : Bool) : List Char :=
  let tm := gmtime time.secondsSinceEpoch
  if showMicroseconds then
    snprintf 32 (dateTime tm ++ ['.'] ++ zeroPadded 6 time.microseconds)
  else snprintf 32 (dateTime tm)

/-! ## The order of the texts -/

/-- The times from 1970 on, up to the end of the year 9999. -/
def InRange (time : Timestamp) : Prop :=
  0 ≤ time.microSecondsSinceEpoch ∧ time.microSecondsSinceEpoch < 253402300800 * 1000000

def fields : List Field :=
  [⟨4, by decide, []⟩, ⟨2, by decide, []⟩, ⟨2, by decide, [' ']⟩, ⟨2, by decide, [':']⟩,
    ⟨2, by decide, [':']⟩, ⟨2, by decide, ['.']⟩, ⟨6, by decide, []⟩]

def values (time : Timestamp) : List ℕ :=
  let seconds := time.microSecondsSinceEpoch / 1000000
  let date := ofNumber (seconds / 86400 + 719468)
  let rest := seconds % 86400
  [date.year.toNat, date.month.toNat, date.day.toNat, (rest / 3600).toNat, (rest / 60 % 60).toNat,
    (rest % 60).toNat, (time.microSecondsSinceEpoch % 1000000).toNat]

section Order

variable {time : Timestamp}

theorem year_of_inRange (inRange : time.InRange) {date : Calendar.Date}
    (here : ofNumber (time.microSecondsSinceEpoch / 1000000 / 86400 + 719468) = date) :
    1970 ≤ date.year ∧ date.year < 10000 := by
  rcases inRange with ⟨low, high⟩
  have eve : (ofNumber 719467).year = 1969 ∧ (ofNumber 719467).month = 12 ∧
      (ofNumber 719467).day = 31 := ⟨rfl, rfl, rfl⟩
  have end_eq : (ofNumber 3652365).year = 10000 ∧ (ofNumber 3652365).month = 1 ∧
      (ofNumber 3652365).day = 1 := ⟨rfl, rfl, rfl⟩
  have after := @ofNumber_before 719467
    (time.microSecondsSinceEpoch / 1000000 / 86400 + 719468) (by omega)
  have before := @ofNumber_before (time.microSecondsSinceEpoch / 1000000 / 86400 + 719468)
    3652365 (by omega)
  rw [here, Calendar.Date.Before] at after before
  have month := date.month_pos
  have lastMonth := date.month_le
  have day := date.day_pos
  have lastDay := Int.le_trans date.day_le (daysInMonth_le _ _)
  omega

theorem spacePadded_four {year : ℤ} (low : 1000 ≤ year) (high : year < 10000) :
    spacePadded 4 year = padded 4 year.toNat := by
  have cast : year = Int.ofNat year.toNat := by
    rw [Int.ofNat_eq_natCast]
    omega
  have text : decimalInt year = decimal year.toNat := by
    rw [cast]
    rfl
  have short : (decimal year.toNat).length ≤ 4 :=
    (Nat.length_toDigits_le_iff (by decide) (by decide)).mpr (by omega)
  have long : ¬(decimal year.toNat).length ≤ 3 :=
    (Nat.length_toDigits_le_iff (by decide) (by decide)).not.mpr (by omega)
  have full : 4 - (decimal year.toNat).length = 0 := by omega
  rw [spacePadded, padded, text, full]
  rfl

theorem zeroPadded_of_nonneg {width : ℕ} {value : ℤ} (nonneg : 0 ≤ value) :
    zeroPadded width value = padded width value.toNat := by
  rcases Int.eq_ofNat_of_zero_le nonneg with ⟨number, rfl⟩
  rfl

theorem values_fit (inRange : time.InRange) : Fit fields time.values := by
  have year := year_of_inRange inRange rfl
  have month := (ofNumber (time.microSecondsSinceEpoch / 1000000 / 86400 + 719468)).month_le
  have day := Int.le_trans
    (ofNumber (time.microSecondsSinceEpoch / 1000000 / 86400 + 719468)).day_le
    (daysInMonth_le _ _)
  rcases inRange with ⟨low, high⟩
  refine .cons ?_ (.cons ?_ (.cons ?_ (.cons ?_ (.cons ?_ (.cons ?_ (.cons ?_ .nil))))))
  all_goals
    simp only [Nat.reducePow]
    omega

theorem toFormattedString_eq (inRange : time.InRange) :
    time.toFormattedString true = texts fields time.values := by
  have length : (texts fields time.values).length = 24 := length_texts (values_fit inRange)
  have year := year_of_inRange inRange rfl
  rcases inRange with ⟨low, high⟩
  have seconds : time.secondsSinceEpoch = time.microSecondsSinceEpoch / 1000000 :=
    Int.tdiv_eq_ediv_of_nonneg low
  have micros : time.microseconds = time.microSecondsSinceEpoch % 1000000 :=
    Int.tmod_eq_emod_of_nonneg low
  have printed :
      dateTime (gmtime time.secondsSinceEpoch) ++ ['.'] ++ zeroPadded 6 time.microseconds =
      texts fields time.values := by
    have month := (ofNumber (time.microSecondsSinceEpoch / 1000000 / 86400 + 719468)).month_pos
    have day := (ofNumber (time.microSecondsSinceEpoch / 1000000 / 86400 + 719468)).day_pos
    rw [seconds, micros, dateTime, gmtime]
    simp only [Int.sub_add_cancel]
    rw [spacePadded_four (by omega) year.2, zeroPadded_of_nonneg (by omega),
      zeroPadded_of_nonneg (by omega), zeroPadded_of_nonneg (by omega),
      zeroPadded_of_nonneg (by omega), zeroPadded_of_nonneg (by omega),
      zeroPadded_of_nonneg (by omega)]
    simp only [texts, fields, values, Field.text, List.append_assoc, List.append_nil]
  rw [toFormattedString]
  simp only [if_true]
  rw [printed, snprintf, List.take_of_length_le (by omega)]

theorem clock_lt {rest other : ℤ} (nonneg : 0 ≤ rest) (less : rest < other) :
    (rest / 3600).toNat < (other / 3600).toNat ∨ (rest / 3600).toNat = (other / 3600).toNat ∧
      ((rest / 60 % 60).toNat < (other / 60 % 60).toNat ∨
        (rest / 60 % 60).toNat = (other / 60 % 60).toNat ∧
          (rest % 60).toNat < (other % 60).toNat) := by
  omega

theorem values_lt {first second : Timestamp} (firstIn : first.InRange) (secondIn : second.InRange)
    (less : first.microSecondsSinceEpoch < second.microSecondsSinceEpoch) :
    first.values < second.values := by
  have firstYear := year_of_inRange firstIn rfl
  have secondYear := year_of_inRange secondIn rfl
  rcases firstIn with ⟨low, high⟩
  rw [values, values]
  generalize first.microSecondsSinceEpoch = micros at *
  generalize second.microSecondsSinceEpoch = others at *
  simp only [List.cons_lt_cons_iff]
  rcases Int.lt_or_le (micros / 1000000 / 86400) (others / 1000000 / 86400) with later | notLater
  · -- Another day.
    have before := @ofNumber_before (micros / 1000000 / 86400 + 719468)
      (others / 1000000 / 86400 + 719468) (by omega)
    generalize ofNumber (micros / 1000000 / 86400 + 719468) = date at *
    generalize ofNumber (others / 1000000 / 86400 + 719468) = other at *
    have month := date.month_pos
    have otherMonth := other.month_pos
    have day := date.day_pos
    have otherDay := other.day_pos
    rcases before with year | ⟨year, month | ⟨month, day⟩⟩
    · exact .inl (by omega)
    · exact .inr ⟨by omega, .inl (by omega)⟩
    · exact .inr ⟨by omega, .inr ⟨by omega, .inl (by omega)⟩⟩
  · have sameDay : micros / 1000000 / 86400 = others / 1000000 / 86400 := by omega
    refine .inr ⟨by rw [sameDay], .inr ⟨by rw [sameDay], .inr ⟨by rw [sameDay], ?_⟩⟩⟩
    rcases Int.lt_or_le (micros / 1000000) (others / 1000000) with later | notLater
    · -- Another second of the day.
      rcases @clock_lt (micros / 1000000 % 86400) (others / 1000000 % 86400) (by omega) (by omega)
        with hour | ⟨hour, minute | ⟨minute, second⟩⟩
      · exact .inl hour
      · exact .inr ⟨hour, .inl minute⟩
      · exact .inr ⟨hour, .inr ⟨minute, .inl second⟩⟩
    · have sameSecond : micros / 1000000 = others / 1000000 := by omega
      refine .inr ⟨by rw [sameSecond], .inr ⟨by rw [sameSecond], .inr ⟨by rw [sameSecond], ?_⟩⟩⟩
      exact .inl (by omega)

/-- From 1970 up to the year 9999 the texts have the order of the times. -/
theorem toFormattedString_lt_iff {first second : Timestamp} (firstIn : first.InRange)
    (secondIn : second.InRange) :
    first.toFormattedString true < second.toFormattedString true ↔
      first.microSecondsSinceEpoch < second.microSecondsSinceEpoch := by
  have forward : ∀ {earlier later : Timestamp}, earlier.InRange → later.InRange →
      earlier.microSecondsSinceEpoch < later.microSecondsSinceEpoch →
      earlier.toFormattedString true < later.toFormattedString true := by
    intro earlier later earlierIn laterIn less
    rw [toFormattedString_eq earlierIn, toFormattedString_eq laterIn]
    exact texts_lt (values_fit earlierIn) (values_fit laterIn) (values_lt earlierIn laterIn less)
  constructor
  · intro less
    apply Int.lt_of_not_ge
    intro notLess
    rcases Int.lt_or_eq_of_le notLess with greater | equal
    · exact List.lt_asymm less (forward secondIn firstIn greater)
    · have same : first = second := by
        rcases first with ⟨micros⟩
        cases equal
        rfl
      rw [same] at less
      exact List.lt_irrefl _ less
  · exact forward firstIn secondIn

end Order

/-- The first two microseconds. -/
theorem toFormattedString_lt_iff_sample :
    (⟨0⟩ : Timestamp).toFormattedString true < (⟨1⟩ : Timestamp).toFormattedString true :=
  (toFormattedString_lt_iff ⟨by decide, by decide⟩ ⟨by decide, by decide⟩).mpr (by decide)

end Timestamp

end Lctools.Muduo
