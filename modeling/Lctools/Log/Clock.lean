import Lctools.Foundation.Numerals

/-! # The cached wall clock

`log/iridiumSysLog/get_localtime`: a thread stores the broken-down local time in
`iridium_tm_now`, and `get_localtime` copies it, or the copy made last when the
lock is taken.
-/

namespace Lctools.Log

open CString Numerals

/-- `struct tm` with the ranges that `localtime_r` guarantees; `memset` clears
`tm_mday` too. -/
structure Tm where
  year : ℕ
  mon : ℕ
  mday : ℕ
  hour : ℕ
  min : ℕ
  sec : ℕ
  yearBounded : year + 1900 < 2 ^ 31
  monBounded : mon ≤ 11
  mdayBounded : mday ≤ 31
  hourBounded : hour ≤ 23
  minBounded : min ≤ 59
  secBounded : sec ≤ 60
  deriving DecidableEq, Repr

/-- A `struct tm` after `memset`. -/
def Tm.zero : Tm where
  year := 0
  mon := 0
  mday := 0
  hour := 0
  min := 0
  sec := 0
  yearBounded := by decide
  monBounded := by decide
  mdayBounded := by decide
  hourBounded := by decide
  minBounded := by decide
  secBounded := by decide

/-- `iridium_tm_now` and `iridium_tm_last`. -/
structure Clock where
  now : Tm
  last : Tm
  deriving DecidableEq, Repr

/-- What a call of `get_localtime` meets: the time the thread stored last, and
whether `localtime_lock` is free. -/
structure Reading where
  now : Tm
  free : Bool
  deriving DecidableEq, Repr

def getLocaltime (reading : Reading) (clock : Clock) : Tm × Clock :=
  if reading.free then (reading.now, ⟨reading.now, reading.now⟩)
  else (clock.last, ⟨reading.now, clock.last⟩)

/-- The time in the name of a log file, `%04d%02d%02d-%02d%02d%02d`. -/
def dateText (tm : Tm) : List Char :=
  snprintf 32 (padded 4 (tm.year + 1900) ++ padded 2 (tm.mon + 1) ++ padded 2 tm.mday ++
    ['-'] ++ padded 2 tm.hour ++ padded 2 tm.min ++ padded 2 tm.sec)

def monthArray : List (List Char) :=
  ["Jan".toList, "Feb".toList, "Mar".toList, "Apr".toList, "May".toList, "Jun".toList,
    "Jul".toList, "Aug".toList, "Sep".toList, "Oct".toList, "Nov".toList, "Dec".toList,
    "ABC".toList]

/-- The time in front of a message, `%s %02d %04d %02d:%02d:%02d `. -/
def messageDate (tm : Tm) : List Char :=
  snprintf 32 (monthArray.getD (if tm.mon < 12 then tm.mon else 12) [] ++
    [' '] ++ padded 2 tm.mday ++ [' '] ++ padded 4 (tm.year + 1900) ++
    [' '] ++ padded 2 tm.hour ++ [':'] ++ padded 2 tm.min ++ [':'] ++ padded 2 tm.sec ++ [' '])

/-! ## Different times have different texts -/

section Text

variable (tm : Tm)

end Text

end Lctools.Log
