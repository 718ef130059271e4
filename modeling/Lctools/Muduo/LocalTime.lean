import Lctools.Foundation.BinarySearch
import Lctools.Muduo.TimeZone

/-! # Local times of `muduo/base/TimeZone`

A zone has types of local time and the transitions between them. `localtime_r`, which depends on
the zone of the process, is a parameter.
-/

namespace Lctools.Muduo.TimeZone

open BinarySearch Calendar CString

/-! ## The program -/

structure Transition where
  gmttime : ℤ
  localtime : ℤ
  localtimeIdx : ℕ
  deriving DecidableEq, Repr

structure Localtime where
  gmtOffset : ℤ
  isDst : Bool
  arrbIdx : ℕ
  deriving DecidableEq, Repr, Inhabited

/-- `TimeZone::Data`, without `names`, which nothing uses. -/
structure Data where
  transitions : List Transition
  localtimes : List Localtime
  abbreviation : List Char
  deriving DecidableEq, Repr

/-- What has no defined behaviour. The assertions are not compiled in a release build. -/
inductive ZoneFault where
  /-- A zone without data is used. -/
  | data
  /-- An element of a vector is used that does not exist. -/
  | element
  /-- An iterator is moved before the first element. -/
  | iterator
  /-- An array is declared with a negative length. -/
  | length
  deriving DecidableEq, Repr

/-- `Comp`: the transitions are compared by one of their times. -/
def Transition.time (compareGmt : Bool) (transition : Transition) : ℤ :=
  if compareGmt then transition.gmttime else transition.localtime

def Data.localtimeAt (data : Data) (index : ℕ) : Except ZoneFault Localtime :=
  match data.localtimes[index]? with
  | some found => .ok found
  | none => .error .element

/-- What `findLocaltime` makes of the place that `lower_bound` gives. -/
def localtimeFrom (data : Data) (sentry : Transition) (compareGmt : Bool) (transI : ℕ) :
    Except ZoneFault Localtime :=
  match data.transitions[transI]? with
  | some transition =>
      if sentry.time compareGmt = transition.time compareGmt then
        data.localtimeAt transition.localtimeIdx
      else
        match transI with
        | 0 => .error .iterator
        | before + 1 =>
            match data.transitions[before]? with
            | some transition => data.localtimeAt transition.localtimeIdx
            | none => .error .element
  | none =>
      match data.transitions.getLast? with
      | some back => data.localtimeAt back.localtimeIdx
      | none => .error .element

def findLocaltime (data : Data) (sentry : Transition) (compareGmt : Bool) :
    Except ZoneFault Localtime :=
  match data.transitions with
  | [] => data.localtimeAt 0
  | front :: _ =>
      if sentry.time compareGmt < front.time compareGmt then data.localtimeAt 0
      else
        localtimeFrom data sentry compareGmt (lowerBound
          (fun transition => decide (transition.time compareGmt < sentry.time compareGmt))
          data.transitions)

/-- `TimeZone(int eastOfUtc, const char* name)`. -/
def fixed (eastOfUtc : ℤ) (name : List Char) : Option Data :=
  some ⟨[], [⟨eastOfUtc, false, 0⟩], name⟩

def valid (zone : Option Data) : Bool :=
  zone.isSome

/-- The text at `&data.abbreviation[index]`. -/
def Data.abbreviationAt (data : Data) (index : ℕ) : Except ZoneFault (List Char) :=
  if index ≤ data.abbreviation.length then
    .ok ((data.abbreviation.drop index).takeWhile (· ≠ nul))
  else .error .element

def follow (zone : Option Data) : Except ZoneFault Data :=
  match zone with
  | some data => .ok data
  | none => .error .data

section Conversion

variable (localtimeR : ℤ → Tm)

def toLocalTime (zone : Option Data) (seconds : ℤ) : Except ZoneFault Tm := do
  let data ← follow zone
  let found ← findLocaltime data ⟨seconds, 0, 0⟩ true
  let localTime := localtimeR (seconds + found.gmtOffset)
  return { localTime with
    isdst := found.isDst
    gmtoff := found.gmtOffset
    zone := ← data.abbreviationAt found.arrbIdx }

/-- `timegm`, for any months; the other fields count from where they are out of their range. -/
def timegm (tm : Tm) : ℤ :=
  (dayNumber (tm.year + 1900 + tm.mon / 12) (tm.mon % 12 + 1) tm.mday - 719468) * 86400 +
    (tm.hour * 3600 + tm.min * 60 + tm.sec)

def fromLocalTime (zone : Option Data) (localTm : Tm) : Except ZoneFault ℤ := do
  let data ← follow zone
  let seconds := timegm localTm
  let found ← findLocaltime data ⟨0, seconds, 0⟩ false
  if localTm.isdst then
    let tryTm ← toLocalTime localtimeR zone (seconds - found.gmtOffset)
    if !tryTm.isdst && tryTm.hour == localTm.hour && tryTm.min == localTm.min then
      return seconds - 3600 - found.gmtOffset
    else return seconds - found.gmtOffset
  else return seconds - found.gmtOffset

end Conversion

/-! ## The type of local time that is in force -/

/-- The type of local time after a number of transitions. -/
def Data.localtimeOf (data : Data) : (period : ℕ) → Localtime
  | 0 => data.localtimes.getD 0 default
  | before + 1 =>
      match data.transitions[before]? with
      | some transition => data.localtimes.getD transition.localtimeIdx default
      | none => default

/-- Every type that is referred to exists, with its text, and the transitions have the local times
of their types. -/
structure Data.WellFormed (data : Data) : Prop where
  localtimes_ne : data.localtimes ≠ []
  localtimeIdx_lt : ∀ transition ∈ data.transitions,
    transition.localtimeIdx < data.localtimes.length
  localtime_eq : ∀ transition ∈ data.transitions, transition.localtime =
    transition.gmttime + (data.localtimes.getD transition.localtimeIdx default).gmtOffset
  arrbIdx_le : ∀ found ∈ data.localtimes, found.arrbIdx ≤ data.abbreviation.length

def Data.Period (data : Data) (compareGmt : Bool) (time : ℤ) (period : ℕ) : Prop :=
  Splits (fun transition => decide (transition.time compareGmt ≤ time)) data.transitions period

/-- The transitions are in the order of their times. -/
def Data.Increasing (data : Data) (compareGmt : Bool) : Prop :=
  data.transitions.Pairwise fun transition later =>
    transition.time compareGmt < later.time compareGmt

section Find

variable {data : Data} {compareGmt : Bool} {sentry : Transition} {period : ℕ}

theorem Data.WellFormed.localtimeAt_zero (wellFormed : data.WellFormed) :
    data.localtimeAt 0 = .ok (data.localtimeOf 0) := by
  have first := List.getElem?_eq_getElem (List.length_pos_iff.mpr wellFormed.localtimes_ne)
  rw [Data.localtimeAt, Data.localtimeOf, List.getD_eq_getElem?_getD, first]
  rfl

theorem Data.WellFormed.localtimeAt_succ (wellFormed : data.WellFormed) {before : ℕ}
    {transition : Transition} (found : data.transitions[before]? = some transition) :
    data.localtimeAt transition.localtimeIdx = .ok (data.localtimeOf (before + 1)) := by
  have inside := wellFormed.localtimeIdx_lt transition (List.mem_of_getElem? found)
  rw [Data.localtimeAt, Data.localtimeOf, found]
  simp only [List.getElem?_eq_getElem inside, List.getD_eq_getElem?_getD, Option.getD_some]

theorem Data.Increasing.partitioned (increasing : data.Increasing compareGmt) (time : ℤ) :
    Partitioned (fun transition => decide (transition.time compareGmt < time)) data.transitions ∧
      Partitioned (fun transition => decide (transition.time compareGmt ≤ time))
        data.transitions := by
  constructor
  · refine List.Pairwise.imp ?_ increasing
    intro transition later less earlier
    simp only [decide_eq_true_eq] at earlier ⊢
    omega
  · refine List.Pairwise.imp ?_ increasing
    intro transition later less earlier
    simp only [decide_eq_true_eq] at earlier ⊢
    omega

theorem Data.Increasing.period_of (increasing : data.Increasing compareGmt) {time : ℤ}
    (inside : period ≤ data.transitions.length)
    (left : ∀ before transition, period = before + 1 →
      data.transitions[before]? = some transition → transition.time compareGmt ≤ time)
    (right : ∀ transition, data.transitions[period]? = some transition →
      time < transition.time compareGmt) : data.Period compareGmt time period := by
  apply (increasing.partitioned time).2.splits inside
  · intro transition positive found
    exact decide_eq_true (left (period - 1) transition (by omega) found)
  · intro transition found
    exact decide_eq_false (Int.not_le.mpr (right transition found))

section From

variable {transI : ℕ} (increasing : data.Increasing compareGmt)
  (search : Splits
    (fun transition => decide (transition.time compareGmt < sentry.time compareGmt))
    data.transitions transI)

include increasing search

theorem period_of_search :
    data.Period compareGmt (sentry.time compareGmt)
      (if data.transitions[transI]?.any
        (fun transition => decide (sentry.time compareGmt = transition.time compareGmt))
      then transI + 1 else transI) := by
  have earlier : ∀ before transition, before < transI →
      data.transitions[before]? = some transition →
      transition.time compareGmt ≤ sentry.time compareGmt := by
    intro before transition less found
    exact Int.le_of_lt (of_decide_eq_true (search.before before transition less found))
  cases found : data.transitions[transI]? with
  | none =>
      rw [Option.any_none, if_neg Bool.false_ne_true]
      apply increasing.period_of search.inside
      · intro before transition last here
        exact earlier before transition (by omega) here
      · intro transition here
        rw [found] at here
        cases here
  | some transition =>
      have notLess := search.behind transI transition (Nat.le_refl _) found
      rw [decide_eq_false_iff_not] at notLess
      rw [Option.any_some]
      by_cases equal : sentry.time compareGmt = transition.time compareGmt
      · rw [if_pos (decide_eq_true equal)]
        apply increasing.period_of (List.getElem?_eq_some_iff.mp found).1
        · intro before same last here
          cases last
          rw [found] at here
          cases here
          exact Int.le_of_eq equal.symm
        · intro later here
          rw [equal]
          rcases List.getElem?_eq_some_iff.mp found with ⟨_, rfl⟩
          rcases List.getElem?_eq_some_iff.mp here with ⟨inside, rfl⟩
          exact List.pairwise_iff_getElem.mp increasing _ _ _ inside (Nat.lt_succ_self _)
      · rw [if_neg (by simpa using equal)]
        apply increasing.period_of search.inside
        · intro before other last here
          exact earlier before other (by omega) here
        · intro other here
          rw [found] at here
          cases here
          omega

end From

theorem findLocaltime_eq (wellFormed : data.WellFormed) (increasing : data.Increasing compareGmt)
    (here : data.Period compareGmt (sentry.time compareGmt) period) :
    findLocaltime data sentry compareGmt = .ok (data.localtimeOf period) := by
  have search := lowerBound_splits (increasing.partitioned (sentry.time compareGmt)).1
  have point := Splits.unique (period_of_search increasing search) here
  rw [findLocaltime]
  split
  · next none =>
      have least := here.inside
      rw [none, List.length_nil] at least
      rw [Nat.le_zero.mp least]
      exact wellFormed.localtimeAt_zero
  · next front rest all =>
      have first : data.transitions[0]? = some front := by rw [all]; rfl
      split_ifs with early
      · have before : data.Period compareGmt (sentry.time compareGmt) 0 := by
          apply increasing.period_of (Nat.zero_le _) nofun
          intro transition found
          rw [first] at found
          cases found
          exact early
        rw [Splits.unique here before]
        exact wellFormed.localtimeAt_zero
      · generalize lowerBound _ data.transitions = transI at search point ⊢
        unfold localtimeFrom
        split
        · next transition found =>
            simp only [found, Option.any_some, decide_eq_true_eq] at point
            split_ifs at point ⊢ with equal
            · rw [← point]
              exact wellFormed.localtimeAt_succ found
            · rw [← point]
              cases transI with
              | zero =>
                  -- The first transition is not later, so it is earlier.
                  rw [first] at found
                  cases found
                  have notLess := search.behind 0 front (Nat.le_refl _) first
                  rw [decide_eq_false_iff_not] at notLess
                  omega
              | succ before =>
                  have inside := Nat.lt_of_succ_le search.inside
                  simp only [List.getElem?_eq_getElem inside]
                  exact wellFormed.localtimeAt_succ (List.getElem?_eq_getElem inside)
        · next none =>
            rw [none, Option.any_none, if_neg Bool.false_ne_true] at point
            have length : data.transitions.length = rest.length + 1 := by
              rw [all, List.length_cons]
            have last : period = rest.length + 1 := by
              rw [← point, ← length]
              exact Nat.le_antisymm search.inside (List.getElem?_eq_none_iff.mp none)
            have inside : rest.length < data.transitions.length := by omega
            rw [last, List.getLast?_eq_getElem?, length, Nat.add_sub_cancel,
              List.getElem?_eq_getElem inside]
            exact wellFormed.localtimeAt_succ (List.getElem?_eq_getElem inside)

theorem Data.Increasing.exists_period (increasing : data.Increasing compareGmt) (time : ℤ) :
    ∃ period, data.Period compareGmt time period :=
  ⟨_, lowerBound_splits (increasing.partitioned time).2⟩

theorem Data.WellFormed.localtimeOf_mem (wellFormed : data.WellFormed)
    (inside : period ≤ data.transitions.length) : data.localtimeOf period ∈ data.localtimes := by
  cases period with
  | zero =>
      have positive := List.length_pos_iff.mpr wellFormed.localtimes_ne
      rw [Data.localtimeOf, List.getD_eq_getElem?_getD, List.getElem?_eq_getElem positive]
      exact List.getElem_mem _
  | succ before =>
      have found := List.getElem?_eq_getElem (Nat.lt_of_succ_le inside)
      have exists_type := wellFormed.localtimeIdx_lt _ (List.mem_of_getElem? found)
      rw [Data.localtimeOf, found]
      simp only [List.getD_eq_getElem?_getD, List.getElem?_eq_getElem exists_type]
      exact List.getElem_mem _

end Find

/-! ## There and back -/

/-- `localtime_r` in a process whose zone is ahead of UTC by `offsetAt`, for the years that fit. -/
def LocaltimeR (localtimeR : ℤ → Tm) (offsetAt : ℤ → ℤ) : Prop :=
  ∀ seconds, -2 ^ 55 ≤ seconds → seconds < 2 ^ 55 → ∃ isdst zone, localtimeR seconds =
    { gmtime (seconds + offsetAt seconds) with
      isdst := isdst
      gmtoff := offsetAt seconds
      zone := zone }

/-- A zone whose clocks are put back only at the end of summer time, by one hour, and whose periods
are longer than that. -/
structure Data.Regular (data : Data) : Prop extends data.WellFormed where
  offset_bounds : ∀ found ∈ data.localtimes,
    -2 ^ 31 ≤ found.gmtOffset ∧ found.gmtOffset < 2 ^ 31
  apart : data.transitions.Pairwise fun transition later =>
    transition.gmttime + 3600 < later.gmttime
  back : ∀ period, period < data.transitions.length →
    (data.localtimeOf period).gmtOffset ≤ (data.localtimeOf (period + 1)).gmtOffset ∨
      (data.localtimeOf period).isDst = true ∧ (data.localtimeOf (period + 1)).isDst = false ∧
        (data.localtimeOf period).gmtOffset = (data.localtimeOf (period + 1)).gmtOffset + 3600

theorem timegm_gmtime (seconds : ℤ) : timegm (gmtime seconds) = seconds := by
  have number := number_ofNumber (seconds / 86400 + 719468)
  rw [timegm, gmtime]
  generalize ofNumber (seconds / 86400 + 719468) = date at number ⊢
  have first := date.month_pos
  have last := date.month_le
  have year : date.year - 1900 + 1900 + (date.month - 1) / 12 = date.year := by omega
  have month : (date.month - 1) % 12 + 1 = date.month := by omega
  have days : dayNumber date.year date.month date.day = date.number := rfl
  simp only [year, month, days, number]
  omega

section RoundTrip

variable {data : Data} {localtimeR : ℤ → Tm} {seconds : ℤ} {period : ℕ}

theorem toLocalTime_eq (wellFormed : data.WellFormed) (increasing : data.Increasing true)
    (here : data.Period true seconds period) :
    ∃ text, toLocalTime localtimeR (some data) seconds =
      .ok { localtimeR (seconds + (data.localtimeOf period).gmtOffset) with
        isdst := (data.localtimeOf period).isDst
        gmtoff := (data.localtimeOf period).gmtOffset
        zone := text } := by
  have found := @findLocaltime_eq data true ⟨seconds, 0, 0⟩ period wellFormed increasing here
  have named := wellFormed.arrbIdx_le _ (wellFormed.localtimeOf_mem here.inside)
  refine ⟨(data.abbreviation.drop (data.localtimeOf period).arrbIdx).takeWhile (· ≠ nul), ?_⟩
  rw [toLocalTime]
  change (findLocaltime data ⟨seconds, 0, 0⟩ true >>= _) = _
  rw [Fallible.bind_ok found]
  simp only [Data.abbreviationAt, if_pos named]
  rfl

namespace Data.Regular

variable (regular : data.Regular)

include regular

theorem increasing_gmt : data.Increasing true := by
  refine List.Pairwise.imp ?_ regular.apart
  intro transition later less
  change transition.gmttime < later.gmttime
  omega

theorem localtime_eq_of_get {transition : Transition}
    (found : data.transitions[period]? = some transition) : transition.localtime =
      transition.gmttime + (data.localtimeOf (period + 1)).gmtOffset := by
  rw [Data.localtimeOf, found]
  exact regular.localtime_eq transition (List.mem_of_getElem? found)

theorem apart_next {transition later : Transition}
    (here : data.transitions[period]? = some transition)
    (there : data.transitions[period + 1]? = some later) :
    transition.gmttime + 3600 < later.gmttime := by
  rcases List.getElem?_eq_some_iff.mp here with ⟨before, isHere⟩
  rcases List.getElem?_eq_some_iff.mp there with ⟨inside, isThere⟩
  have apart := List.pairwise_iff_getElem.mp regular.apart period (period + 1) before inside
    (Nat.lt_succ_self _)
  rwa [isHere, isThere] at apart

theorem increasing_local : data.Increasing false := by
  have trans : Trans (fun transition later : Transition => transition.localtime < later.localtime)
      (fun transition later : Transition => transition.localtime < later.localtime)
      (fun transition later : Transition => transition.localtime < later.localtime) :=
    ⟨Int.lt_trans⟩
  have chain : data.transitions.IsChain fun transition later =>
      transition.localtime < later.localtime := by
    rw [List.isChain_iff_getElem]
    intro period inside
    have before := Nat.lt_of_succ_lt inside
    have here := regular.localtime_eq_of_get (List.getElem?_eq_getElem before)
    have there := regular.localtime_eq_of_get (List.getElem?_eq_getElem inside)
    have apart := regular.apart_next (List.getElem?_eq_getElem before)
      (List.getElem?_eq_getElem inside)
    have back := regular.back (period + 1) inside
    omega
  exact chain.pairwise

/-- A time is in the period with its local time, or in the last hour of summer time, whose local
time comes again. -/
theorem period_of_local (here : data.Period true seconds period) :
    data.Period false (seconds + (data.localtimeOf period).gmtOffset) period ∨
      (data.localtimeOf period).isDst = true ∧ (data.localtimeOf (period + 1)).isDst = false ∧
        (data.localtimeOf period).gmtOffset =
          (data.localtimeOf (period + 1)).gmtOffset + 3600 ∧
        data.Period false (seconds + (data.localtimeOf period).gmtOffset) (period + 1) ∧
        data.Period true (seconds + 3600) (period + 1) := by
  have inside := here.inside
  -- The time of the last transition is not later, in both of its times.
  have started : ∀ before transition, period = before + 1 →
      data.transitions[before]? = some transition →
      transition.localtime ≤ seconds + (data.localtimeOf period).gmtOffset := by
    intro before transition last found
    have earlier := of_decide_eq_true (here.before before transition (by omega) found)
    change transition.gmttime ≤ seconds at earlier
    rw [regular.localtime_eq_of_get found, last]
    omega
  cases found : data.transitions[period]? with
  | none =>
      left
      apply regular.increasing_local.period_of inside started
      intro transition there
      rw [found] at there
      cases there
  | some next =>
      have before := (List.getElem?_eq_some_iff.mp found).1
      have later := of_decide_eq_false (here.behind period next (Nat.le_refl _) found)
      change ¬next.gmttime ≤ seconds at later
      have nextLocal := regular.localtime_eq_of_get found
      by_cases early : seconds + (data.localtimeOf period).gmtOffset < next.localtime
      · left
        apply regular.increasing_local.period_of inside started
        intro transition there
        rw [found] at there
        cases there
        exact early
      · right
        rcases regular.back period before with forward | ⟨summer, winter, hour⟩
        · omega
        refine ⟨summer, winter, hour, ?_, ?_⟩
        · apply regular.increasing_local.period_of before
          · intro same transition last there
            cases last
            rw [found] at there
            cases there
            exact Int.not_lt.mp early
          · intro transition there
            have after := (List.getElem?_eq_some_iff.mp there).1
            have thereLocal : transition.localtime =
                transition.gmttime + (data.localtimeOf (period + 1 + 1)).gmtOffset :=
              regular.localtime_eq_of_get there
            have apart := regular.apart_next found there
            change _ < transition.localtime
            rcases regular.back (period + 1) after with forward | ⟨again, _, _⟩
            · omega
            · rw [winter] at again
              cases again
        · apply regular.increasing_gmt.period_of before
          · intro same transition last there
            cases last
            rw [found] at there
            cases there
            change next.gmttime ≤ seconds + 3600
            omega
          · intro transition there
            have apart := regular.apart_next found there
            change seconds + 3600 < transition.gmttime
            omega

end Data.Regular

/-- The fields of a broken-down time that `fromLocalTime` uses are those of `gmtime_r`. -/
structure Shows (tm : Tm) (time : ℤ) : Prop where
  timegm_eq : timegm tm = time
  hour : tm.hour = (gmtime time).hour
  min : tm.min = (gmtime time).min

/-- A local time, when `localtime_r` is as far ahead of UTC as `offsetAt` says. -/
theorem toLocalTime_shows {offsetAt : ℤ → ℤ} (behaves : LocaltimeR localtimeR offsetAt)
    (wellFormed : data.WellFormed) (increasing : data.Increasing true)
    (here : data.Period true seconds period) {time : ℤ}
    (shifted : seconds + (data.localtimeOf period).gmtOffset = time) (low : -2 ^ 55 ≤ time)
    (high : time < 2 ^ 55) :
    ∃ tm, toLocalTime localtimeR (some data) seconds = .ok tm ∧ Shows tm (time + offsetAt time) ∧
      tm.isdst = (data.localtimeOf period).isDst := by
  rcases @toLocalTime_eq data localtimeR seconds period wellFormed increasing here with
    ⟨text, broken⟩
  rw [shifted] at broken
  rcases behaves time low high with ⟨isdst, zone, fields⟩
  rw [fields] at broken
  exact ⟨_, broken, ⟨timegm_gmtime _, rfl, rfl⟩, rfl⟩

section From

variable {localTm : Tm} {found : Localtime}
  (find : findLocaltime data ⟨0, timegm localTm, 0⟩ false = .ok found)

include find

theorem fromLocalTime_standard (standard : localTm.isdst = false) :
    fromLocalTime localtimeR (some data) localTm = .ok (timegm localTm - found.gmtOffset) := by
  rw [fromLocalTime]
  change (findLocaltime data ⟨0, timegm localTm, 0⟩ false >>= _) = _
  rw [Fallible.bind_ok find, standard]
  rfl

theorem fromLocalTime_summer (summer : localTm.isdst = true) {tryTm : Tm}
    (tries : toLocalTime localtimeR (some data) (timegm localTm - found.gmtOffset) = .ok tryTm) :
    fromLocalTime localtimeR (some data) localTm =
      .ok (if !tryTm.isdst && tryTm.hour == localTm.hour && tryTm.min == localTm.min then
        timegm localTm - 3600 - found.gmtOffset
      else timegm localTm - found.gmtOffset) := by
  rw [fromLocalTime]
  change (findLocaltime data ⟨0, timegm localTm, 0⟩ false >>= _) = _
  rw [Fallible.bind_ok find]
  simp only [summer, if_true]
  rw [Fallible.bind_ok tries]
  split_ifs <;> rfl

end From

/-- In a process whose zone is UTC, `fromLocalTime` takes the local time of every time back to it,
also in the hour whose local time comes twice. -/
theorem fromLocalTime_toLocalTime (regular : data.Regular) (utc : LocaltimeR localtimeR fun _ => 0)
    (low : -2 ^ 54 ≤ seconds) (high : seconds < 2 ^ 54) :
    (toLocalTime localtimeR (some data) seconds >>= fromLocalTime localtimeR (some data)) =
      .ok seconds := by
  rcases regular.increasing_gmt.exists_period seconds with ⟨period, here⟩
  have bounds := regular.offset_bounds _ (regular.localtimeOf_mem here.inside)
  have place := regular.period_of_local here
  generalize shifted : seconds + (data.localtimeOf period).gmtOffset = time at place
  rcases toLocalTime_shows utc regular.toWellFormed regular.increasing_gmt here shifted (by omega)
    (by omega) with ⟨tm, broken, shows, dst⟩
  rw [Int.add_zero] at shows
  have find : ∀ other, data.Period false time other →
      findLocaltime data ⟨0, timegm tm, 0⟩ false = .ok (data.localtimeOf other) := by
    intro other there
    rw [shows.timegm_eq]
    exact findLocaltime_eq regular.toWellFormed regular.increasing_local there
  rw [Fallible.bind_ok broken]
  rcases place with there | ⟨summer, winter, hour, there, again⟩
  · -- The local time tells the period.
    have back : timegm tm - (data.localtimeOf period).gmtOffset = seconds := by
      rw [shows.timegm_eq]
      omega
    cases kind : tm.isdst with
    | false => rw [fromLocalTime_standard (find period there) kind, back]
    | true =>
        have tries := broken
        rw [← back] at tries
        rw [fromLocalTime_summer (find period there) kind tries, kind]
        exact congrArg Except.ok back
  · -- The search finds the time after the clocks were put back, one hour later.
    rcases toLocalTime_shows utc regular.toWellFormed regular.increasing_gmt again
      (show _ = time by omega) (by omega) (by omega) with ⟨second, tries, showsAgain, standard⟩
    rw [Int.add_zero] at showsAgain
    have back : timegm tm - (data.localtimeOf (period + 1)).gmtOffset = seconds + 3600 := by
      rw [shows.timegm_eq]
      omega
    rw [← back] at tries
    rw [fromLocalTime_summer (find (period + 1) there) (dst.trans summer) tries, standard, winter,
      showsAgain.hour, shows.hour, showsAgain.min, shows.min]
    simp only [Bool.not_false, Bool.true_and, beq_self_eq_true, if_true]
    congr 1
    omega

end RoundTrip

/-- Middle Europe in 1996. -/
def sampleZone : Data where
  transitions := [⟨828234000, 828241200, 1⟩, ⟨846378000, 846381600, 0⟩]
  localtimes := [⟨3600, false, 0⟩, ⟨7200, true, 4⟩]
  abbreviation := "CET".toList ++ nul :: "CEST".toList ++ [nul]

theorem sampleZone_regular : sampleZone.Regular where
  localtimes_ne := nofun
  localtimeIdx_lt := by decide
  localtime_eq := by decide
  arrbIdx_le := by decide
  offset_bounds := by decide
  apart := by decide
  back := by decide

/-- `localtime_r` in a process with a fixed zone. -/
def localtimeOfProcess (offset seconds : ℤ) : Tm :=
  { gmtime (seconds + offset) with gmtoff := offset, zone := "process".toList }

theorem localtimeOfProcess_behaves (offset : ℤ) :
    LocaltimeR (localtimeOfProcess offset) fun _ => offset :=
  fun _ _ _ => ⟨_, _, rfl⟩

/-- Half an hour before the clocks are put back. -/
theorem fromLocalTime_toLocalTime_sample :
    (toLocalTime (localtimeOfProcess 0) (some sampleZone) 846376200 >>=
      fromLocalTime (localtimeOfProcess 0) (some sampleZone)) = .ok 846376200 :=
  fromLocalTime_toLocalTime sampleZone_regular (localtimeOfProcess_behaves 0) (by decide)
    (by decide)

section Fixed

variable {localtimeR : ℤ → Tm} {seconds : ℤ}

/-- The local times of a fixed zone. A process whose own zone is not UTC moves the clock once more,
so that there is no way back. -/
theorem fixed_round_trip_iff {offsetAt : ℤ → ℤ} (behaves : LocaltimeR localtimeR offsetAt)
    (eastOfUtc : ℤ) (name : List Char) (low : -2 ^ 55 ≤ seconds + eastOfUtc)
    (high : seconds + eastOfUtc < 2 ^ 55) :
    (toLocalTime localtimeR (fixed eastOfUtc name) seconds >>=
        fromLocalTime localtimeR (fixed eastOfUtc name)) = .ok seconds ↔
      offsetAt (seconds + eastOfUtc) = 0 := by
  have wellFormed : Data.WellFormed ⟨[], [⟨eastOfUtc, false, 0⟩], name⟩ := {
    localtimes_ne := nofun
    localtimeIdx_lt := nofun
    localtime_eq := nofun
    arrbIdx_le := by
      intro found only
      cases List.mem_singleton.mp only
      exact Nat.zero_le _ }
  have increasing : ∀ compareGmt,
      Data.Increasing ⟨[], [⟨eastOfUtc, false, 0⟩], name⟩ compareGmt :=
    fun _ => .nil
  have here : ∀ compareGmt time,
      Data.Period ⟨[], [⟨eastOfUtc, false, 0⟩], name⟩ compareGmt time 0 :=
    fun _ _ => ⟨Nat.le_refl 0, nofun, nofun⟩
  rcases toLocalTime_shows behaves wellFormed (increasing true) (here true seconds) rfl low
      high with
    ⟨tm, broken, shows, standard⟩
  have find := @findLocaltime_eq _ false ⟨0, timegm tm, 0⟩ 0 wellFormed (increasing false)
    (here false _)
  rw [fixed, Fallible.bind_ok broken, fromLocalTime_standard find standard, shows.timegm_eq,
    Except.ok.injEq]
  change seconds + eastOfUtc + offsetAt (seconds + eastOfUtc) - eastOfUtc = seconds ↔ _
  omega

end Fixed

/-- A zone one hour ahead in a process that is eight hours ahead. -/
theorem fixed_round_trip_iff_sample :
    (toLocalTime (localtimeOfProcess 28800) (fixed 3600 "CET".toList) 0 >>=
      fromLocalTime (localtimeOfProcess 28800) (fixed 3600 "CET".toList)) ≠ .ok 0 := by
  intro same
  have none := (fixed_round_trip_iff (localtimeOfProcess_behaves 28800) 3600 "CET".toList
    (by decide) (by decide)).mp same
  cases none

end Lctools.Muduo.TimeZone
