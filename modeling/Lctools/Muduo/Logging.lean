import Lctools.Foundation.Run
import Lctools.Muduo.Clog
import Lctools.Muduo.LocalTime
import Lctools.Muduo.Timestamp

/-! # The time in the records of `muduo/base/Logging.cc`

Each thread keeps the text of the last second for which it wrote a record.
-/

namespace Lctools.Muduo.Logging

open CString Numerals TimeZone

/-! ## The program -/

/-- `t_time` and `t_lastSecond` of a thread. -/
structure TimeCache where
  time : List Char
  lastSecond : ℤ
  deriving DecidableEq, Repr

/-- The variables of a thread that has not written yet. -/
def TimeCache.start : TimeCache :=
  ⟨List.replicate 32 nul, 0⟩

section Program

variable (localtimeR : ℤ → Tm) (zone : Option Data)

/-- The local time of a second, in `g_logTimeZone` or in the zone of the process. -/
def localTime (seconds : ℤ) : Except ZoneFault Tm :=
  if valid zone then toLocalTime localtimeR zone seconds else .ok (localtimeR seconds)

/-- The microseconds behind the second, of a text of eight or nine characters. -/
def fraction (microseconds : ℤ) : List Char :=
  let us := ['.'] ++ zeroPadded 6 microseconds
  if valid zone then (us ++ " ".toList).take 8 else (us ++ "Z ".toList).take 9

/-- The variables of a thread for a record of the given second. -/
def refresh (cache : TimeCache) (seconds : ℤ) : Except ZoneFault TimeCache :=
  if seconds ≠ cache.lastSecond then do
    let tm ← localTime localtimeR zone seconds
    return ⟨snprintf 32 (Timestamp.dateTime tm), seconds⟩
  else .ok cache

/-- `Logger::Impl::formatTime`: what it writes to the stream, and the variables of the thread. -/
def formatTime (cache : TimeCache) (time : Timestamp) :
    Except ZoneFault (List Char × TimeCache) := do
  let cache ← refresh localtimeR zone cache time.secondsSinceEpoch
  return (cache.time.take 17 ++ fraction zone time.microseconds, cache)

/-- A thread writes a record. -/
def step (caches : ℕ → TimeCache) (record : ℕ × Timestamp) :
    Except ZoneFault (List Char × (ℕ → TimeCache)) := do
  let (written, cache) ← formatTime localtimeR zone (caches record.1) record.2
  return (written, fun thread => if thread = record.1 then cache else caches thread)

end Program

/-! ## Without the cache -/

/-- The time of a record, from the local time of its own second. -/
def plainTime (zone : Option Data) (tm : ℤ → Tm) (time : Timestamp) : List Char :=
  (snprintf 32 (Timestamp.dateTime (tm time.secondsSinceEpoch))).take 17 ++
    fraction zone time.microseconds

def firstRecord (thread : ℕ) (records : List (ℕ × Timestamp)) : Option Timestamp :=
  (records.find? fun record => record.1 == thread).map (·.2)

theorem firstRecord_self (record : ℕ × Timestamp) (records : List (ℕ × Timestamp)) :
    firstRecord record.1 (record :: records) = some record.2 := by
  simp [firstRecord]

theorem firstRecord_other {thread : ℕ} {record : ℕ × Timestamp} (other : thread ≠ record.1)
    (records : List (ℕ × Timestamp)) :
    firstRecord thread (record :: records) = firstRecord thread records := by
  simp [firstRecord, Ne.symm other]

/-- The caches from which the rest of the records is written as it should be. -/
def Timely (caches : ℕ → TimeCache) (records : List (ℕ × Timestamp)) : Prop :=
  ∀ thread time, caches thread = .start → firstRecord thread records = some time →
    time.secondsSinceEpoch ≠ 0

theorem timely_cons_iff {caches next : ℕ → TimeCache} {record : ℕ × Timestamp}
    (records : List (ℕ × Timestamp))
    (good : ¬(caches record.1 = .start ∧ record.2.secondsSinceEpoch = 0))
    (written : next record.1 ≠ .start)
    (unchanged : ∀ thread, thread ≠ record.1 → next thread = caches thread) :
    Timely caches (record :: records) ↔ Timely next records := by
  constructor
  · intro timely thread time start found
    have other : thread ≠ record.1 := by
      intro same
      rw [same] at start
      exact written start
    rw [unchanged thread other] at start
    rw [← firstRecord_other other] at found
    exact timely thread time start found
  · intro timely thread time start found
    by_cases other : thread = record.1
    · rw [other, firstRecord_self] at found
      cases found
      intro zero
      exact good ⟨by rw [← other, start], zero⟩
    · rw [firstRecord_other other] at found
      exact timely thread time (by rw [unchanged thread other, start]) found

section Cache

variable {localtimeR : ℤ → Tm} {zone : Option Data} {tm : ℤ → Tm}

/-- The text of a thread is that of the second it was made for. -/
def Current (tm : ℤ → Tm) (cache : TimeCache) : Prop :=
  cache.time = snprintf 32 (Timestamp.dateTime (tm cache.lastSecond))

theorem nul_not_mem_padded (width value : ℕ) : nul ∉ padded width value := by
  intro member
  have digit := isDigit_of_mem_padded member
  cases digit

theorem nul_not_mem_zeroPadded (width : ℕ) (value : ℤ) : nul ∉ zeroPadded width value := by
  cases value with
  | ofNat value => exact nul_not_mem_padded width value
  | negSucc value =>
      rw [zeroPadded, List.mem_cons, not_or]
      exact ⟨by decide, nul_not_mem_padded _ _⟩

theorem nul_not_mem_spacePadded (width : ℕ) (value : ℤ) : nul ∉ spacePadded width value := by
  have digits : ∀ number, nul ∉ decimal number := by
    intro number member
    have digit := isDigit_of_mem_decimal member
    cases digit
  rw [spacePadded, List.mem_append, not_or]
  refine ⟨?_, ?_⟩
  · intro member
    have blank := List.eq_of_mem_replicate member
    cases blank
  · cases value with
    | ofNat value => exact digits value
    | negSucc value =>
        rw [decimalInt, List.mem_cons, not_or]
        exact ⟨by decide, digits _⟩

theorem nul_not_mem_dateTime (tm : Tm) : nul ∉ Timestamp.dateTime tm := by
  simp only [Timestamp.dateTime, List.mem_append, List.mem_singleton, not_or,
    nul_not_mem_spacePadded, nul_not_mem_zeroPadded, not_false_eq_true, and_true, true_and]
  exact ⟨⟨by decide, by decide⟩, by decide⟩

theorem nul_not_mem_plainTime (time : Timestamp) : nul ∉ plainTime zone tm time := by
  have fraction_clean : nul ∉ fraction zone time.microseconds := by
    have us : nul ∉ ['.'] ++ zeroPadded 6 time.microseconds := by
      rw [List.mem_append, not_or]
      exact ⟨by decide, nul_not_mem_zeroPadded _ _⟩
    rw [fraction]
    split_ifs
    · intro member
      rcases List.mem_append.mp (List.mem_of_mem_take member) with front | back
      · exact us front
      · revert back
        decide
    · intro member
      rcases List.mem_append.mp (List.mem_of_mem_take member) with front | back
      · exact us front
      · revert back
        decide
  rw [plainTime, List.mem_append, not_or]
  refine ⟨?_, fraction_clean⟩
  intro member
  exact nul_not_mem_dateTime _ (List.mem_of_mem_take (List.mem_of_mem_take member))

variable (defined : ∀ seconds, localTime localtimeR zone seconds = .ok (tm seconds))

include defined

theorem refresh_eq (cache : TimeCache) (seconds : ℤ) :
    refresh localtimeR zone cache seconds = .ok
      (if seconds = cache.lastSecond then cache
      else ⟨snprintf 32 (Timestamp.dateTime (tm seconds)), seconds⟩) := by
  rw [refresh]
  by_cases same : seconds = cache.lastSecond
  · rw [if_neg (fun other => other same), if_pos same]
  · rw [if_pos same, if_neg same, Fallible.bind_ok (defined seconds)]
    rfl

/-- A record of a thread with a current text, or of another second, has its own time, and leaves
a current text. -/
theorem formatTime_current {cache : TimeCache} {time : Timestamp}
    (current : Current tm cache ∨ time.secondsSinceEpoch ≠ cache.lastSecond) :
    ∃ next, formatTime localtimeR zone cache time = .ok (plainTime zone tm time, next) ∧
      Current tm next := by
  rw [formatTime, Fallible.bind_ok (refresh_eq defined cache _)]
  split_ifs with same
  · rcases current with current | other
    · refine ⟨cache, ?_, current⟩
      rw [plainTime, same, ← current]
      rfl
    · exact absurd same other
  · exact ⟨_, rfl, rfl⟩

omit defined in
theorem start_not_current : ¬Current tm TimeCache.start := by
  intro current
  have member : nul ∈ TimeCache.start.time := List.mem_replicate.mpr ⟨by decide, rfl⟩
  rw [current] at member
  exact nul_not_mem_dateTime _ (List.mem_of_mem_take member)

/-- The first record of a thread in the second 0 has no time. -/
theorem formatTime_start {time : Timestamp} (zero : time.secondsSinceEpoch = 0) :
    ∃ written next, formatTime localtimeR zone .start time = .ok (written, next) ∧
      written ≠ plainTime zone tm time := by
  rw [formatTime, Fallible.bind_ok (refresh_eq defined .start _), if_pos (by rw [zero]; rfl)]
  refine ⟨_, _, rfl, ?_⟩
  intro same
  have first : nul ∈ TimeCache.start.time.take 17 := by decide
  have member : nul ∈ TimeCache.start.time.take 17 ++ fraction zone time.microseconds :=
    List.mem_append_left _ first
  rw [same] at member
  exact nul_not_mem_plainTime time member

theorem step_current {caches : ℕ → TimeCache} {record : ℕ × Timestamp}
    (current : Current tm (caches record.1) ∨
      record.2.secondsSinceEpoch ≠ (caches record.1).lastSecond) :
    ∃ next, step localtimeR zone caches record = .ok (plainTime zone tm record.2, next) ∧
      Current tm (next record.1) ∧ ∀ thread, thread ≠ record.1 → next thread = caches thread := by
  rcases formatTime_current defined current with ⟨cache, formats, stays⟩
  refine ⟨fun thread => if thread = record.1 then cache else caches thread, ?_, ?_, ?_⟩
  · rw [step, Fallible.bind_ok formats]
    rfl
  · simp only [if_true]
    exact stays
  · intro thread other
    exact if_neg other

theorem run_plain_iff (records : List (ℕ × Timestamp)) (caches : ℕ → TimeCache)
    (known : ∀ thread, caches thread = .start ∨ Current tm (caches thread)) :
    (∃ last, run (step localtimeR zone) caches records =
        .ok (records.map fun record => plainTime zone tm record.2, last)) ↔
      Timely caches records := by
  induction records generalizing caches with
  | nil =>
      constructor
      · intro _ thread time _ none
        cases none
      · intro _
        exact ⟨caches, rfl⟩
  | cons record records induction =>
      by_cases fresh : caches record.1 = .start ∧ record.2.secondsSinceEpoch = 0
      · -- The text of the thread is empty.
        rcases formatTime_start defined fresh.2 with ⟨written, cache, formats, wrong⟩
        constructor
        · rintro ⟨last, ran⟩
          rcases Run.run_cons_inversion ran with ⟨reply, next, rest, stepped, _, same⟩
          rw [step, fresh.1, Fallible.bind_ok formats] at stepped
          cases stepped
          exact absurd (List.cons.inj same).1.symm wrong
        · intro timely
          exact absurd fresh.2 (timely record.1 record.2 fresh.1 (firstRecord_self ..))
      · have current : Current tm (caches record.1) ∨
            record.2.secondsSinceEpoch ≠ (caches record.1).lastSecond := by
          rcases known record.1 with start | current
          · right
            intro same
            rw [start] at same
            exact fresh ⟨start, same⟩
          · exact .inl current
        rcases step_current defined current with ⟨next, stepped, stays, unchanged⟩
        have knownNext : ∀ thread, next thread = .start ∨ Current tm (next thread) := by
          intro thread
          by_cases other : thread = record.1
          · rw [other]
            exact .inr stays
          · rw [unchanged thread other]
            exact known thread
        have written : next record.1 ≠ .start := by
          intro start
          rw [start] at stays
          exact start_not_current stays
        rw [timely_cons_iff records fresh written unchanged, ← induction next knownNext]
        constructor
        · rintro ⟨last, ran⟩
          rcases Run.run_cons_inversion ran with ⟨reply, following, rest, again, ranRest, same⟩
          rw [stepped] at again
          cases again
          exact ⟨last, by rw [ranRest, (List.cons.inj same).2]⟩
        · rintro ⟨last, ran⟩
          exact ⟨last, Run.run_cons_ok next stepped ran⟩

/-- However the records of the threads follow each other and the clock goes, each has the time of
its own second, unless the first record of a thread is one of the first second of 1970. -/
theorem records_have_own_time (records : List (ℕ × Timestamp)) :
    (∃ last, run (step localtimeR zone) (fun _ => .start) records =
        .ok (records.map fun record => plainTime zone tm record.2, last)) ↔
      ∀ thread time, firstRecord thread records = some time → time.secondsSinceEpoch ≠ 0 := by
  rw [run_plain_iff defined records (fun _ => .start) fun _ => .inl rfl]
  constructor
  · intro always thread time found
    exact always thread time rfl found
  · intro always thread time _ found
    exact always thread time found

end Cache

/-- The records of two threads in two seconds, one of them late. -/
def sampleRecords : List (ℕ × Timestamp) :=
  [(0, ⟨5000001⟩), (1, ⟨5000002⟩), (0, ⟨6000000⟩), (1, ⟨5000003⟩)]

theorem records_have_own_time_sample :
    ∃ last, run (step (localtimeOfProcess 0) none) (fun _ => .start) sampleRecords =
      .ok (sampleRecords.map fun record => plainTime none (localtimeOfProcess 0) record.2,
        last) := by
  apply (records_have_own_time (fun _ => rfl) sampleRecords).mpr
  intro thread time found
  have all : ∀ record ∈ sampleRecords, record.2.secondsSinceEpoch ≠ 0 := by decide
  rcases Option.map_eq_some_iff.mp found with ⟨record, finds, rfl⟩
  exact all record (List.mem_of_find?_eq_some finds)

/-! ## The record -/

/-- A broken-down time in the form of the other log library. -/
def ofLogTm (tm : Log.Tm) : Tm :=
  { Tm.zero with
    sec := tm.sec
    min := tm.min
    hour := tm.hour
    mday := tm.mday
    mon := tm.mon
    year := tm.year }

theorem dateTime_ofLogTm (tm : Log.Tm) :
    snprintf 32 (Timestamp.dateTime (ofLogTm tm)) = timeText tm := by
  have long : ¬(decimal (tm.year + 1900)).length ≤ 3 :=
    (Nat.length_toDigits_le_iff (by decide) (by decide)).not.mpr (by omega)
  have blanks : 4 - (decimal (tm.year + 1900)).length = 0 := by omega
  have year : spacePadded 4 ((tm.year : ℤ) + 1900) = decimal (tm.year + 1900) := by
    have text : decimalInt ((tm.year : ℤ) + 1900) = decimal (tm.year + 1900) := rfl
    rw [spacePadded, text, blanks]
    rfl
  rw [timeText, Timestamp.dateTime, ofLogTm]
  simp only
  rw [year]
  rfl

/-- The time with which a record is written in the model of the C functions, where the second is
that of the record. -/
theorem plainTime_eq_formatTime {context : Context} {zone : Option Data} {time : Timestamp}
    (zoned : valid zone = context.zoned) (micros : time.microseconds = context.microseconds) :
    plainTime zone (fun _ => ofLogTm context.tm) time =
      (Muduo.formatTime context).flatMap Piece.text := by
  have clean := @nul_not_mem_plainTime zone (fun _ => ofLogTm context.tm) time
  rw [plainTime, dateTime_ofLogTm, List.mem_append, not_or] at clean
  rcases clean with ⟨second, rest⟩
  have first : (Piece.string ((timeText context.tm).take 17)).text =
      (timeText context.tm).take 17 := text_of_no_nul second
  rw [plainTime, dateTime_ofLogTm, Muduo.formatTime, List.flatMap_cons, first]
  congr 1
  rw [fraction, zoned, micros] at rest ⊢
  have digits : zeroPadded 6 (context.microseconds : ℤ) = padded 6 context.microseconds := rfl
  rw [digits] at rest ⊢
  split_ifs at rest ⊢
  · rw [List.flatMap_cons, List.flatMap_nil, List.append_nil]
    exact (text_of_no_nul rest).symm
  · rw [List.flatMap_cons, List.flatMap_nil, List.append_nil]
    exact (text_of_no_nul rest).symm

end Lctools.Muduo.Logging
