import Lctools.Foundation.Fallible
import Lctools.Foundation.Run
import Lctools.Log.Clock
import Mathlib.Data.List.Pairwise

/-! # `muduo/base/LogFile` and the `AppendFile` of `muduo/base/FileUtil`

A log that goes on in a new file when the current one is large enough or a new day began.
-/

namespace Lctools.Muduo

open CString Numerals

/-! ## One file -/

/-- The loop of `AppendFile::append`: the bytes that are taken of `rest`, where call number `k`
of `fwrite_unlocked` takes at most `writes k`. -/
def appendLoop (writes : ℕ → ℕ) : (fuel k : ℕ) → (rest : List Char) → List Char
  | 0, _, _ => []
  | fuel + 1, k, rest =>
      let x := min (writes k) rest.length
      if rest.length = 0 ∨ x = 0 then []
      else rest.take x ++ appendLoop writes fuel (k + 1) (rest.drop x)

/-- The bytes of `logline` that `AppendFile::append` writes. -/
def appended (writes : ℕ → ℕ) (logline : List Char) : List Char :=
  let n := min (writes 0) logline.length
  logline.take n ++ appendLoop writes logline.length 1 (logline.drop n)

/-- `FileUtil::AppendFile`, with the time that is in its name and what every call of `append`
wrote. -/
structure AppendFile where
  filename : List Char
  opened : ℤ
  pieces : List (List Char)
  writtenBytes : ℕ

/-- `AppendFile::append`. All of `logline` is counted, also when some of it was not taken. -/
def AppendFile.append (file : AppendFile) (logline : List Char) (writes : ℕ → ℕ) : AppendFile :=
  { file with
    pieces := file.pieces ++ [appended writes logline]
    writtenBytes := file.writtenBytes + logline.length }

theorem appendLoop_all {writes : ℕ → ℕ} (fuel k : ℕ) {rest : List Char}
    (enough : rest.length ≤ fuel) (progress : ∀ later, k ≤ later → 0 < writes later) :
    appendLoop writes fuel k rest = rest := by
  induction fuel generalizing k rest with
  | zero =>
      rw [List.eq_nil_of_length_eq_zero (Nat.le_zero.mp enough)]
      rfl
  | succ fuel induction =>
      rw [appendLoop]
      by_cases empty : rest.length = 0
      · rw [if_pos (.inl empty), List.eq_nil_of_length_eq_zero empty]
      · have positive := progress k (Nat.le_refl k)
        rw [if_neg (by omega), induction (k + 1) (by rw [List.length_drop]; omega)
          (fun later after => progress later (by omega)), List.take_append_drop]

/-- Only a call after the first that takes nothing ends the loop early. -/
theorem appended_all {writes : ℕ → ℕ} (progress : ∀ k, 0 < k → 0 < writes k)
    (logline : List Char) : appended writes logline = logline := by
  rw [appended, appendLoop_all logline.length 1 (by rw [List.length_drop]; omega)
    (fun later after => progress later after)]
  exact List.take_append_drop ..

/-! ## The log -/

/-- The constant members, and what `getLogFileName` asks the system for. -/
structure LogFileConfig where
  basename : List Char
  rollSize : ℤ
  flushInterval : ℤ
  checkEveryN : ℤ
  localtime : ℤ → Log.Tm
  hostname : List Char
  pid : ℕ

/-- `LogFile`, with the files that were closed. -/
structure LogFile where
  count : ℤ
  startOfPeriod : ℤ
  lastRoll : ℤ
  lastFlush : ℤ
  file : Option AppendFile
  closed : List AppendFile

inductive LogFileFault where
  | nullFile
  | assertion
  deriving DecidableEq, Repr

namespace LogFile

variable (config : LogFileConfig)

/-- `getLogFileName`; `strftime` prints the time as the format `.%Y%m%d-%H%M%S.` says. -/
def getLogFileName (now : ℤ) : List Char :=
  config.basename ++ ['.'] ++ Log.dateText (config.localtime now) ++ ['.'] ++ config.hostname ++
    ['.'] ++ decimal config.pid ++ ".log".toList

def kRollPerSeconds : ℤ := 60 * 60 * 24

def period (now : ℤ) : ℤ :=
  now.tdiv kRollPerSeconds * kRollPerSeconds

/-- `rollFile` when the clock shows `now`. -/
def rollFile (now : ℤ) (log : LogFile) : Bool × LogFile :=
  if log.lastRoll < now then
    (true, { log with
      lastRoll := now
      lastFlush := now
      startOfPeriod := period now
      closed := log.closed ++ log.file.toList
      file := some ⟨getLogFileName config now, now, [], 0⟩ })
  else (false, log)

/-- The constructor behind its assertion, when the clock shows `now`. -/
def new (now : ℤ) : LogFile :=
  (rollFile config now ⟨0, 0, 0, 0, none, []⟩).2

/-- The constructor; with `NDEBUG` nothing is asserted. -/
def construct (ndebug : Bool) (now : ℤ) : Except LogFileFault LogFile :=
  if !ndebug ∧ '/' ∈ config.basename then .error .assertion else .ok (new config now)

/-- What the system answers during one call: the sizes that `fwrite_unlocked` takes, and the
clock in `append_unlocked` and in `rollFile`. -/
structure Moment where
  writes : ℕ → ℕ
  now : ℤ
  rollNow : ℤ

def appendUnlocked (moment : Moment) (logline : List Char) (log : LogFile) :
    Except LogFileFault LogFile :=
  match log.file with
  | none => .error .nullFile
  | some file =>
      let file := file.append logline moment.writes
      let log := { log with file := some file }
      if config.rollSize < file.writtenBytes then .ok (rollFile config moment.rollNow log).2
      else
        let log := { log with count := log.count + 1 }
        if config.checkEveryN ≤ log.count then
          let log := { log with count := 0 }
          if period moment.now ≠ log.startOfPeriod then
            .ok (rollFile config moment.rollNow log).2
          else if config.flushInterval < moment.now - log.lastFlush then
            .ok { log with lastFlush := moment.now }
          else .ok log
        else .ok log

/-- `flush`, which writes nothing that was not appended. -/
def flush (log : LogFile) : Except LogFileFault LogFile :=
  match log.file with
  | none => .error .nullFile
  | some _ => .ok log

inductive Event where
  | append (moment : Moment) (logline : List Char)
  | flush
  | roll (now : ℤ)

/-- The public functions. -/
def step (log : LogFile) : Event → Except LogFileFault (Bool × LogFile)
  | .append moment logline => do return (true, ← appendUnlocked config moment logline log)
  | .flush => do return (true, ← log.flush)
  | .roll now => .ok (rollFile config now log)

/-! ## Every run -/

def Event.pieces : Event → List (List Char)
  | .append moment logline => [appended moment.writes logline]
  | _ => []

def files (log : LogFile) : List AppendFile :=
  log.closed ++ log.file.toList

/-- What holds between the calls, where `pieces` is what was appended. -/
structure Regular (log : LogFile) (pieces : List (List Char)) : Prop where
  current : ∃ file, log.file = some file ∧ file.opened = log.lastRoll
  day : log.startOfPeriod = period log.lastRoll
  counted : 0 ≤ log.count ∧ (log.count = 0 ∨ log.count < config.checkEveryN)
  kept : log.files.flatMap (·.pieces) = pieces
  named : ∀ file ∈ log.files, file.filename = getLogFileName config file.opened
  ordered : log.files.Pairwise (·.opened < ·.opened)

section Steps

variable {config} {log : LogFile} {pieces : List (List Char)}

theorem regular_new {now : ℤ} (positive : 0 < now) : Regular config (new config now) [] := by
  rw [new, rollFile, if_pos positive]
  refine ⟨⟨_, rfl, rfl⟩, rfl, ⟨Int.le_refl 0, .inl rfl⟩, rfl, ?_, ?_⟩
  · intro file member
    rw [List.mem_singleton.mp member]
  · exact List.pairwise_singleton ..

theorem Regular.rollFile (regular : Regular config log pieces) (now : ℤ) :
    Regular config (rollFile config now log).2 pieces := by
  rw [LogFile.rollFile]
  split_ifs with later
  · rcases regular.current with ⟨file, current, opened⟩
    have ordered := regular.ordered
    rw [files, current, Option.toList_some, List.pairwise_append] at ordered
    refine ⟨⟨_, rfl, rfl⟩, rfl, regular.counted, ?_, ?_, ?_⟩
    · rw [← regular.kept]
      simp [files]
    · intro other member
      rcases List.mem_append.mp member with earlier | last
      · exact regular.named other earlier
      · rw [List.mem_singleton.mp last]
    · refine List.pairwise_append.mpr ⟨regular.ordered, List.pairwise_singleton .., ?_⟩
      intro other earlier last same
      rw [List.mem_singleton.mp same]
      rcases List.mem_append.mp earlier with closed | this
      · have before := ordered.2.2 other closed file (List.mem_singleton_self file)
        simp only
        omega
      · rw [current, Option.toList_some, List.mem_singleton] at this
        rw [this, opened]
        exact later
  · exact regular

theorem Regular.append (regular : Regular config log pieces) {file : AppendFile}
    (current : log.file = some file) (logline : List Char) (writes : ℕ → ℕ) {count : ℤ}
    (counted : 0 ≤ count ∧ (count = 0 ∨ count < config.checkEveryN)) (lastFlush : ℤ) :
    Regular config
      { log with
        file := some (file.append logline writes)
        count := count
        lastFlush := lastFlush }
      (pieces ++ [appended writes logline]) := by
  have opened : file.opened = log.lastRoll := by
    rcases regular.current with ⟨other, same, opened⟩
    rw [current, Option.some.injEq] at same
    rw [same, opened]
  have kept := regular.kept
  have named := regular.named
  have ordered := regular.ordered
  rw [files, current, Option.toList_some] at kept named ordered
  refine ⟨⟨_, rfl, opened⟩, regular.day, counted, ?_, ?_, ?_⟩
  · rw [← kept]
    simp [files, AppendFile.append]
  · intro other member
    rcases List.mem_append.mp member with earlier | last
    · exact named other (List.mem_append_left _ earlier)
    · rw [Option.toList_some, List.mem_singleton] at last
      rw [last]
      exact named file (List.mem_append_right _ (List.mem_singleton_self file))
  · rw [List.pairwise_append] at ordered
    refine List.pairwise_append.mpr ⟨ordered.1, List.pairwise_singleton .., ?_⟩
    intro other earlier last same
    rw [Option.toList_some, List.mem_singleton] at same
    rw [same]
    exact ordered.2.2 other earlier file (List.mem_singleton_self file)

theorem appendUnlocked_regular (regular : Regular config log pieces) (moment : Moment)
    (logline : List Char) :
    ∃ next, appendUnlocked config moment logline log = .ok next ∧
      Regular config next (pieces ++ [appended moment.writes logline]) := by
  rcases regular.current with ⟨file, current, _⟩
  have counted := regular.counted
  have zero : (0 : ℤ) ≤ 0 ∧ ((0 : ℤ) = 0 ∨ (0 : ℤ) < config.checkEveryN) :=
    ⟨Int.le_refl 0, .inl rfl⟩
  rw [appendUnlocked, current]
  simp only
  split_ifs with full check late due
  · exact ⟨_, rfl, (regular.append current logline moment.writes counted _).rollFile _⟩
  · exact ⟨_, rfl, (regular.append current logline moment.writes zero _).rollFile _⟩
  · exact ⟨_, rfl, regular.append current logline moment.writes zero _⟩
  · exact ⟨_, rfl, regular.append current logline moment.writes zero _⟩
  · refine ⟨_, rfl, regular.append current logline moment.writes ⟨?_, .inr ?_⟩ _⟩
    · omega
    · omega

theorem step_regular (regular : Regular config log pieces) (event : Event) :
    ∃ reply next, step config log event = .ok (reply, next) ∧
      Regular config next (pieces ++ event.pieces) := by
  cases event with
  | append moment logline =>
      rcases appendUnlocked_regular regular moment logline with ⟨next, stepped, kept⟩
      refine ⟨true, next, ?_, kept⟩
      rw [step, Fallible.bind_ok stepped]
      rfl
  | flush =>
      rcases regular.current with ⟨file, current, _⟩
      refine ⟨true, log, ?_, by simpa only [Event.pieces, List.append_nil] using regular⟩
      rw [step, flush, current]
      rfl
  | roll now =>
      refine ⟨(LogFile.rollFile config now log).1, (LogFile.rollFile config now log).2, rfl, ?_⟩
      simpa only [Event.pieces, List.append_nil] using regular.rollFile now

end Steps

def Event.lines : Event → List (List Char)
  | .append _ logline => [logline]
  | _ => []

/-- No call of `fwrite_unlocked` after the first one of a line takes nothing. -/
def Event.Progress : Event → Prop
  | .append moment _ => ∀ k, 0 < k → 0 < moment.writes k
  | _ => True

theorem flatMap_pieces {events : List Event} (progress : ∀ event ∈ events, event.Progress) :
    events.flatMap Event.pieces = events.flatMap Event.lines := by
  induction events with
  | nil => rfl
  | cons event events induction =>
      have here := progress event (List.mem_cons_self ..)
      rw [List.flatMap_cons, List.flatMap_cons,
        induction fun other member => progress other (List.mem_cons_of_mem _ member)]
      congr 1
      cases event with
      | append moment logline => exact congrArg (· :: []) (appended_all here logline)
      | flush => rfl
      | roll now => rfl

theorem run_regular (config : LogFileConfig) {now : ℤ} (positive : 0 < now)
    (events : List Event) :
    ∃ replies log, run (step config) (new config now) events = .ok (replies, log) ∧
      Regular config log (events.flatMap Event.pieces) := by
  have keeps : ∀ (log : LogFile) (past : List Event) (event : Event),
      Regular config log (past.flatMap Event.pieces) → True →
      ∃ reply next, step config log event = .ok (reply, next) ∧
        Regular config next ((past ++ [event]).flatMap Event.pieces) := by
    intro log past event regular _
    rw [List.flatMap_append, List.flatMap_singleton]
    exact step_regular regular event
  exact Run.run_history keeps events (new config now) [] (regular_new positive)
    (Run.along_of_forall (fun _ _ => trivial) events _)

/-- Once the log was opened at a time after 1970 began, no call uses a file that is not there,
whatever the clock shows; the files were opened one after the other at later and later
times, each under the name of its time; and together they hold what was appended, no piece
in two of them, in its order. -/
theorem files_hold_pieces (config : LogFileConfig) (now : ℤ) (positive : 0 < now)
    (events : List Event) :
    ∃ replies log, run (step config) (new config now) events = .ok (replies, log) ∧
      log.files.flatMap (·.pieces) = events.flatMap Event.pieces ∧
      log.files.Pairwise (·.opened < ·.opened) ∧
      (∀ file ∈ log.files, file.filename = getLogFileName config file.opened) ∧
      ((∀ event ∈ events, event.Progress) →
        log.files.flatMap (·.pieces) = events.flatMap Event.lines) := by
  rcases run_regular config positive events with ⟨replies, log, ran, regular⟩
  refine ⟨replies, log, ran, regular.kept, regular.ordered, regular.named, ?_⟩
  intro progress
  rw [← flatMap_pieces progress]
  exact regular.kept

def sampleConfig : LogFileConfig where
  basename := "app".toList
  rollSize := 4
  flushInterval := 3
  checkEveryN := 1
  localtime := fun _ => .zero
  hostname := "host".toList
  pid := 7

def sampleMoment (now : ℤ) : Moment :=
  ⟨fun _ => 2, now, now⟩

/-- The second line makes the first file too large, the third one goes to a new file. -/
theorem files_hold_pieces_sample :
    ∃ replies log, run (step sampleConfig) (new sampleConfig 1)
        [.append (sampleMoment 2) "ab\n".toList, .append (sampleMoment 3) "cd\n".toList,
          .append (sampleMoment 4) "ef\n".toList] = .ok (replies, log) ∧
      log.files.map (·.pieces) = [["ab\n".toList, "cd\n".toList], ["ef\n".toList]] := by
  rcases files_hold_pieces sampleConfig 1 (by decide)
    [.append (sampleMoment 2) "ab\n".toList, .append (sampleMoment 3) "cd\n".toList,
      .append (sampleMoment 4) "ef\n".toList] with ⟨replies, log, ran, _⟩
  refine ⟨replies, log, ran, ?_⟩
  cases ran
  rfl

/-! ## The day changes -/

section Day

variable {config} {log next : LogFile} {pieces : List (List Char)}

theorem rollFile_lastRoll (now : ℤ) (log : LogFile) :
    log.lastRoll ≤ (rollFile config now log).2.lastRoll ∧
      (log.lastRoll < now → log.lastRoll < (rollFile config now log).2.lastRoll) := by
  rw [rollFile]
  split_ifs with later
  · exact ⟨Int.le_of_lt later, fun _ => later⟩
  · exact ⟨Int.le_refl _, fun ahead => absurd ahead later⟩

theorem appendUnlocked_lastRoll {moment : Moment} {logline : List Char}
    (appended : appendUnlocked config moment logline log = .ok next) :
    log.lastRoll ≤ next.lastRoll := by
  rw [appendUnlocked] at appended
  split at appended
  · cases appended
  · simp only at appended
    split_ifs at appended
    all_goals cases appended
    · exact (rollFile_lastRoll moment.rollNow _).1
    · exact (rollFile_lastRoll moment.rollNow _).1
    · exact Int.le_refl _
    · exact Int.le_refl _
    · exact Int.le_refl _

/-- On a later day an append opens a new file, or brings the next check nearer. -/
theorem appendUnlocked_late {moment : Moment} {logline : List Char}
    (late : period moment.now ≠ log.startOfPeriod) (ahead : log.lastRoll < moment.rollNow)
    (appended : appendUnlocked config moment logline log = .ok next) :
    log.lastRoll < next.lastRoll ∨
      next.lastRoll = log.lastRoll ∧ next.startOfPeriod = log.startOfPeriod ∧
        next.count = log.count + 1 ∧ next.count < config.checkEveryN := by
  rw [appendUnlocked] at appended
  split at appended
  · cases appended
  · simp only at appended
    split_ifs at appended with full check
    all_goals cases appended
    · exact .inl ((rollFile_lastRoll moment.rollNow _).2 ahead)
    · exact .inl ((rollFile_lastRoll moment.rollNow _).2 ahead)
    · exact .inr ⟨rfl, rfl, rfl, Int.not_le.mp check⟩

def appends (lines : List (Moment × List Char)) : List Event :=
  lines.map fun line => .append line.1 line.2

theorem run_appends_lastRoll {lines : List (Moment × List Char)} {replies : List Bool}
    (ran : run (step config) log (appends lines) = .ok (replies, next)) :
    log.lastRoll ≤ next.lastRoll := by
  induction lines generalizing log replies with
  | nil =>
      cases ran
      exact Int.le_refl _
  | cons line lines induction =>
      rcases Run.run_cons_inversion ran with ⟨reply, middle, rest, stepped, ranRest, _⟩
      rcases Fallible.of_bind_ok stepped with ⟨_, appended, same⟩
      cases same
      exact Int.le_trans (appendUnlocked_lastRoll appended) (induction ranRest)

theorem run_appends_late {lines : List (Moment × List Char)} {replies : List Bool}
    (late : ∀ line ∈ lines, period line.1.now ≠ log.startOfPeriod ∧ log.lastRoll < line.1.rollNow)
    (enough : config.checkEveryN - log.count ≤ lines.length) (some : lines ≠ [])
    (ran : run (step config) log (appends lines) = .ok (replies, next)) :
    log.lastRoll < next.lastRoll := by
  induction lines generalizing log replies with
  | nil => exact absurd rfl some
  | cons line lines induction =>
      rcases Run.run_cons_inversion ran with ⟨reply, middle, rest, stepped, ranRest, _⟩
      rcases Fallible.of_bind_ok stepped with ⟨_, appended, same⟩
      cases same
      rcases late line (List.mem_cons_self ..) with ⟨later, ahead⟩
      rcases appendUnlocked_late later ahead appended with rolled | ⟨roll, day, count, below⟩
      · exact Int.lt_of_lt_of_le rolled (run_appends_lastRoll ranRest)
      · rw [List.length_cons] at enough
        have more : lines ≠ [] := by
          rintro rfl
          simp only [List.length_nil] at enough
          omega
        rw [← roll]
        apply induction _ _ more ranRest
        · intro other member
          rw [roll, day]
          exact late other (List.mem_cons_of_mem _ member)
        · omega

/-- A new day is noticed in time: if `checkEveryN` lines or more are appended on other days
than that of the current file, a new file is opened for one of them. -/
theorem rolls_on_new_day (config : LogFileConfig) (now : ℤ) (positive : 0 < now)
    (events : List Event) (lines : List (Moment × List Char)) (replies : List Bool)
    (log next : LogFile) (some : lines ≠ []) (many : config.checkEveryN ≤ lines.length)
    (ran : run (step config) (new config now) events = .ok (replies, log))
    (late : ∀ line ∈ lines, period line.1.now ≠ period log.lastRoll ∧
      log.lastRoll < line.1.rollNow)
    (others : List Bool) (ranLines : run (step config) log (appends lines) = .ok (others, next)) :
    log.lastRoll < next.lastRoll := by
  rcases run_regular config positive events with ⟨_, same, again, regular⟩
  rw [ran, Except.ok.injEq, Prod.mk.injEq] at again
  rw [← again.2] at regular
  have counted := regular.counted.1
  apply run_appends_late _ _ some ranLines
  · intro line member
    rw [regular.day]
    exact late line member
  · omega

end Day

/-- A line on the second day of 1970. -/
theorem rolls_on_new_day_sample :
    ∃ others next, run (step sampleConfig) (new sampleConfig 1)
        (appends [(sampleMoment 86400, "a\n".toList)]) = .ok (others, next) ∧
      (1 : ℤ) < next.lastRoll := by
  refine ⟨_, _, rfl, ?_⟩
  apply rolls_on_new_day sampleConfig 1 (by decide) [] [(sampleMoment 86400, "a\n".toList)] []
    (new sampleConfig 1) _ (List.cons_ne_nil _ _) (Int.le_refl 1) rfl
  · intro line member
    rw [List.mem_singleton.mp member]
    exact ⟨by decide, by decide⟩
  · rfl

end LogFile

end Lctools.Muduo
