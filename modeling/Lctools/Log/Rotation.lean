import Lctools.Log.OneLog
import Mathlib.Algebra.Order.BigOperators.Group.List
import Mathlib.Algebra.Order.Group.Nat

/-! # The counters of a log file

A node counts the records and the bytes of its file, and goes over to another file
when both are large. The counters are exact, the size stays bounded, and the number
of records does not overflow.
-/

namespace Lctools.Log

open CString

/-! ## What was written -/

/-- The sizes of the records that were written to a log since its file was changed
last; the newest event comes first. -/
def writtenSince (log : List Char) : List Event → List ℕ
  | [] => []
  | .fstat name true :: events => if name = log then [] else writtenSince log events
  | .wrote name _ _ written :: events =>
      if name = log ∧ 0 ≤ written then written.toNat :: writtenSince log events
      else writtenSince log events
  | _ :: events => writtenSince log events

/-- `fstat` succeeds, and `write` fails or takes the whole record. -/
structure WholeWrites (answers : WriteAnswers) : Prop where
  fstatOk : answers.fstatOk = true
  write : ∀ length, answers.write length < 0 ∨ answers.write length = length

section Events

variable (log : List Char) (world : World)

theorem writtenSince_processLock_locked (info : SingleLogConfInfo) (fd : ℤ) :
    writtenSince log (processLock info (.locked fd) world).events =
      writtenSince log world.events := by
  unfold processLock
  split_ifs
  · rfl
  · rfl

theorem writtenSince_processLock_unlocked (info : SingleLogConfInfo) (fd : ℤ) :
    writtenSince log (processLock info (.unlocked fd) world).events =
      writtenSince log world.events := by
  unfold processLock
  split_ifs
  · rfl
  · rfl

theorem writtenSince_createLogFileFd (globalLogPath : List Char) (opening : Opening)
    (node : LogFileNode) :
    writtenSince log (createLogFileFd globalLogPath opening node world).2.events =
      writtenSince log world.events := by
  simp only [createLogFileFd, World.add_events, writtenSince]
  split_ifs
  · rfl
  · rfl

theorem writtenSince_announce (info : SingleLogConfInfo) (level : Loglevl) (request : Request)
    (reading : Reading) :
    writtenSince log (announce info level request reading world).events =
      writtenSince log world.events := by
  rcases announce_events world info level request reading with same | ⟨record, printed⟩
  · rw [same]
  · rw [printed]
    rfl

end Events

/-! ## The length of a record -/

theorem fileRecord_length (switch : IrilogSwitch) (level : Loglevl) (texts : Texts) :
    7 ≤ (fileRecord switch level texts).length ∧
      (fileRecord switch level texts).length ≤ 32766 := by
  have name : 3 ≤ level.logInfo.length := by
    cases level with
    | debug => decide
    | info => decide
    | err => decide
    | fatal => decide
  simp only [fileRecord, snprintf, loginfoMaxLen, List.length_append, List.length_dropLast,
    List.length_take, List.length_cons, List.length_nil]
  omega

theorem recordOf_length (info : SingleLogConfInfo) (level : Loglevl) (request : Request)
    (reading : Reading) (world : World) :
    7 ≤ (recordOf info level request reading world).length ∧
      (recordOf info level request reading world).length ≤ 32766 :=
  fileRecord_length ..

/-! ## The counters -/

/-- The counters of the node of a log agree with what was written. -/
structure Counts (log : List Char) (limit : ℤ) (node : LogFileNode) (events : List Event) :
    Prop where
  name : node.name = log
  size : node.fileSize = (writtenSince log events).sum
  times : node.times = (writtenSince log events).length
  records : ∀ length ∈ writtenSince log events, 7 ≤ length ∧ length ≤ 32766
  bound : (node.fileSize : ℤ) ≤ max (501 * 32766) (limit + 32766)

/-- A log without a node was not written to. -/
def Counted (log : List Char) (limit : ℤ) : Option LogFileNode → World → Prop
  | none, world => writtenSince log world.events = []
  | some node, world => Counts log limit node world.events

section Counts

variable {log : List Char} {limit : ℤ} {node : LogFileNode} {events : List Event}

theorem Counts.size_le (counts : Counts log limit node events) :
    node.fileSize ≤ node.times * 32766 := by
  rw [counts.size, counts.times]
  exact List.sum_le_card_nsmul _ _ fun length member => (counts.records length member).2

theorem Counts.le_size (counts : Counts log limit node events) :
    node.times * 7 ≤ node.fileSize := by
  rw [counts.size, counts.times]
  exact List.card_nsmul_le_sum _ _ fun length member => (counts.records length member).1

theorem Counts.times_le (counts : Counts log limit node events) (small : limit < 2 ^ 32) :
    node.times ≤ 2 ^ 31 - 1 := by
  have least := counts.le_size
  have most := counts.bound
  omega

/-- What the counters say of the node is kept by everything that keeps the
counters and what was written. -/
theorem Counts.congr {other : LogFileNode} {later : List Event}
    (counts : Counts log limit node events) (name : other.name = node.name)
    (size : other.fileSize = node.fileSize) (times : other.times = node.times)
    (same : writtenSince log later = writtenSince log events) :
    Counts log limit other later where
  name := name.trans counts.name
  size := by rw [size, same, counts.size]
  times := by rw [times, same, counts.times]
  records := by
    rw [same]
    exact counts.records
  bound := by
    rw [size]
    exact counts.bound

theorem counts_empty {later : List Event} (name : node.name = log)
    (size : node.fileSize = 0) (times : node.times = 0) (none : writtenSince log later = []) :
    Counts log limit node later where
  name := name
  size := by rw [size, none, List.sum_nil]
  times := by rw [times, none, List.length_nil]
  records := by
    rw [none]
    intro length member
    cases member
  bound := by
    rw [size]
    omega

end Counts

/-! ## One write -/

section Write

variable {log : List Char} {info : SingleLogConfInfo} (globalLogPath : List Char)

theorem acquireNode_counts (short : log.length < fileNameLen)
    (opening : Opening) (id : ℕ) {found : Option LogFileNode} {world : World}
    (counted : Counted log info.singleMaxSize found world) :
    Counts log info.singleMaxSize
      (acquireNode globalLogPath opening log info id found world).1
      (acquireNode globalLogPath opening log info id found world).2.events := by
  cases found with
  | none =>
      rw [acquireNode, newLogFileNode]
      apply counts_empty
      · rw [createLogFileFd_name]
        exact List.take_of_length_le (Nat.le_pred_of_lt short)
      · rw [createLogFileFd_fileSize]
      · rw [createLogFileFd_times]
      · rw [writtenSince_createLogFileFd]
        exact counted
  | some node =>
      rw [acquireNode]
      split_ifs
      · exact counted.congr (createLogFileFd_name ..) (createLogFileFd_fileSize ..)
          (createLogFileFd_times ..) (writtenSince_createLogFileFd ..)
      · exact counted

/-- Behind the check of the size one of the two counters is small. -/
theorem rotate_counts {answers : WriteAnswers} (whole : WholeWrites answers)
    {node : LogFileNode} {world : World}
    (counts : Counts log info.singleMaxSize node world.events) :
    Counts log info.singleMaxSize (rotate globalLogPath info answers node world).1
        (rotate globalLogPath info answers node world).2.events ∧
      ((rotate globalLogPath info answers node world).1.times ≤ 500 ∨
        ((rotate globalLogPath info answers node world).1.fileSize : ℤ) ≤
          info.singleMaxSize) := by
  rw [rotate]
  by_cases large : writeTimes < node.times ∧ info.singleMaxSize < node.fileSize
  · rw [if_pos large, whole.fstatOk, if_pos rfl]
    constructor
    · apply counts_empty
      · simp only [createLogFileFd_name]
        exact counts.name
      · rfl
      · rfl
      · rw [writtenSince_createLogFileFd, World.add_events, writtenSince, if_pos counts.name]
    · exact .inl (Nat.zero_le _)
  · rw [if_neg large]
    refine ⟨counts, ?_⟩
    simp only [writeTimes] at large ⊢
    omega

theorem writeRecord_counts (fits : Fits info) {answers : WriteAnswers}
    (whole : WholeWrites answers) {record : List Char} (least : 7 ≤ record.length)
    (most : record.length ≤ 32766) {node : LogFileNode} {world : World}
    (counts : Counts log info.singleMaxSize node world.events)
    (room : node.times ≤ 500 ∨ (node.fileSize : ℤ) ≤ info.singleMaxSize) :
    Counts log info.singleMaxSize (writeRecord record answers node world).1
      (writeRecord record answers node world).2.events := by
  have result : (if 0 < node.fd then answers.write record.length else -1) < 0 ∨
      (if 0 < node.fd then answers.write record.length else -1) = record.length := by
    split_ifs
    · exact whole.write record.length
    · exact .inl (by decide)
  rw [writeRecord]
  generalize (if 0 < node.fd then answers.write record.length else -1) = written at result ⊢
  cases result with
  | inl failed =>
      simp only [if_pos failed]
      apply counts.congr rfl rfl rfl
      rw [World.add_events, writtenSince, if_neg]
      intro success
      omega
  | inr complete =>
      have size := counts.size_le
      have bound := counts.bound
      have sizeBounded := fits.1.2
      have sum : (node.fileSize + written.toNat) % 2 ^ 64 = node.fileSize + record.length := by
        omega
      have since : writtenSince log (.wrote node.name node.path record written :: world.events) =
          record.length :: writtenSince log world.events := by
        rw [writtenSince, if_pos ⟨counts.name, by omega⟩, complete, Int.toNat_natCast]
      rw [if_neg (by omega)]
      simp only [sum]
      refine ⟨counts.name, ?_, ?_, ?_, ?_⟩
      · rw [World.add_events, since, List.sum_cons, ← counts.size]
        exact Nat.add_comm ..
      · rw [World.add_events, since, List.length_cons, ← counts.times]
      · rw [World.add_events, since]
        intro length member
        cases List.mem_cons.mp member with
        | inl new => rw [new]; exact ⟨least, most⟩
        | inr old => exact counts.records length old
      · simp only
        omega

theorem appendRecord_counts (fits : Fits info) {answers : WriteAnswers}
    (whole : WholeWrites answers) {record : List Char} (least : 7 ≤ record.length)
    (most : record.length ≤ 32766) {node : LogFileNode} {world : World}
    (counts : Counts log info.singleMaxSize node world.events) :
    Counts log info.singleMaxSize (appendRecord globalLogPath info record answers node world).1
      (appendRecord globalLogPath info record answers node world).2.events := by
  have locked : Counts log info.singleMaxSize node
      (processLock info (.locked node.fd) world).events :=
    counts.congr rfl rfl rfl (writtenSince_processLock_locked ..)
  rcases rotate_counts globalLogPath whole locked with ⟨rotated, room⟩
  have written := writeRecord_counts fits whole least most rotated room
  exact written.congr rfl rfl rfl (writtenSince_processLock_unlocked ..)

theorem writeNode_counted (fits : Fits info) (short : log.length < fileNameLen)
    {answers : WriteAnswers} (whole : WholeWrites answers) {record : List Char}
    (least : 7 ≤ record.length) (most : record.length ≤ 32766) (id : ℕ)
    {found : Option LogFileNode} {world : World}
    (counted : Counted log info.singleMaxSize found world) :
    Counted log info.singleMaxSize
      (some (writeNode globalLogPath log info id record answers found world).1)
      (writeNode globalLogPath log info id record answers found world).2 := by
  have acquired := acquireNode_counts globalLogPath short answers.opening id counted
  simp only [writeNode]
  split_ifs
  · exact acquired
  · exact appendRecord_counts globalLogPath fits whole least most acquired

end Write

/-! ## Runs -/

/-- The node of a log and its counters in a state of a run. -/
def CountsIn (infos : LogConfInfos) (logFile : List Char) (limit : ℤ) (state : LogState) : Prop :=
  ∃ store, Usable state infos store ∧ Counted logFile limit (store.find logFile) state.world

theorem countsIn_writeStep {infos : LogConfInfos} {log : Option (List Char)} {id : ℕ}
    {info : SingleLogConfInfo} {logFile : List Char}
    (chosen : Chosen infos (.live infos.names) log id info logFile) {state next : LogState}
    {write : Write} {ret : ℤ} (counted : CountsIn infos logFile info.singleMaxSize state)
    (toLog : write.request.logFile = log) (whole : WholeWrites write.answers)
    (written : writeStep state write = .ok (ret, next)) :
    CountsIn infos logFile info.singleMaxSize next := by
  rcases counted with ⟨store, usable, counted⟩
  have announced : ∀ (record : SingleLogConfInfo) level,
      Counted logFile info.singleMaxSize (store.find logFile)
        (announce record level write.request write.answers.reading state.world) := by
    intro record level
    generalize store.find logFile = found at counted
    cases found with
    | none => exact (writtenSince_announce ..).trans counted
    | some node => exact counted.congr rfl rfl rfl (writtenSince_announce ..)
  have fits := chosen.fits usable.loaded
  have short := chosen.short usable.loaded
  rcases writeStep_keeps usable chosen toLog counted announced (fun level =>
    writeNode_counted state.globalLogPath fits short whole (recordOf_length ..).1
      (recordOf_length ..).2 id (announced info level)) written with
    ⟨last, lastUsable, _, lastCounted⟩
  exact ⟨last, lastUsable, lastCounted⟩

/-- In every run of writes to one log, `file_size` is the number of bytes and
`times` the number of records written since the last change of its file, the size
is bounded by the two regimes of the check, and `times` does not overflow. -/
theorem rotation_counters {host : Host} {logpath : Option (List Char)} {init : InitAnswers}
    {start : LogState} (inited : iridiumInitLog logpath init (.start host) = .ok (0, start))
    {log : Option (List Char)} {writes : List Write}
    (toLog : ∀ write ∈ writes, write.request.logFile = log)
    (whole : ∀ write ∈ writes, WholeWrites write.answers) {replies : List ℤ} {state : LogState}
    (ran : run writeStep start writes = .ok (replies, state))
    {infos : LogConfInfos} (live : start.infos = .live infos) {id : ℕ}
    {info : SingleLogConfInfo} {logFile : List Char}
    (chosen : Chosen infos (.live infos.names) log id info logFile) {store : NodeStore}
    (nodes : state.logFileNodes = .live store) {node : LogFileNode}
    (found : store.find logFile = some node) :
    (node.fileSize : ℤ) ≤ max (501 * 32766) (info.singleMaxSize + 32766) ∧
      node.fileSize = (writtenSince logFile state.world.events).sum ∧
      node.times = (writtenSince logFile state.world.events).length ∧
      node.times ≤ 2 ^ 31 - 1 := by
  rcases usable_of_init inited with ⟨loaded, usable, world⟩
  rw [usable.live] at live
  cases live
  have before : CountsIn infos logFile info.singleMaxSize start := by
    refine ⟨.empty, usable, ?_⟩
    rw [world]
    rfl
  have kept : ∀ state write ret next, CountsIn infos logFile info.singleMaxSize state →
      write ∈ writes → writeStep state write = .ok (ret, next) →
      CountsIn infos logFile info.singleMaxSize next := by
    intro state write ret next counted member written
    exact countsIn_writeStep chosen counted (toLog write member) (whole write member) written
  rcases Run.run_invariant kept writes start replies state before (fun _ member => member) ran
    with ⟨last, usable, counted⟩
  rw [usable.nodes] at nodes
  cases nodes
  rw [found] at counted
  exact ⟨counted.bound, counted.size, counted.times,
    counted.times_le (chosen.fits usable.loaded).1.2⟩

/-- Two messages for a log without a section, which has the default limit. -/
theorem rotation_counters_twice :
    ∃ start replies state store node,
      iridiumInitLog none ⟨true, true, .missing, nul, id, 0, .zero⟩
        (.start ⟨"app".toList, "box".toList, 1, by decide⟩) = .ok (0, start) ∧
      run writeStep start (List.replicate 2
        ⟨sampleRequest, sampleAnswers ⟨true, true, .missing, nul, id, 0, .zero⟩⟩) =
          .ok (replies, state) ∧
      state.logFileNodes = .live store ∧ store.find "a".toList = some node ∧ node.times = 2 ∧
      (node.fileSize : ℤ) ≤ max (501 * 32766) (30 * 1024 * 1024 + 32766) ∧
      node.fileSize = (writtenSince "a".toList state.world.events).sum := by
  refine ⟨_, _, _, _, _, rfl, rfl, rfl, rfl, rfl, ?_⟩
  have counters := @rotation_counters ⟨"app".toList, "box".toList, 1, by decide⟩ none
    ⟨true, true, .missing, nul, id, 0, .zero⟩ _ rfl (some "a".toList)
    (List.replicate 2 ⟨sampleRequest, sampleAnswers ⟨true, true, .missing, nul, id, 0, .zero⟩⟩)
    (by
      intro write member
      rw [List.eq_of_mem_replicate member]
      rfl)
    (by
      intro write member
      rw [List.eq_of_mem_replicate member]
      exact ⟨rfl, fun length => .inr rfl⟩)
    _ _ rfl _ rfl infosIdDefault _ "a".toList ⟨rfl, rfl, rfl⟩ _ rfl _ rfl
  exact ⟨counters.1, counters.2.1⟩

end Lctools.Log
