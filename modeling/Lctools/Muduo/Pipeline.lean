import Lctools.Muduo.AsyncOutput
import Lctools.Muduo.Clog
import Lctools.Muduo.LogFile

/-! # From `muduo_clog_info` to the files

`muduo_clog_init` makes `asyncOutput` the output of every `Logger`. A record then goes to the
buffers of the `AsyncLogging` object, and its thread appends the buffers to a `LogFile`.
-/

namespace Lctools.Muduo

open CString

/-- The name that `muduo_clog_init` gives to the log. -/
def clogName (procName : List Char) : List Char :=
  let name := "/var/log/iridium/run/".toList
  name ++ snprintf (256 - name.length) (text procName)

/-- `muduo_clog_init` up to the constructor of `AsyncLogging`; `access` and `mkdir` say
whether they succeed. -/
def muduoClogInit (procName : Option (List Char)) (access mkdir : Bool) : Option (List Char) :=
  match procName with
  | none => none
  | some procName => if access || mkdir then some (clogName procName) else none

/-- The `LogFile` that `threadFunc` opens. -/
def clogFile (name : List Char) (rollSize : ℤ) (localtime : ℤ → Log.Tm) (hostname : List Char)
    (pid : ℕ) : LogFileConfig where
  basename := name
  rollSize := rollSize
  flushInterval := 3
  checkEveryN := 1024
  localtime := localtime
  hostname := hostname
  pid := pid

/-- What happens in the process: a thread calls one of the functions of the log, or the thread
of the log is started, stopped or takes a step. -/
inductive ClogEvent where
  | call (context : Context) (request : Call)
  | start
  | stop
  | thread (now : Timestamp)

namespace ClogEvent

def records : ClogEvent → List (List Char)
  | .call context request => (request.output context).toList
  | _ => []

/-- `asyncOutput`. -/
def events : ClogEvent → List AsyncLogging.Event
  | .call context request => (request.output context).toList.map .append
  | .start => [.start]
  | .stop => [.stop]
  | .thread now => [.thread now]

end ClogEvent

theorem length_output_lt {context : Context} {call : Call} {out : List Char}
    (passes : call.output context = some out) : out.length < kSmallBuffer := by
  rw [← ((call.output_eq_some_iff context out).mp passes).2]
  exact length_passed_lt ..

theorem lines_events (happened : List ClogEvent) :
    (happened.flatMap ClogEvent.events).flatMap AsyncLogging.Event.lines =
      happened.flatMap ClogEvent.records := by
  induction happened with
  | nil => rfl
  | cons event happened induction =>
      rw [List.flatMap_cons, List.flatMap_append, List.flatMap_cons, induction]
      congr 1
      cases event with
      | call context request =>
          rw [ClogEvent.events, ClogEvent.records]
          cases request.output context with
          | none => rfl
          | some out => rfl
      | start => rfl
      | stop => rfl
      | thread now => rfl

theorem length_records_lt {happened : List ClogEvent} {record : List Char}
    (member : record ∈ happened.flatMap ClogEvent.records) : record.length < kSmallBuffer := by
  rcases List.mem_flatMap.mp member with ⟨event, _, passes⟩
  cases event with
  | call context request =>
      rw [ClogEvent.records, Option.mem_toList] at passes
      exact length_output_lt passes
  | start => exact absurd passes List.not_mem_nil
  | stop => exact absurd passes List.not_mem_nil
  | thread now => exact absurd passes List.not_mem_nil

theorem muduoClogInit_directory {procName : Option (List Char)} {access mkdir : Bool}
    {name : List Char} (init : muduoClogInit procName access mkdir = some name) :
    "/var/log/iridium/run/".toList <+: name := by
  cases procName with
  | none => cases init
  | some procName =>
      rw [muduoClogInit] at init
      split_ifs at init
      · cases init
        exact List.prefix_append ..

theorem construct_clogFile {procName : Option (List Char)} {access mkdir : Bool}
    {name : List Char} (init : muduoClogInit procName access mkdir = some name) (rollSize : ℤ)
    (localtime : ℤ → Log.Tm) (hostname : List Char) (pid : ℕ) (ndebug : Bool) (now : ℤ) :
    LogFile.construct (clogFile name rollSize localtime hostname pid) ndebug now =
      if ndebug then .ok (.new (clogFile name rollSize localtime hostname pid) now)
      else .error .assertion := by
  have slash : '/' ∈ name := (muduoClogInit_directory init).subset (by decide)
  rw [LogFile.construct]
  cases ndebug with
  | true => rfl
  | false => exact if_pos ⟨rfl, slash⟩

/-- Whatever the order in which threads write records and the log's own thread runs, and
whatever the clock shows after 1970 began: built with `NDEBUG`, the files of an initialised
log together hold the records in the order in which they were written, each once and whole,
except for those that are still in memory. This needs that no write takes nothing, and that
less than 25 buffers of 8 MB are filled between two times the thread looks. Built without
it, the thread of the log stops at an assertion before it opens a file. -/
theorem files_hold_records (procName : Option (List Char)) (access mkdir : Bool)
    (name : List Char) (init : muduoClogInit procName access mkdir = some name)
    (happened : List ClogEvent)
    (proper : Run.Along AsyncLogging.step AsyncLogging.Proper .new
      (happened.flatMap ClogEvent.events))
    (replies : List Unit) (log : AsyncLogging)
    (ran : run AsyncLogging.step .new (happened.flatMap ClogEvent.events) = .ok (replies, log))
    (few : ∀ batch ∈ log.taken,
      AsyncLogging.bytes batch.2 < 25 * (kLargeBuffer - (kSmallBuffer - 1)))
    (rollSize : ℤ) (localtime : ℤ → Log.Tm) (hostname : List Char) (pid : ℕ) (now : ℤ)
    (positive : 0 < now) (fileEvents : List LogFile.Event)
    (progress : ∀ event ∈ fileEvents, event.Progress)
    (passed : fileEvents.flatMap LogFile.Event.lines = log.output) :
    LogFile.construct (clogFile name rollSize localtime hostname pid) false now =
        .error .assertion ∧
    ∃ opened answers files,
      LogFile.construct (clogFile name rollSize localtime hostname pid) true now = .ok opened ∧
      run (LogFile.step (clogFile name rollSize localtime hostname pid)) opened fileEvents =
        .ok (answers, files) ∧
      (∀ file ∈ files.files, "/var/log/iridium/run/".toList <+: file.filename) ∧
      ((files.files.flatMap (·.pieces)) ++ log.remaining ++
        (log.buffers ++ log.currentBuffer.toList).map (·.data)).flatten =
        (happened.flatMap ClogEvent.records).flatten := by
  rcases LogFile.run_regular (clogFile name rollSize localtime hostname pid) positive
      fileEvents with
    ⟨answers, files, ranFiles, regular⟩
  have written : files.files.flatMap (·.pieces) = log.output := by
    rw [regular.kept, LogFile.flatMap_pieces progress, passed]
  have constructed := construct_clogFile init rollSize localtime hostname pid
  refine ⟨constructed false now, _, answers, files, constructed true now, ranFiles, ?_, ?_⟩
  · intro file member
    have directory := muduoClogInit_directory init
    rw [regular.named file member]
    simp only [LogFile.getLogFileName, List.append_assoc]
    exact directory.trans (List.prefix_append ..)
  · have short : ∀ logline ∈
        (happened.flatMap ClogEvent.events).flatMap AsyncLogging.Event.lines,
        logline.length ≤ kSmallBuffer - 1 := by
      intro logline member
      rw [lines_events] at member
      exact Nat.le_sub_one_of_lt (length_records_lt member)
    have storable : kSmallBuffer - 1 < kLargeBuffer := Nat.le_of_ble_eq_true rfl
    rw [written, ← lines_events]
    exact (AsyncLogging.sound_of_run proper ran).flatten_of_few storable short few

def sampleHappened : List ClogEvent :=
  [.call sampleContext (infoCall "hello".toList), .start, .thread ⟨0⟩, .thread ⟨0⟩, .thread ⟨0⟩,
    .thread ⟨0⟩, .thread ⟨0⟩]

def sampleRecord : List Char :=
  "20180525 08:30:00.000007Z  4321 INFO  hello - main.c:42\n".toList

theorem sampleRecord_output :
    (infoCall "hello".toList).output sampleContext = some sampleRecord := by
  decide +kernel

theorem sampleHappened_events : sampleHappened.flatMap ClogEvent.events =
    [.append sampleRecord, .start, .thread ⟨0⟩, .thread ⟨0⟩, .thread ⟨0⟩, .thread ⟨0⟩,
      .thread ⟨0⟩] := by
  simp only [sampleHappened, ClogEvent.events, sampleRecord_output, List.flatMap_cons,
    List.flatMap_nil]
  rfl

theorem sampleHappened_proper : Run.Along AsyncLogging.step AsyncLogging.Proper .new
    (sampleHappened.flatMap ClogEvent.events) := by
  rw [sampleHappened_events]
  refine (Run.along_cons_ok rfl).mpr ⟨trivial, ?_⟩
  refine (Run.along_cons_ok rfl).mpr ⟨rfl, ?_⟩
  iterate 5 refine (Run.along_cons_ok rfl).mpr ⟨trivial, ?_⟩
  exact trivial

def sampleTaken : AsyncLogging where
  running := true
  currentBuffer := some .empty
  nextBuffer := some .empty
  buffers := []
  place := .writing 1
  newBuffer1 := none
  newBuffer2 := some .empty
  buffersToWrite := [LargeBuffer.empty.append sampleRecord]
  output := [sampleRecord]
  taken := [(⟨0⟩, [LargeBuffer.empty.append sampleRecord])]

theorem sampleHappened_run : run AsyncLogging.step .new
    (sampleHappened.flatMap ClogEvent.events) = .ok (List.replicate 7 (), sampleTaken) := by
  rw [sampleHappened_events]
  rfl

/-- The record is in the only file. -/
theorem files_hold_records_sample :
    ∃ opened answers files,
      LogFile.construct (clogFile (clogName "app".toList) 1000 (fun _ => sampleTm) "host".toList 7)
        true 1 = .ok opened ∧
      run
        (LogFile.step (clogFile (clogName "app".toList) 1000 (fun _ => sampleTm) "host".toList 7))
        opened [.append (LogFile.sampleMoment 1) sampleRecord, .flush] = .ok (answers, files) ∧
      (files.files.flatMap (·.pieces)).flatten = sampleRecord := by
  rcases files_hold_records (some "app".toList) true false (clogName "app".toList) rfl
    sampleHappened sampleHappened_proper _ sampleTaken sampleHappened_run
    (by
      intro batch taken
      rw [List.mem_singleton.mp taken]
      exact Nat.le_of_ble_eq_true rfl)
    1000 (fun _ => sampleTm) "host".toList 7 1 (by decide)
    [.append (LogFile.sampleMoment 1) sampleRecord, .flush]
    (by
      intro event member
      rcases List.mem_cons.mp member with rfl | flush
      · exact fun _ _ => Nat.two_pos
      · rw [List.mem_singleton.mp flush]
        trivial)
    rfl with ⟨_, opened, answers, files, constructed, ran, _, all⟩
  have rest : sampleTaken.remaining = [] ∧
      (sampleTaken.buffers ++ sampleTaken.currentBuffer.toList).map (·.data) = [[]] :=
    ⟨rfl, rfl⟩
  have records : sampleHappened.flatMap ClogEvent.records = [sampleRecord] := by
    simp only [sampleHappened, ClogEvent.records, sampleRecord_output, List.flatMap_cons,
      List.flatMap_nil]
    rfl
  rw [rest.1, rest.2, records] at all
  refine ⟨opened, answers, files, constructed, ran, ?_⟩
  simpa using all

end Lctools.Muduo
