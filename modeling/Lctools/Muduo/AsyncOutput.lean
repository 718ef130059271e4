import Lctools.Muduo.AsyncLogging

/-! # What the appended lines become

The invariant of `AsyncLogging` over every interleaving: nothing fails, the order of the lines
is kept, when lines are lost, and that all others are written.
-/

namespace Lctools.Muduo

namespace AsyncLogging

theorem run_sound {events : List Event} (proper : Run.Along step Proper new events) :
    ∃ replies log, run step new events = .ok (replies, log) ∧
      Sound log (events.flatMap Event.lines) := by
  have keeps : ∀ (log : AsyncLogging) (past : List Event) (event : Event),
      Sound log (past.flatMap Event.lines) → Proper log event →
      ∃ reply next, step log event = .ok (reply, next) ∧
        Sound next ((past ++ [event]).flatMap Event.lines) := by
    intro log past event sound allowed
    rw [List.flatMap_append, List.flatMap_singleton]
    exact step_sound sound allowed
  exact Run.run_history keeps events new [] sound_new proper

theorem sound_of_run {events : List Event} {replies : List Unit} {log : AsyncLogging}
    (proper : Run.Along step Proper new events)
    (ran : run step new events = .ok (replies, log)) :
    Sound log (events.flatMap Event.lines) := by
  rcases run_sound proper with ⟨_, same, again, sound⟩
  rw [ran, Except.ok.injEq, Prod.mk.injEq] at again
  rwa [again.2]

/-- In every interleaving of appending threads with a thread that is started and stopped
properly, no assertion of `threadFunc` fails and no buffer that was moved away is used. -/
theorem threadFunc_never_fails (events : List Event) (proper : Run.Along step Proper new events) :
    ∃ replies log, run step new events = .ok (replies, log) := by
  rcases run_sound proper with ⟨replies, log, ran, _⟩
  exact ⟨replies, log, ran⟩

/-- In every interleaving the lines go, whole and in their order, to the buffers in their
order, and `output` is what is written of the buffers that were taken, in that order. -/
theorem output_eq_written (events : List Event) (proper : Run.Along step Proper new events)
    (replies : List Unit) (log : AsyncLogging)
    (ran : run step new events = .ok (replies, log)) :
    log.output ++ log.remaining = log.taken.flatMap written ∧
      ∃ groups : List (List (List Char)),
        groups.flatten = (events.flatMap Event.lines).filter Storable ∧
        (log.taken.flatMap (·.2) ++ log.buffers ++ log.currentBuffer.toList).map (·.data) =
          groups.map List.flatten := by
  have sound := sound_of_run proper ran
  exact ⟨sound.delivered, sound.kept⟩

/-! ## When lines are dropped -/

def bytes (buffers : List LargeBuffer) : ℕ :=
  (buffers.map (·.data.length)).sum

/-- All buffers but the last one of those that are taken are almost full. -/
theorem bytes_ge {bound : ℕ} : ∀ {buffers : List LargeBuffer},
    (∀ buffer ∈ buffers.dropLast, kLargeBuffer - bound ≤ buffer.data.length) →
    (buffers.length - 1) * (kLargeBuffer - bound) ≤ bytes buffers
  | [], _ => Nat.le_of_eq (Nat.zero_mul _)
  | [_], _ => Nat.le_trans (Nat.le_of_eq (Nat.zero_mul _)) (Nat.zero_le _)
  | first :: second :: rest, full => by
      have others : (second :: rest).length - 1 = rest.length := rfl
      have more := @bytes_ge bound (second :: rest)
        (fun buffer member => full buffer (List.mem_cons_of_mem _ member))
      have here := full first (List.mem_cons_self ..)
      have count : (first :: second :: rest).length - 1 = rest.length + 1 := rfl
      have total : bytes (first :: second :: rest) =
          first.data.length + bytes (second :: rest) := by
        simp [bytes]
      rw [others] at more
      rw [count, total, Nat.succ_mul]
      omega

theorem flatMap_written {taken : List (Timestamp × List LargeBuffer)}
    (few : ∀ batch ∈ taken, batch.2.length ≤ 25) :
    taken.flatMap written = (taken.flatMap (·.2)).map (·.data) := by
  induction taken with
  | nil => rfl
  | cons batch taken induction =>
      have here := few batch (List.mem_cons_self ..)
      rw [List.flatMap_cons, List.flatMap_cons, List.map_append, written, if_neg (by omega),
        induction (fun other member => few other (List.mem_cons_of_mem _ member))]

/-- Without a batch of more than 25 buffers all lines are written, or wait to be. -/
theorem Sound.flatten_eq {log : AsyncLogging} {lines : List (List Char)}
    (sound : Sound log lines) (few : ∀ batch ∈ log.taken, batch.2.length ≤ 25) :
    (log.output ++ log.remaining ++
      (log.buffers ++ log.currentBuffer.toList).map (·.data)).flatten =
      (lines.filter Storable).flatten := by
  rcases sound.kept with ⟨groups, flat, same⟩
  rw [held, List.append_assoc, List.map_append] at same
  rw [sound.delivered, flatMap_written few, same, ← flat, List.flatten_flatten]

theorem Sound.dropped_bytes {log : AsyncLogging} {lines : List (List Char)} {bound : ℕ}
    (sound : Sound log lines) (short : ∀ logline ∈ lines, logline.length ≤ bound)
    {batch : Timestamp × List LargeBuffer} (taken : batch ∈ log.taken)
    (many : 25 < batch.2.length) : 25 * (kLargeBuffer - bound) ≤ bytes batch.2 := by
  have full : ∀ buffer ∈ batch.2.dropLast, kLargeBuffer - bound ≤ buffer.data.length := by
    intro buffer member
    rcases sound.filled buffer (.inr ⟨batch, taken, member⟩) with ⟨logline, appended, room⟩
    have length := short logline appended
    unfold FixedBuffer.avail at room
    omega
  exact Nat.le_trans (Nat.mul_le_mul_right _ (by omega)) (bytes_ge full)

theorem Sound.flatten_of_few {log : AsyncLogging} {lines : List (List Char)} {bound : ℕ}
    (sound : Sound log lines) (storable : bound < kLargeBuffer)
    (short : ∀ logline ∈ lines, logline.length ≤ bound)
    (few : ∀ batch ∈ log.taken, bytes batch.2 < 25 * (kLargeBuffer - bound)) :
    (log.output ++ log.remaining ++
      (log.buffers ++ log.currentBuffer.toList).map (·.data)).flatten = lines.flatten := by
  have all : lines.filter Storable = lines := by
    apply List.filter_eq_self.mpr
    intro logline member
    exact decide_eq_true (Nat.lt_of_le_of_lt (short logline member) storable)
  have kept := sound.flatten_eq ?_
  · rwa [all] at kept
  · intro batch taken
    apply Nat.le_of_not_lt
    intro many
    have large := sound.dropped_bytes short taken many
    have small := few batch taken
    omega

/-- Lines of at most `bound` bytes are lost only when the buffers that are taken at once
have 25 times the bytes of a buffer without room for such a line; otherwise every byte is
written once, in the order of the lines. -/
theorem nothing_lost (events : List Event) (proper : Run.Along step Proper new events)
    (replies : List Unit) (log : AsyncLogging) (ran : run step new events = .ok (replies, log))
    (bound : ℕ) (storable : bound < kLargeBuffer)
    (short : ∀ logline ∈ events.flatMap Event.lines, logline.length ≤ bound)
    (few : ∀ batch ∈ log.taken, bytes batch.2 < 25 * (kLargeBuffer - bound)) :
    (log.output ++ log.remaining ++
      (log.buffers ++ log.currentBuffer.toList).map (·.data)).flatten =
      (events.flatMap Event.lines).flatten :=
  (sound_of_run proper ran).flatten_of_few storable short few

/-! ## Everything is written -/

/-- The thread takes some steps while nothing else happens. -/
def Reaches (now : Timestamp) (log last : AsyncLogging) : Prop :=
  ∃ count replies, run step log (List.replicate count (.thread now)) = .ok (replies, last)

section Reaches

variable {now : Timestamp} {log middle last : AsyncLogging} {lines : List (List Char)}

theorem Reaches.trans (first : Reaches now log middle) (second : Reaches now middle last) :
    Reaches now log last := by
  rcases first with ⟨count, replies, ran⟩
  rcases second with ⟨more, others, ranMore⟩
  refine ⟨count + more, replies ++ others, ?_⟩
  rw [List.replicate_add]
  exact Run.run_append_ok middle ran ranMore

theorem Reaches.step (stepped : log.threadFunc now = .ok last) : Reaches now log last := by
  refine ⟨1, [()], Run.run_cons_ok last ?_ rfl⟩
  rw [AsyncLogging.step, Fallible.bind_ok stepped]
  rfl

/-- What the thread leaves alone between two times it takes buffers. -/
def SameFront (log last : AsyncLogging) : Prop :=
  last.running = log.running ∧ last.buffers = log.buffers ∧ last.currentBuffer = log.currentBuffer

theorem recycle_front (recycled : log.recycle = .ok last) :
    last.place = .test ∧ SameFront log last := by
  rw [recycle] at recycled
  rcases Fallible.of_bind_ok recycled with ⟨⟨first, rest⟩, _, recycled⟩
  rcases Fallible.of_bind_ok recycled with ⟨⟨second, _⟩, _, recycled⟩
  cases recycled
  exact ⟨rfl, rfl, rfl, rfl⟩

theorem writing_reaches {count i : ℕ} (sound : Sound log lines) (writing : log.place = .writing i)
    (left : log.buffersToWrite.length - i = count) :
    ∃ last, Reaches now log last ∧ Sound last lines ∧ last.place = .test ∧ SameFront log last := by
  induction count generalizing log i with
  | zero =>
      have finished : log.buffersToWrite[i]? = none := List.getElem?_eq_none (by omega)
      rcases recycle_sound sound writing finished with ⟨last, recycled, kept⟩
      rcases recycle_front recycled with ⟨place, front⟩
      refine ⟨last, .step ?_, kept, place, front⟩
      rw [threadFunc, writing]
      simp only [finished]
      exact recycled
  | succ count induction =>
      have inside : i < log.buffersToWrite.length := by omega
      rcases threadFunc_sound sound now with ⟨next, stepped, kept⟩
      have first := Reaches.step stepped
      rw [threadFunc, writing] at stepped
      simp only [List.getElem?_eq_getElem inside, Except.ok.injEq] at stepped
      rw [← stepped] at kept first
      rcases induction kept rfl (by simp only; omega) with ⟨last, reached, sound, place, front⟩
      exact ⟨last, first.trans reached, sound, place, front⟩

theorem take_reaches (sound : Sound log lines) (taking : log.threadFunc now = log.take now)
    (first : log.newBuffer1 = some .empty) (second : log.newBuffer2 = some .empty)
    (idle : log.remaining = []) :
    ∃ last, Reaches now log last ∧ Sound last lines ∧ last.place = .test ∧
      last.running = log.running ∧ last.buffers = [] ∧ last.currentBuffer = some .empty := by
  rcases take_sound sound now first second idle with ⟨next, took, kept⟩
  have reached : Reaches now log next := .step (taking.trans took)
  have front : next.place = .writing 0 ∧ next.running = log.running ∧ next.buffers = [] ∧
      next.currentBuffer = some .empty := by
    rw [take] at took
    rcases Fallible.of_bind_ok took with ⟨current, _, took⟩
    rcases Fallible.of_bind_ok took with ⟨_, _, took⟩
    cases took
    exact ⟨rfl, rfl, rfl, first⟩
  rcases front with ⟨place, running, buffers, current⟩
  rcases @writing_reaches now next lines _ 0 kept place rfl with
    ⟨last, written, sound, ended, sameRunning, sameBuffers, sameCurrent⟩
  refine ⟨last, reached.trans written, sound, ended, ?_, ?_, ?_⟩
  · rw [sameRunning, running]
  · rw [sameBuffers, buffers]
  · rw [sameCurrent, current]

def Flushed (log : AsyncLogging) : Prop :=
  log.place = .test ∧ log.buffers = [] ∧ log.currentBuffer = some .empty

theorem wait_reaches (sound : Sound log lines) (place : log.place = .wait) :
    ∃ last, Reaches now log last ∧ Sound last lines ∧ Flushed last := by
  have ready := sound.ready
  rw [Ready, place] at ready
  have taking : log.threadFunc now = log.take now := by
    rw [threadFunc, place]
  rcases take_reaches sound taking ready.1 ready.2.1 (by rw [remaining, place]) with
    ⟨last, reached, kept, ended, _, buffers, current⟩
  exact ⟨last, reached, kept, ended, buffers, current⟩

theorem lock_reaches (sound : Sound log lines) (place : log.place = .lock) :
    ∃ last, Reaches now log last ∧ Sound last lines ∧ Flushed last := by
  have ready := sound.ready
  rw [Ready, place] at ready
  by_cases empty : log.buffers.isEmpty = true
  · have waiting : log.threadFunc now = .ok { log with place := .wait } := by
      rw [threadFunc, place]
      exact if_pos empty
    rcases threadFunc_sound sound now with ⟨next, stepped, kept⟩
    rw [waiting, Except.ok.injEq] at stepped
    rw [← stepped] at kept
    rcases @wait_reaches now _ lines kept rfl with ⟨last, reached, sound, flushed⟩
    exact ⟨last, (Reaches.step waiting).trans reached, sound, flushed⟩
  · have taking : log.threadFunc now = log.take now := by
      rw [threadFunc, place]
      exact if_neg empty
    rcases take_reaches sound taking ready.1 ready.2.1 (by rw [remaining, place]) with
      ⟨last, reached, kept, ended, _, buffers, current⟩
    exact ⟨last, reached, kept, ended, buffers, current⟩

theorem test_reaches (sound : Sound log lines) (place : log.place = .test)
    (running : log.running = true) :
    ∃ last, Reaches now log last ∧ Sound last lines ∧ Flushed last := by
  have ready := sound.ready
  rw [Ready, place] at ready
  rcases ready with ⟨first, second, none⟩
  have entering : log.threadFunc now = .ok { log with place := .lock } := by
    rw [threadFunc, place]
    simp only [running, if_true]
    rw [assert_bind (by rw [first]; rfl), assert_bind (by rw [second]; rfl),
      assert_bind (by rw [none]; rfl)]
    rfl
  rcases threadFunc_sound sound now with ⟨next, stepped, kept⟩
  rw [entering, Except.ok.injEq] at stepped
  rw [← stepped] at kept
  rcases @lock_reaches now _ lines kept rfl with ⟨last, reached, sound, flushed⟩
  exact ⟨last, (Reaches.step entering).trans reached, sound, flushed⟩

/-- While it is not stopped, the thread writes everything if it is left alone. -/
theorem Sound.reaches_flushed (sound : Sound log lines) (started : log.place ≠ .unstarted)
    (running : log.running = true) (now : Timestamp) :
    ∃ last, Reaches now log last ∧ Sound last lines ∧ Flushed last := by
  have ready := sound.ready
  cases place : log.place with
  | unstarted => exact absurd place started
  | entering =>
      rw [Ready, place] at ready
      have entered : log.threadFunc now = .ok { log with
          newBuffer1 := some .empty
          newBuffer2 := some .empty
          buffersToWrite := []
          place := .test } := by
        rw [threadFunc, place]
        simp only
        rw [assert_bind ready]
        rfl
      rcases threadFunc_sound sound now with ⟨next, stepped, kept⟩
      rw [entered, Except.ok.injEq] at stepped
      rw [← stepped] at kept
      rcases @test_reaches now _ lines kept rfl ready with ⟨last, reached, sound, flushed⟩
      exact ⟨last, (Reaches.step entered).trans reached, sound, flushed⟩
  | test => exact test_reaches sound place running
  | lock => exact lock_reaches sound place
  | wait => exact wait_reaches sound place
  | writing i =>
      rcases @writing_reaches now log lines _ i sound place rfl with
        ⟨middle, reached, kept, ended, front⟩
      rcases @test_reaches now middle lines kept ended (by rw [front.1, running]) with
        ⟨last, more, sound, flushed⟩
      exact ⟨last, reached.trans more, sound, flushed⟩
  | done =>
      rw [Ready, place, running] at ready
      cases ready

end Reaches

/-- From every state that an interleaving leads to, as long as the thread was started and not
stopped, finitely many steps of it take every line that was appended, and end with the
output being what is written of all that was taken. -/
theorem flushes_all_lines (events : List Event) (proper : Run.Along step Proper new events)
    (replies : List Unit) (log : AsyncLogging) (ran : run step new events = .ok (replies, log))
    (started : log.place ≠ .unstarted) (running : log.running = true) (now : Timestamp) :
    ∃ count others last, run step log (List.replicate count (.thread now)) = .ok (others, last) ∧
      Flushed last ∧ last.output = last.taken.flatMap written ∧
      ((last.taken.flatMap (·.2)).map (·.data)).flatten =
        ((events.flatMap Event.lines).filter Storable).flatten := by
  have sound := sound_of_run proper ran
  rcases sound.reaches_flushed started running now with
    ⟨last, ⟨count, others, reached⟩, kept, place, buffers, current⟩
  refine ⟨count, others, last, reached, ⟨place, buffers, current⟩, ?_, ?_⟩
  · have delivered := kept.delivered
    rwa [remaining, place, List.append_nil] at delivered
  · rcases kept.kept with ⟨groups, flat, contents⟩
    rw [held, buffers, current, List.append_nil, Option.toList_some, List.map_append] at contents
    rw [← flat, List.flatten_flatten, ← contents]
    simp [LargeBuffer.empty]

/-! ## An interleaving -/

/-- A line is appended before the thread runs, and one while it waits. -/
def sampleEvents : List Event :=
  [.append "one\n".toList, .start, .thread ⟨0⟩, .thread ⟨0⟩, .thread ⟨0⟩, .append "two\n".toList,
    .thread ⟨0⟩, .append "three\n".toList, .thread ⟨0⟩]

def sampleLog : AsyncLogging where
  running := true
  currentBuffer := some (LargeBuffer.empty.append "three\n".toList)
  nextBuffer := some .empty
  buffers := []
  place := .writing 1
  newBuffer1 := none
  newBuffer2 := some .empty
  buffersToWrite := [(LargeBuffer.empty.append "one\n".toList).append "two\n".toList]
  output := ["one\ntwo\n".toList]
  taken := [(⟨0⟩, [(LargeBuffer.empty.append "one\n".toList).append "two\n".toList])]

theorem sampleEvents_run :
    run step new sampleEvents = .ok (List.replicate 9 (), sampleLog) :=
  rfl

theorem sampleEvents_proper : Run.Along step Proper new sampleEvents := by
  rw [sampleEvents]
  refine (Run.along_cons_ok rfl).mpr ⟨trivial, ?_⟩
  refine (Run.along_cons_ok rfl).mpr ⟨rfl, ?_⟩
  iterate 7 refine (Run.along_cons_ok rfl).mpr ⟨trivial, ?_⟩
  exact trivial

theorem threadFunc_never_fails_sample :
    ∃ replies log, run step new sampleEvents = .ok (replies, log) :=
  threadFunc_never_fails sampleEvents sampleEvents_proper

theorem output_eq_written_sample :
    sampleLog.output ++ sampleLog.remaining = sampleLog.taken.flatMap written :=
  (output_eq_written sampleEvents sampleEvents_proper _ sampleLog sampleEvents_run).1

/-- The first two lines are in the output, the third one is in the current buffer. -/
theorem nothing_lost_sample :
    (sampleLog.output ++ sampleLog.remaining ++
      (sampleLog.buffers ++ sampleLog.currentBuffer.toList).map (·.data)).flatten =
      "one\ntwo\nthree\n".toList := by
  apply nothing_lost sampleEvents sampleEvents_proper _ sampleLog sampleEvents_run 6
    (Nat.le_of_ble_eq_true rfl)
  · decide
  · intro batch taken
    rw [List.mem_singleton.mp taken]
    exact Nat.le_of_ble_eq_true rfl

theorem flushes_all_lines_sample :
    ∃ count others last,
      run step sampleLog (List.replicate count (.thread ⟨0⟩)) = .ok (others, last) ∧
      Flushed last ∧ last.output = last.taken.flatMap written ∧
      ((last.taken.flatMap (·.2)).map (·.data)).flatten = "one\ntwo\nthree\n".toList :=
  flushes_all_lines sampleEvents sampleEvents_proper _ sampleLog sampleEvents_run nofun rfl ⟨0⟩

end AsyncLogging

end Lctools.Muduo
