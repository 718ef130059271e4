import Lctools.Foundation.Run
import Lctools.Muduo.LogStream
import Lctools.Muduo.Timestamp

/-! # `muduo/base/AsyncLogging`

Any number of threads append lines to the current buffer. One thread takes the buffers
that were filled, writes them, and gives two of them back.
-/

namespace Lctools.Muduo

open CString Numerals

/-! ## Buffers -/

namespace FixedBuffer

variable {size : ℕ}

/-- `FixedBuffer::append`, which stores all of `buf` or nothing. -/
def append (buffer : FixedBuffer size) (buf : List Char) : FixedBuffer size :=
  if room : buf.length < buffer.avail then
    { data := buffer.data ++ buf
      inside := by
        rw [List.length_append]
        unfold avail at room
        omega }
  else buffer

theorem data_append (buffer : FixedBuffer size) (buf : List Char) :
    (buffer.append buf).data = if buf.length < buffer.avail then buffer.data ++ buf
      else buffer.data := by
  unfold append
  split_ifs
  · rfl
  · rfl

end FixedBuffer

def kLargeBuffer : ℕ := 8000 * 1000

abbrev LargeBuffer := FixedBuffer kLargeBuffer

/-- `new Buffer`, and a buffer after `reset`. -/
def LargeBuffer.empty : LargeBuffer :=
  ⟨[], Nat.lt_of_sub_pos (Nat.le_of_ble_eq_true rfl)⟩

/-! ## The program -/

/-- Where the thread that runs `threadFunc` is. -/
inductive Place where
  /-- `start` was not called yet. -/
  | unstarted
  /-- Before `latch_.countDown()`. -/
  | entering
  /-- At `while (running_)`. -/
  | test
  /-- Before it locks `mutex_`. -/
  | lock
  /-- In `waitForSeconds`, without the mutex. -/
  | wait
  /-- In the loop that writes, at `buffersToWrite[i]`. -/
  | writing (i : ℕ)
  | done
  deriving DecidableEq, Repr

inductive AsyncFault where
  | assertion
  | nullBuffer
  deriving DecidableEq, Repr

/-- The members of the object and the variables of `threadFunc`. What `output.append` was
called with, and the buffers that were taken at once, are recorded. -/
structure AsyncLogging where
  running : Bool
  currentBuffer : Option LargeBuffer
  nextBuffer : Option LargeBuffer
  buffers : List LargeBuffer
  place : Place
  newBuffer1 : Option LargeBuffer
  newBuffer2 : Option LargeBuffer
  buffersToWrite : List LargeBuffer
  output : List (List Char)
  taken : List (Timestamp × List LargeBuffer)

namespace AsyncLogging

def new : AsyncLogging where
  running := false
  currentBuffer := some .empty
  nextBuffer := some .empty
  buffers := []
  place := .unstarted
  newBuffer1 := none
  newBuffer2 := none
  buffersToWrite := []
  output := []
  taken := []

def deref (buffer : Option LargeBuffer) : Except AsyncFault LargeBuffer :=
  match buffer with
  | some buffer => .ok buffer
  | none => .error .nullBuffer

def assert (condition : Bool) : Except AsyncFault Unit :=
  if condition then .ok () else .error .assertion

theorem deref_bind {α : Type} {buffer : Option LargeBuffer} {value : LargeBuffer}
    (present : buffer = some value) (next : LargeBuffer → Except AsyncFault α) :
    (deref buffer >>= next) = next value := by
  rw [present]
  rfl

theorem assert_bind {α : Type} {condition : Bool} (holds : condition = true)
    (next : Unit → Except AsyncFault α) : (assert condition >>= next) = next () := by
  rw [holds]
  rfl

def append (log : AsyncLogging) (logline : List Char) : Except AsyncFault AsyncLogging := do
  let current ← deref log.currentBuffer
  if logline.length < current.avail then
    return { log with currentBuffer := some (current.append logline) }
  else
    let next := log.nextBuffer.getD .empty
    return { log with
      buffers := log.buffers ++ [current]
      currentBuffer := some (next.append logline)
      nextBuffer := none }

def droppedText (now : Timestamp) (count : ℕ) : List Char :=
  snprintf 256 ("Dropped log messages at ".toList ++ now.toFormattedString true ++ ", ".toList ++
    decimal count ++ " larger buffers\n".toList)

/-- The end of the critical section, and the check of what was taken. -/
def take (log : AsyncLogging) (now : Timestamp) : Except AsyncFault AsyncLogging := do
  let current ← deref log.currentBuffer
  let buffersToWrite := log.buffers ++ [current]
  let (nextBuffer, newBuffer2) :=
    match log.nextBuffer with
    | some next => (some next, log.newBuffer2)
    | none => (log.newBuffer2, none)
  assert (!buffersToWrite.isEmpty)
  let dropping := 25 < buffersToWrite.length
  return { log with
    currentBuffer := log.newBuffer1
    newBuffer1 := none
    nextBuffer := nextBuffer
    newBuffer2 := newBuffer2
    buffers := []
    buffersToWrite := if dropping then buffersToWrite.take 2 else buffersToWrite
    output := if dropping then log.output ++ [droppedText now (buffersToWrite.length - 2)]
      else log.output
    place := .writing 0
    taken := log.taken ++ [(now, buffersToWrite)] }

/-- `buffersToWrite.pop_back()` into a pointer that is null, and `reset`. -/
def refill (newBuffer : Option LargeBuffer) (buffersToWrite : List LargeBuffer) :
    Except AsyncFault (Option LargeBuffer × List LargeBuffer) := do
  match newBuffer with
  | some buffer => return (some buffer, buffersToWrite)
  | none =>
      assert (!buffersToWrite.isEmpty)
      return (some .empty, buffersToWrite.dropLast)

theorem refill_none {buffersToWrite : List LargeBuffer} (some : buffersToWrite ≠ []) :
    refill none buffersToWrite = .ok (Option.some .empty, buffersToWrite.dropLast) := by
  have nonempty : (!buffersToWrite.isEmpty) = true := by simpa using some
  simp only [refill]
  rw [assert_bind nonempty]
  rfl

def recycle (log : AsyncLogging) : Except AsyncFault AsyncLogging := do
  let buffersToWrite := log.buffersToWrite.take 2
  let (newBuffer1, buffersToWrite) ← refill log.newBuffer1 buffersToWrite
  let (newBuffer2, _) ← refill log.newBuffer2 buffersToWrite
  return { log with
    newBuffer1 := newBuffer1
    newBuffer2 := newBuffer2
    buffersToWrite := []
    place := .test }

/-- The next step of `threadFunc`. A wait ends by a notification, by a timeout or without a
cause, and what it waited for is not looked at again. -/
def threadFunc (log : AsyncLogging) (now : Timestamp) : Except AsyncFault AsyncLogging :=
  match log.place with
  | .unstarted => .ok log
  | .entering => do
      assert log.running
      return { log with
        newBuffer1 := some .empty
        newBuffer2 := some .empty
        buffersToWrite := []
        place := .test }
  | .test =>
      if log.running then do
        assert (log.newBuffer1.any (·.data.isEmpty))
        assert (log.newBuffer2.any (·.data.isEmpty))
        assert log.buffersToWrite.isEmpty
        return { log with place := .lock }
      else .ok { log with place := .done }
  | .lock =>
      if log.buffers.isEmpty then .ok { log with place := .wait }
      else log.take now
  | .wait => log.take now
  | .writing i =>
      match log.buffersToWrite[i]? with
      | some buffer =>
          .ok { log with output := log.output ++ [buffer.data], place := .writing (i + 1) }
      | none => log.recycle
  | .done => .ok log

/-- What happens next: a thread appends a line, the owner starts or stops the thread, or that
thread takes a step. -/
inductive Event where
  | append (logline : List Char)
  | start
  | stop
  | thread (now : Timestamp)

def step (log : AsyncLogging) : Event → Except AsyncFault (Unit × AsyncLogging)
  | .append logline => do return ((), ← log.append logline)
  | .start => do
      assert (log.place == .unstarted)
      return ((), { log with running := true, place := .entering })
  | .stop => .ok ((), { log with running := false })
  | .thread now => do return ((), ← log.threadFunc now)

/-! ## What is kept -/

def Event.lines : Event → List (List Char)
  | .append logline => [logline]
  | _ => []

def Storable (logline : List Char) : Prop :=
  logline.length < kLargeBuffer

instance (logline : List Char) : Decidable (Storable logline) :=
  inferInstanceAs (Decidable (_ < _))

/-- What is written of the buffers that were taken at once. -/
def written (batch : Timestamp × List LargeBuffer) : List (List Char) :=
  if 25 < batch.2.length then
    droppedText batch.1 (batch.2.length - 2) :: (batch.2.take 2).map (·.data)
  else batch.2.map (·.data)

/-- What is still to be written of the buffers that were taken last. -/
def remaining (log : AsyncLogging) : List (List Char) :=
  match log.place with
  | .writing i => (log.buffersToWrite.drop i).map (·.data)
  | _ => []

/-- All buffers with lines, from the oldest line to the latest. -/
def held (log : AsyncLogging) : List LargeBuffer :=
  log.taken.flatMap (·.2) ++ log.buffers ++ log.currentBuffer.toList

/-- The spare buffers of `threadFunc`. -/
def Ready (log : AsyncLogging) : Prop :=
  match log.place with
  | .test | .lock | .wait =>
      log.newBuffer1 = some .empty ∧ log.newBuffer2 = some .empty ∧ log.buffersToWrite = []
  | .writing _ =>
      log.newBuffer1 = none ∧ log.buffersToWrite ≠ [] ∧
        (log.newBuffer2 = some .empty ∨
          log.newBuffer2 = none ∧ 2 ≤ log.buffersToWrite.length)
  | .entering => log.running = true
  | .done => log.running = false
  | .unstarted => True

/-- Groups of lines that are, one after the other, the contents of the buffers. -/
def Grouped (buffers : List LargeBuffer) (lines : List (List Char)) : Prop :=
  ∃ groups : List (List (List Char)), groups.flatten = lines ∧
    buffers.map (·.data) = groups.map List.flatten

/-- Every buffer that is not the last one of those taken with it had no room for a line. -/
def Filled (log : AsyncLogging) (lines : List (List Char)) : Prop :=
  ∀ buffer : LargeBuffer, (buffer ∈ log.buffers ∨ ∃ batch ∈ log.taken, buffer ∈ batch.2.dropLast) →
    ∃ logline ∈ lines, buffer.avail ≤ logline.length

/-- What holds after every event, where `lines` are the lines that were appended. -/
structure Sound (log : AsyncLogging) (lines : List (List Char)) : Prop where
  current : ∃ buffer, log.currentBuffer = some buffer
  next : log.nextBuffer = some .empty ∨ log.nextBuffer = none ∧ log.buffers ≠ []
  ready : log.Ready
  delivered : log.output ++ log.remaining = log.taken.flatMap written
  kept : Grouped log.held (lines.filter Storable)
  filled : log.Filled lines

/-- The thread is started once, and it is stopped only after `start` returned. -/
def Proper (log : AsyncLogging) : Event → Prop
  | .start => log.place = .unstarted
  | .stop => log.place ≠ .entering
  | _ => True

theorem sound_new : Sound new [] where
  current := ⟨_, rfl⟩
  next := .inl rfl
  ready := trivial
  delivered := rfl
  kept := ⟨[[]], rfl, rfl⟩
  filled := by
    rintro buffer (waiting | ⟨batch, taken, _⟩)
    · exact absurd waiting List.not_mem_nil
    · exact absurd taken List.not_mem_nil

theorem Filled.append_line {log : AsyncLogging} {lines : List (List Char)}
    (filled : log.Filled lines) (logline : List Char) : log.Filled (lines ++ [logline]) := by
  intro buffer place
  rcases filled buffer place with ⟨other, member, room⟩
  exact ⟨other, List.mem_append_left _ member, room⟩

section Grouped

variable {buffers : List LargeBuffer} {buffer : LargeBuffer} {lines : List (List Char)}
  {logline : List Char}

theorem Grouped.extend (grouped : Grouped (buffers ++ [buffer]) lines)
    (room : logline.length < buffer.avail) :
    Grouped (buffers ++ [buffer.append logline]) (lines ++ [logline]) := by
  rcases grouped with ⟨groups, flat, same⟩
  rw [List.map_append, List.map_singleton] at same
  rcases List.map_eq_append_iff.mp same.symm with ⟨front, back, rfl, first, last⟩
  rcases List.map_eq_singleton_iff.mp last with ⟨group, rfl, whole⟩
  refine ⟨front ++ [group ++ [logline]], ?_, ?_⟩
  · rw [← flat]
    simp
  · rw [List.map_append, List.map_singleton, List.map_append, List.map_singleton, first,
      FixedBuffer.data_append, if_pos room, ← whole]
    simp

theorem Grouped.push (grouped : Grouped buffers lines) :
    Grouped (buffers ++ [LargeBuffer.empty]) lines := by
  rcases grouped with ⟨groups, flat, same⟩
  refine ⟨groups ++ [[]], ?_, ?_⟩
  · simpa using flat
  · rw [List.map_append, List.map_append, same]
    rfl

end Grouped

theorem storable_of_room {buffer : LargeBuffer} {logline : List Char}
    (room : logline.length < buffer.avail) : Storable logline :=
  Nat.lt_of_lt_of_le room (Nat.sub_le ..)

theorem filter_storable (lines : List (List Char)) {logline : List Char}
    (storable : Storable logline) :
    (lines ++ [logline]).filter Storable = lines.filter Storable ++ [logline] := by
  simp [storable]

theorem filter_not_storable (lines : List (List Char)) {logline : List Char}
    (long : ¬Storable logline) :
    (lines ++ [logline]).filter Storable = lines.filter Storable := by
  simp [long]

theorem Grouped.append_empty {buffers : List LargeBuffer} {lines : List (List Char)}
    (grouped : Grouped buffers (lines.filter Storable)) (logline : List Char) :
    Grouped (buffers ++ [LargeBuffer.empty.append logline])
      ((lines ++ [logline]).filter Storable) := by
  by_cases storable : Storable logline
  · rw [filter_storable lines storable]
    exact grouped.push.extend storable
  · have full : ¬logline.length < FixedBuffer.avail LargeBuffer.empty := storable
    rw [filter_not_storable lines storable, FixedBuffer.append, dif_neg full]
    exact grouped.push

section Steps

variable {log : AsyncLogging} {lines : List (List Char)}

theorem append_sound (sound : Sound log lines) (logline : List Char) :
    ∃ next, log.append logline = .ok next ∧ Sound next (lines ++ [logline]) := by
  rcases sound.current with ⟨buffer, current⟩
  have kept := sound.kept
  rw [held, current, Option.toList_some] at kept
  rw [append, deref_bind current]
  split
  · next room =>
      refine ⟨_, rfl, ⟨_, rfl⟩, sound.next, sound.ready, sound.delivered, ?_,
        sound.filled.append_line logline⟩
      rw [filter_storable lines (storable_of_room room)]
      exact kept.extend room
  · have spare : log.nextBuffer.getD .empty = .empty := by
      rcases sound.next with next | ⟨next, _⟩
      · rw [next, Option.getD_some]
      · rw [next, Option.getD_none]
    refine ⟨_, rfl, ⟨_, rfl⟩, .inr ⟨rfl, ?_⟩, sound.ready, sound.delivered, ?_, ?_⟩
    · simp
    · have longer := kept.append_empty logline
      rw [spare]
      simpa only [held, Option.toList_some, List.append_assoc] using longer
    · rintro other (waiting | taken)
      · rcases List.mem_append.mp waiting with earlier | last
        · exact sound.filled.append_line logline other (.inl earlier)
        · rw [List.mem_singleton.mp last]
          exact ⟨logline, by simp, by omega⟩
      · exact sound.filled.append_line logline other (.inr taken)

/-- At least one buffer is left to be written, and two if two are to be given back. -/
theorem take_length {buffers : List LargeBuffer} (buffer : LargeBuffer) :
    let left := if 25 < (buffers ++ [buffer]).length then (buffers ++ [buffer]).take 2
      else buffers ++ [buffer]
    left ≠ [] ∧ (buffers ≠ [] → 2 ≤ left.length) := by
  intro left
  have total : (buffers ++ [buffer]).length = buffers.length + 1 := by simp
  have length : left.length = if 25 < buffers.length + 1 then 2 else buffers.length + 1 := by
    simp only [left, total]
    split_ifs
    · rw [List.length_take, total]
      omega
    · exact total
  refine ⟨List.ne_nil_of_length_pos ?_, ?_⟩
  · rw [length]
    split_ifs <;> omega
  · intro filled
    have more := List.length_pos_of_ne_nil filled
    rw [length]
    split_ifs <;> omega

theorem take_sound (sound : Sound log lines) (now : Timestamp)
    (first : log.newBuffer1 = some .empty) (second : log.newBuffer2 = some .empty)
    (idle : log.remaining = []) : ∃ next, log.take now = .ok next ∧ Sound next lines := by
  rcases sound.current with ⟨buffer, current⟩
  have kept := sound.kept
  have delivered := sound.delivered
  rw [idle, List.append_nil] at delivered
  rw [held, current, Option.toList_some] at kept
  have nonempty : (!(log.buffers ++ [buffer]).isEmpty) = true := by simp
  rcases @take_length log.buffers buffer with ⟨some, two⟩
  rw [take, deref_bind current]
  simp only
  rw [assert_bind nonempty]
  refine ⟨_, rfl, ⟨_, first⟩, ?_, ⟨rfl, some, ?_⟩, ?_, ?_, ?_⟩
  · rcases sound.next with next | ⟨next, _⟩
    · rw [next]
      exact .inl rfl
    · rw [next]
      exact .inl second
  · rcases sound.next with next | ⟨next, filled⟩
    · rw [next]
      exact .inl second
    · rw [next]
      exact .inr ⟨rfl, two filled⟩
  · rw [List.flatMap_append, ← delivered]
    simp only [remaining, List.drop_zero, List.flatMap_singleton, written]
    split_ifs
    · rw [List.append_assoc]
      rfl
    · rfl
  · have more := kept.push
    simp only [held, first, Option.toList_some, List.flatMap_append, List.flatMap_singleton,
      List.append_nil]
    simpa only [List.append_assoc] using more
  · rintro other (waiting | ⟨batch, taken, member⟩)
    · exact absurd waiting List.not_mem_nil
    · rcases List.mem_append.mp taken with earlier | last
      · exact sound.filled other (.inr ⟨batch, earlier, member⟩)
      · rw [List.mem_singleton.mp last, List.dropLast_concat] at member
        exact sound.filled other (.inl member)

theorem recycle_sound (sound : Sound log lines) {i : ℕ} (writing : log.place = .writing i)
    (finished : log.buffersToWrite[i]? = none) :
    ∃ next, log.recycle = .ok next ∧ Sound next lines := by
  have ready := sound.ready
  have delivered := sound.delivered
  rw [Ready, writing] at ready
  rw [remaining, writing] at delivered
  simp only [List.drop_eq_nil_of_le (List.getElem?_eq_none_iff.mp finished), List.map_nil,
    List.append_nil] at delivered
  rcases ready with ⟨first, some, second⟩
  have positive := List.length_pos_of_ne_nil some
  rw [recycle, first]
  rcases second with second | ⟨second, two⟩
  · rw [Fallible.bind_ok (refill_none (by simpa using some))]
    simp only [second]
    refine ⟨_, rfl, sound.current, sound.next, ⟨rfl, rfl, rfl⟩, ?_, sound.kept,
        sound.filled⟩
    simpa only [remaining, List.append_nil] using delivered
  · rw [Fallible.bind_ok (refill_none (by simpa using some))]
    simp only [second]
    rw [Fallible.bind_ok (refill_none ?_)]
    · refine ⟨_, rfl, sound.current, sound.next, ⟨rfl, rfl, rfl⟩, ?_, sound.kept,
        sound.filled⟩
      simpa only [remaining, List.append_nil] using delivered
    · apply List.ne_nil_of_length_pos
      rw [List.length_dropLast, List.length_take]
      omega

theorem threadFunc_sound (sound : Sound log lines) (now : Timestamp) :
    ∃ next, log.threadFunc now = .ok next ∧ Sound next lines := by
  have ready := sound.ready
  have delivered := sound.delivered
  rw [Ready] at ready
  rw [remaining] at delivered
  rw [threadFunc]
  cases place : log.place with
  | unstarted => exact ⟨log, rfl, sound⟩
  | entering =>
      rw [place] at ready delivered
      simp only
      rw [assert_bind ready]
      exact ⟨_, rfl, sound.current, sound.next, ⟨rfl, rfl, rfl⟩, delivered, sound.kept,
        sound.filled⟩
  | test =>
      rw [place] at ready delivered
      rcases ready with ⟨first, second, none⟩
      simp only
      split
      · rw [assert_bind (by rw [first]; rfl), assert_bind (by rw [second]; rfl),
          assert_bind (by rw [none]; rfl)]
        exact ⟨_, rfl, sound.current, sound.next, ⟨first, second, none⟩, delivered, sound.kept,
        sound.filled⟩
      · next stopped =>
          exact ⟨_, rfl, sound.current, sound.next, Bool.eq_false_of_not_eq_true stopped, delivered,
            sound.kept, sound.filled⟩
  | lock =>
      rw [place] at ready delivered
      rcases ready with ⟨first, second, none⟩
      simp only
      split
      · exact ⟨_, rfl, sound.current, sound.next, ⟨first, second, none⟩, delivered, sound.kept,
        sound.filled⟩
      · exact take_sound sound now first second (by rw [remaining, place])
  | wait =>
      rw [place] at ready
      exact take_sound sound now ready.1 ready.2.1 (by rw [remaining, place])
  | writing i =>
      rw [place] at ready delivered
      simp only
      cases found : log.buffersToWrite[i]? with
      | none => exact recycle_sound sound place found
      | some buffer =>
          rcases List.getElem?_eq_some_iff.mp found with ⟨inside, same⟩
          refine ⟨_, rfl, sound.current, sound.next, ready, ?_, sound.kept,
        sound.filled⟩
          simp only at delivered
          rw [List.drop_eq_getElem_cons inside, same] at delivered
          simpa only [remaining, List.append_assoc, List.map_cons, List.singleton_append] using
            delivered
  | done => exact ⟨log, rfl, sound⟩

/-- No event fails, and the invariant holds again after it. -/
theorem step_sound (sound : Sound log lines) {event : Event} (proper : Proper log event) :
    ∃ reply next, step log event = .ok (reply, next) ∧ Sound next (lines ++ event.lines) := by
  cases event with
  | append logline =>
      rcases append_sound sound logline with ⟨next, appended, kept⟩
      refine ⟨(), next, ?_, kept⟩
      rw [step, Fallible.bind_ok appended]
      rfl
  | start =>
      have delivered := sound.delivered
      rw [remaining, show log.place = .unstarted from proper] at delivered
      simp only [Event.lines, List.append_nil, step]
      rw [assert_bind (beq_iff_eq.mpr proper)]
      exact ⟨(), _, rfl, sound.current, sound.next, rfl, delivered, sound.kept,
        sound.filled⟩
  | stop =>
      simp only [Event.lines, List.append_nil]
      refine ⟨(), _, rfl, sound.current, sound.next, ?_, sound.delivered, sound.kept,
        sound.filled⟩
      have ready := sound.ready
      have entered : log.place ≠ .entering := proper
      rw [Ready] at ready ⊢
      simp only
      split
      all_goals simp_all
  | thread now =>
      rcases threadFunc_sound sound now with ⟨next, stepped, kept⟩
      refine ⟨(), next, ?_, ?_⟩
      · rw [step, Fallible.bind_ok stepped]
        rfl
      · simpa only [Event.lines, List.append_nil] using kept

end Steps

end AsyncLogging

end Lctools.Muduo
