import Lctools.Foundation.Monitor

/-! # `muduo/base/BlockingQueue`, `BoundedBlockingQueue` and `CountDownLatch`

Queues between threads, and a latch that threads wait for.
-/

namespace Lctools.Muduo

open Monitor

/-! ## Queues -/

inductive QueueOperation (α : Type) where
  | put (x : α)
  | take
  deriving DecidableEq, Repr

namespace QueueOperation

variable {α : Type}

def input : QueueOperation α → List α
  | .put x => [x]
  | .take => []

end QueueOperation

inductive QueueCondition where
  | notEmpty
  | notFull
  deriving DecidableEq, Repr

/-- `BlockingQueue<T>`; `take` waits while the queue is empty. -/
def blockingQueue (α : Type) :
    MonitorProgram (List α) (QueueOperation α) QueueCondition (Option α) where
  waitsOn
    | .put _ => none
    | .take => some .notEmpty
  ready queue
    | .put _ => true
    | .take => !queue.isEmpty
  perform queue
    | .put x => (none, queue ++ [x])
    | .take => (queue.head?, queue.tail)
  notify _
    | .put _ => .one .notEmpty
    | .take => .nobody
  ready_of_none := by
    intro queue operation never
    cases operation with
    | put x => rfl
    | take => cases never

/-- `boost::circular_buffer<T>` of the given capacity. -/
structure CircularBuffer (α : Type) (capacity : ℕ) where
  items : List α
  fits : items.length ≤ capacity

namespace CircularBuffer

variable {α : Type} {capacity : ℕ}

def empty : CircularBuffer α capacity :=
  ⟨[], Nat.zero_le _⟩

def full (queue : CircularBuffer α capacity) : Bool :=
  queue.items.length == capacity

/-- `push_back`, which overwrites the oldest element of a full buffer. -/
def pushBack (queue : CircularBuffer α capacity) (x : α) : CircularBuffer α capacity :=
  if room : queue.items.length < capacity then
    ⟨queue.items ++ [x], by rw [List.length_append, List.length_singleton]; omega⟩
  else
    ⟨(queue.items ++ [x]).drop (queue.items.length + 1 - capacity), by
      rw [List.length_drop, List.length_append, List.length_singleton]
      omega⟩

def popFront (queue : CircularBuffer α capacity) : CircularBuffer α capacity :=
  ⟨queue.items.tail, by
    have fits := queue.fits
    rw [List.length_tail]
    omega⟩

end CircularBuffer

/-- `BoundedBlockingQueue<T>`; `put` waits while the queue is full. -/
def boundedBlockingQueue (α : Type) (maxSize : ℕ) :
    MonitorProgram (CircularBuffer α maxSize) (QueueOperation α) QueueCondition (Option α) where
  waitsOn
    | .put _ => some .notFull
    | .take => some .notEmpty
  ready queue
    | .put _ => !queue.full
    | .take => !queue.items.isEmpty
  perform queue
    | .put x => (none, queue.pushBack x)
    | .take => (queue.items.head?, queue.popFront)
  notify _
    | .put _ => .one .notEmpty
    | .take => .one .notFull
  ready_of_none := by
    intro queue operation never
    cases operation with
    | put x => cases never
    | take => cases never

section Queues

variable {α : Type}

/-- How many operations of a kind the queue can serve. -/
def blockingNumber (queue : List α) : QueueCondition → ℕ
  | .notEmpty => queue.length
  | .notFull => 0

theorem blockingQueue_counts :
    Counts (blockingQueue α) fun queue condition => blockingNumber queue condition := by
  apply counts_of_nat
  · intro queue operation condition own
    cases operation with
    | put x => cases own
    | take =>
        cases own
        simp [blockingQueue, blockingNumber, List.length_pos_iff]
  · intro queue operation condition ready _
    cases operation with
    | put x =>
        cases condition with
        | notEmpty => simp [blockingQueue, blockingNumber]
        | notFull => simp [blockingQueue, blockingNumber]
    | take =>
        cases queue with
        | nil => cases ready
        | cons x queue =>
            cases condition with
            | notEmpty => simp [blockingQueue, blockingNumber]
            | notFull => simp [blockingQueue, blockingNumber]

/-- In every schedule the elements are taken in the order in which they were put, each once,
and the others are in the queue. -/
theorem blockingQueue_fifo (count : ℕ) (schedule : List (Action (QueueOperation α))) :
    let monitor := after (blockingQueue α) [] count schedule
    (monitor.performed.map (·.1)).flatMap QueueOperation.input =
      (monitor.performed.map (·.2)).flatMap Option.toList ++ monitor.shared := by
  intro monitor
  have conserves : ∀ (queue : List α) (operation : QueueOperation α) (reply : Option α)
      (next : List α), serial (blockingQueue α) queue operation = .ok (reply, next) →
      id queue ++ operation.input = reply.toList ++ id next := by
    intro queue operation reply next performed
    rw [serial] at performed
    cases operation with
    | put x =>
        cases performed
        rfl
    | take =>
        cases queue with
        | nil => cases performed
        | cons x queue =>
            cases performed
            simp [QueueOperation.input]
  exact Run.run_conserves conserves _ [] _ _ (linearized_after (blockingQueue α) [] count schedule)

/-- How many operations of a kind a bounded queue can serve. -/
def boundedNumber {maxSize : ℕ} (queue : CircularBuffer α maxSize) : QueueCondition → ℕ
  | .notEmpty => queue.items.length
  | .notFull => maxSize - queue.items.length

section Bounded

variable {maxSize : ℕ} {queue : CircularBuffer α maxSize}

theorem full_eq_false_iff : queue.full = false ↔ queue.items.length < maxSize := by
  have fits := queue.fits
  rw [CircularBuffer.full, beq_eq_false_iff_ne]
  omega

theorem pushBack_of_not_full (room : queue.full = false) (x : α) :
    (queue.pushBack x).items = queue.items ++ [x] := by
  rw [CircularBuffer.pushBack, dif_pos (full_eq_false_iff.mp room)]

end Bounded

theorem boundedBlockingQueue_counts (maxSize : ℕ) :
    Counts (boundedBlockingQueue α maxSize) fun queue condition =>
      boundedNumber queue condition := by
  apply counts_of_nat
  · intro queue operation condition own
    cases operation with
    | put x =>
        cases own
        simp only [boundedBlockingQueue, Bool.not_eq_true', full_eq_false_iff, boundedNumber]
        omega
    | take =>
        cases own
        simp [boundedBlockingQueue, boundedNumber, List.length_pos_iff]
  · intro queue operation condition ready _
    cases operation with
    | put x =>
        have room : queue.full = false := by simpa [boundedBlockingQueue] using ready
        have less := full_eq_false_iff.mp room
        have items := pushBack_of_not_full room x
        cases condition with
        | notEmpty => simp [boundedBlockingQueue, boundedNumber, items]
        | notFull =>
            simp only [boundedBlockingQueue, boundedNumber, items, List.length_append,
              List.length_singleton, if_true]
            omega
    | take =>
        have some : queue.items ≠ [] := by simpa [boundedBlockingQueue] using ready
        have positive := List.length_pos_iff.mpr some
        cases condition with
        | notEmpty =>
            simp only [boundedBlockingQueue, boundedNumber, CircularBuffer.popFront,
              List.length_tail, if_true]
            omega
        | notFull =>
            simp only [boundedBlockingQueue, boundedNumber, CircularBuffer.popFront,
              List.length_tail, Option.some.injEq, reduceCtorEq, if_false, if_true]
            omega

/-- The same for a bounded queue, which never takes from an empty queue. -/
theorem boundedBlockingQueue_fifo (maxSize count : ℕ)
    (schedule : List (Action (QueueOperation α))) :
    let monitor := after (boundedBlockingQueue α maxSize) .empty count schedule
    (monitor.performed.map (·.1)).flatMap QueueOperation.input =
        (monitor.performed.map (·.2)).flatMap Option.toList ++ monitor.shared.items ∧
      ∀ entry ∈ monitor.performed, entry.1 = .take → entry.2 ≠ none := by
  intro monitor
  constructor
  · have conserves : ∀ (queue : CircularBuffer α maxSize) (operation : QueueOperation α)
        (reply : Option α) (next : CircularBuffer α maxSize),
        serial (boundedBlockingQueue α maxSize) queue operation = .ok (reply, next) →
        queue.items ++ operation.input = reply.toList ++ next.items := by
      intro queue operation reply next performed
      rw [serial] at performed
      split_ifs at performed with ready
      cases operation with
      | put x =>
          have room : queue.full = false := by simpa [boundedBlockingQueue] using ready
          cases performed
          exact (pushBack_of_not_full room x).symm
      | take =>
          cases performed
          rcases queue with ⟨items, fits⟩
          cases items with
          | nil => cases ready
          | cons x items => simp [QueueOperation.input, CircularBuffer.popFront]
    exact Run.run_conserves conserves _ .empty _ _
      (linearized_after (boundedBlockingQueue α maxSize) .empty count schedule)
  · intro entry member isTake
    rcases performed_after (boundedBlockingQueue α maxSize) .empty count schedule entry member with
      ⟨queue, ready, result⟩
    rw [isTake] at ready result
    have some : queue.items ≠ [] := by simpa [boundedBlockingQueue] using ready
    rw [← result]
    intro none
    exact some (List.head?_eq_none_iff.mp none)

/-- In every schedule: while a thread waits in `put` although there is room, or in `take` although
there is an element, another thread is about to do the same operation; and if no thread is on
its way to the mutex, there are not both threads that wait in `put` and threads that wait in
`take`. -/
theorem boundedBlockingQueue_never_stuck (maxSize count : ℕ) (positive : 0 < maxSize)
    (schedule : List (Action (QueueOperation α))) :
    let monitor := after (boundedBlockingQueue α maxSize) .empty count schedule
    (∀ x, .waiting (.put x) ∈ monitor.threads → monitor.shared.full = false →
        ∃ y, .entering (.put y) ∈ monitor.threads) ∧
      (.waiting .take ∈ monitor.threads → monitor.shared.items ≠ [] →
        .entering .take ∈ monitor.threads) ∧
      ((∀ operation, .entering operation ∉ monitor.threads) →
        ∀ x, ¬(.waiting (.put x) ∈ monitor.threads ∧ .waiting .take ∈ monitor.threads)) := by
  intro monitor
  have counts := boundedBlockingQueue_counts (α := α) maxSize
  have covered : Monitor.Covered (boundedBlockingQueue α maxSize) _ monitor :=
    covered_after counts .empty count schedule
  have putters : ∀ x, .waiting (.put x) ∈ monitor.threads → monitor.shared.full = false →
      ∃ y, .entering (.put y) ∈ monitor.threads := by
    intro x waits room
    rcases covered.exists_entering counts rfl waits (by simpa [boundedBlockingQueue] using room)
      with ⟨other, enters, own⟩
    cases other with
    | put y => exact ⟨y, enters⟩
    | take => cases own
  have takers : .waiting .take ∈ monitor.threads → monitor.shared.items ≠ [] →
      .entering .take ∈ monitor.threads := by
    intro waits some
    rcases covered.exists_entering counts rfl waits (by simpa [boundedBlockingQueue] using some)
      with ⟨other, enters, own⟩
    cases other with
    | put y => cases own
    | take => exact enters
  refine ⟨putters, takers, ?_⟩
  rintro quiet x ⟨waitsPut, waitsTake⟩
  have full : monitor.shared.full = true := by
    apply Bool.eq_true_of_not_eq_false
    intro room
    rcases putters x waitsPut room with ⟨y, enters⟩
    exact quiet _ enters
  have empty : monitor.shared.items = [] := by
    apply Classical.byContradiction
    intro some
    exact quiet _ (takers waitsTake some)
  rw [CircularBuffer.full, empty, beq_iff_eq] at full
  simp only [List.length_nil] at full
  omega

/-- A queue without a bound does not leave a thread in `take` alone with an element either. -/
theorem blockingQueue_never_stuck (count : ℕ) (schedule : List (Action (QueueOperation α))) :
    let monitor := after (blockingQueue α) [] count schedule
    .waiting .take ∈ monitor.threads → monitor.shared ≠ [] →
      .entering .take ∈ monitor.threads := by
  intro monitor waits some
  have counts := blockingQueue_counts (α := α)
  have covered : Monitor.Covered (blockingQueue α) _ monitor :=
    covered_after counts [] count schedule
  rcases covered.exists_entering counts rfl waits (by simpa [blockingQueue] using some) with
    ⟨other, enters, own⟩
  cases other with
  | put y => cases own
  | take => exact enters

end Queues

/-- Two threads take from an empty queue of one place, and one of them is woken by `put`. -/
theorem boundedBlockingQueue_never_stuck_sample :
    let monitor := after (boundedBlockingQueue ℕ 1) .empty 3
      [.call 0 .take, .call 1 .take, .enter 0 0, .enter 1 0, .call 2 (.put 7), .enter 2 1]
    .waiting .take ∈ monitor.threads ∧ monitor.shared.items = [7] ∧
      .entering .take ∈ monitor.threads := by
  have waits : Status.waiting QueueOperation.take ∈ (after (boundedBlockingQueue ℕ 1) .empty 3
      [.call 0 .take, .call 1 .take, .enter 0 0, .enter 1 0, .call 2 (.put 7),
        .enter 2 1]).threads :=
    List.mem_cons_self ..
  exact ⟨waits, rfl, (boundedBlockingQueue_never_stuck 1 3 Nat.one_pos _).2.1 waits nofun⟩

/-! ## The latch -/

inductive LatchOperation where
  | wait
  | countDown
  deriving DecidableEq, Repr

/-- `--count_`; from the least `int` the machine goes on with the greatest. -/
def decrement (count : ℤ) : ℤ :=
  if count = -2 ^ 31 then 2 ^ 31 - 1 else count - 1

/-- `CountDownLatch`, with the number that is left. -/
def countDownLatch : MonitorProgram ℤ LatchOperation Unit Unit where
  waitsOn
    | .wait => some ()
    | .countDown => none
  ready count
    | .wait => decide (count ≤ 0)
    | .countDown => true
  perform count
    | .wait => ((), count)
    | .countDown => ((), decrement count)
  notify count
    | .wait => .nobody
    | .countDown => if decrement count = 0 then .all () else .nobody
  ready_of_none := by
    intro count operation never
    cases operation with
    | wait => cases never
    | countDown => rfl

def latchNeed (count : ℤ) (_ : Unit) : ℕ∞ :=
  if 0 < count then 0 else ⊤

theorem countDownLatch_counts : Counts countDownLatch latchNeed where
  ready_iff := by
    intro count operation condition own
    cases operation with
    | wait =>
        simp only [countDownLatch, latchNeed, decide_eq_true_eq]
        split_ifs with closed
        · simpa using closed
        · simpa using closed
    | countDown => cases own
  perform_le := by
    intro count operation condition ready notAll
    cases operation with
    | wait =>
        have opened : ¬0 < count := by simpa [countDownLatch] using ready
        simp [countDownLatch, latchNeed, opened]
    | countDown =>
        have more : decrement count ≠ 0 := by
          intro last
          simp [countDownLatch, last] at notAll
        have least : latchNeed (decrement count) condition ≤ latchNeed count condition := by
          rw [latchNeed, latchNeed]
          rw [decrement] at more ⊢
          split_ifs at more ⊢
          all_goals first
            | exact le_refl _
            | exact zero_le
            | omega
        simpa [countDownLatch, more] using least

def countDowns (performed : List (LatchOperation × Unit)) : ℕ :=
  (performed.map (·.1)).count .countDown

/-- The number that is left, and the waits that are over, as long as the count did not
overflow. -/
structure Latched (initial : ℤ) (monitor : Monitor ℤ LatchOperation Unit) : Prop where
  left : countDowns monitor.performed ≤ initial + 2 ^ 31 →
    monitor.shared = initial - countDowns monitor.performed
  late : ∀ before behind, monitor.performed = before ++ (.wait, ()) :: behind →
    countDowns before ≤ initial + 2 ^ 31 → initial ≤ countDowns before

theorem countDowns_concat (performed : List (LatchOperation × Unit)) (operation : LatchOperation) :
    countDowns (performed ++ [(operation, ())]) =
      countDowns performed + if operation = .countDown then 1 else 0 := by
  simp [countDowns, List.count_singleton]

theorem Latched.step {initial : ℤ} {monitor : Monitor ℤ LatchOperation Unit}
    (latched : Latched initial monitor) (action : Action LatchOperation) :
    Latched initial (step countDownLatch monitor action) := by
  rcases step_cases countDownLatch monitor action with
    ⟨shared, performed⟩ | ⟨operation, ready, shared, performed⟩
  · constructor
    · rw [shared, performed]
      exact latched.left
    · rw [performed]
      exact latched.late
  · constructor
    · rw [shared, performed, countDowns_concat]
      intro few
      cases operation with
      | wait =>
          have left := latched.left
          simp only [countDownLatch, reduceCtorEq, if_false, Nat.add_zero] at few ⊢
          exact left few
      | countDown =>
          simp only [countDownLatch, if_true] at few ⊢
          push_cast at few ⊢
          have left := latched.left (by omega)
          rw [decrement, if_neg (by omega)]
          omega
    · intro before behind same few
      rw [performed] at same
      rcases List.eq_nil_or_concat behind with rfl | ⟨rest, last, rfl⟩
      · -- The wait that was performed just now.
        rcases List.append_inj' same rfl with ⟨rfl, entry⟩
        cases operation with
        | wait =>
            have opened : monitor.shared ≤ 0 := by simpa [countDownLatch] using ready
            have left := latched.left few
            omega
        | countDown => cases entry
      · rw [List.concat_eq_append, ← List.cons_append, ← List.append_assoc] at same
        exact latched.late before rest (List.append_inj' same rfl).1 few

/-- In every schedule in which the count does not overflow: `wait` returns only after `count`
calls of `countDown`, and nobody waits any more once there were as many. -/
theorem countDownLatch_opens (initial : ℤ) (count : ℕ) (schedule : List (Action LatchOperation))
    (few : countDowns (after countDownLatch initial count schedule).performed ≤
      initial + 2 ^ 31) :
    let monitor := after countDownLatch initial count schedule
    (∀ before behind, monitor.performed = before ++ (.wait, ()) :: behind →
        initial ≤ countDowns before) ∧
      (initial ≤ countDowns monitor.performed → .waiting .wait ∉ monitor.threads) := by
  intro monitor
  have start : Latched initial ⟨initial, List.replicate count .idle, []⟩ := by
    refine ⟨by simp [countDowns], ?_⟩
    intro before behind same
    exact absurd same.symm (by simp)
  have latched : Latched initial monitor :=
    after_induction _ start (fun _ action latched => latched.step action) schedule
  constructor
  · intro before behind same
    apply latched.late before behind same
    have earlier : countDowns before ≤ countDowns monitor.performed := by
      rw [same, countDowns, countDowns, List.map_append, List.count_append]
      exact Nat.le_add_right ..
    have all : (countDowns monitor.performed : ℤ) ≤ initial + 2 ^ 31 := few
    omega
  · intro enough
    have covered : Monitor.Covered countDownLatch latchNeed monitor :=
      covered_after countDownLatch_counts initial count schedule
    apply covered.not_waiting rfl
    have left := latched.left few
    rw [latchNeed, if_neg (by omega)]

/-- A thread waits, another one counts down once, and the first one goes on. -/
theorem countDownLatch_opens_sample :
    (after countDownLatch 1 2 [.call 0 .wait, .enter 0 0, .call 1 .countDown, .enter 1 0,
        .enter 0 0]).performed = [(.countDown, ()), (.wait, ())] ∧
      .waiting .wait ∉ (after countDownLatch 1 2 [.call 0 .wait, .enter 0 0, .call 1 .countDown,
        .enter 1 0, .enter 0 0]).threads :=
  ⟨rfl, (countDownLatch_opens 1 2 [.call 0 .wait, .enter 0 0, .call 1 .countDown, .enter 1 0,
    .enter 0 0] (by decide)).2 (by decide)⟩

end Lctools.Muduo
