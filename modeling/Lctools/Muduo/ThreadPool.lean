import Lctools.Muduo.BlockingQueue

/-! # `muduo/base/ThreadPool`

Tasks go through a queue to the threads of the pool, which take them until the pool is stopped.
-/

namespace Lctools.Muduo

open Monitor

/-- The members of `ThreadPool` that its mutex guards. -/
structure ThreadPool (τ : Type) where
  queue : List τ
  running : Bool
  deriving DecidableEq, Repr

inductive PoolOperation (τ : Type) where
  | run (task : τ)
  | take
  | stop
  deriving DecidableEq, Repr

namespace ThreadPool

variable {τ : Type}

def submits : PoolOperation τ → List τ
  | .run task => [task]
  | _ => []

/-- A pool after `start`. -/
def started : ThreadPool τ :=
  ⟨[], true⟩

/-- A queue has no bound if `maxQueueSize` is zero. -/
def isFull (maxQueueSize : ℕ) (pool : ThreadPool τ) : Bool :=
  decide (0 < maxQueueSize) && decide (maxQueueSize ≤ pool.queue.length)

/-- The part of each operation that holds the mutex. The result of `take` is an empty task if the
pool is stopped and has no task. -/
def program (τ : Type) (maxQueueSize : ℕ) :
    MonitorProgram (ThreadPool τ) (PoolOperation τ) QueueCondition (Option τ) where
  waitsOn
    | .run _ => some .notFull
    | .take => some .notEmpty
    | .stop => none
  ready pool
    | .run _ => !pool.isFull maxQueueSize
    | .take => !(pool.queue.isEmpty && pool.running)
    | .stop => true
  perform pool
    | .run task => (none, { pool with queue := pool.queue ++ [task] })
    | .take => (pool.queue.head?, { pool with queue := pool.queue.tail })
    | .stop => (none, { pool with running := false })
  notify pool
    | .run _ => .one .notEmpty
    | .take => if !pool.queue.isEmpty && decide (0 < maxQueueSize) then .one .notFull else .nobody
    | .stop => .all .notEmpty
  ready_of_none := by
    intro pool operation never
    cases operation with
    | run task => cases never
    | take => cases never
    | stop => rfl

/-- One step of the threads. In `runInThread` a thread calls `take` only after it has read that the
pool is running; it does so without the mutex. -/
def step (maxQueueSize : ℕ) (pool : Monitor (ThreadPool τ) (PoolOperation τ) (Option τ))
    (action : Action (PoolOperation τ)) : Monitor (ThreadPool τ) (PoolOperation τ) (Option τ) :=
  match action with
  | .call _ .take =>
      if pool.shared.running then Monitor.step (program τ maxQueueSize) pool action else pool
  | _ => Monitor.step (program τ maxQueueSize) pool action

/-- The pool after a schedule, with a number of threads that submit and take tasks. -/
def runAll (maxQueueSize count : ℕ) (schedule : List (Action (PoolOperation τ))) :
    Monitor (ThreadPool τ) (PoolOperation τ) (Option τ) :=
  schedule.foldl (step maxQueueSize) ⟨started, List.replicate count .idle, []⟩

def submitted (pool : Monitor (ThreadPool τ) (PoolOperation τ) (Option τ)) : List τ :=
  (pool.performed.map (·.1)).flatMap submits

def taken (pool : Monitor (ThreadPool τ) (PoolOperation τ) (Option τ)) : List τ :=
  (pool.performed.map (·.2)).flatMap Option.toList

section Pool

variable {maxQueueSize : ℕ} {pool : Monitor (ThreadPool τ) (PoolOperation τ) (Option τ)}

theorem isFull_eq_false_iff {state : ThreadPool τ} :
    state.isFull maxQueueSize = false ↔ maxQueueSize = 0 ∨ state.queue.length < maxQueueSize := by
  rw [isFull, Bool.and_eq_false_iff, decide_eq_false_iff_not, decide_eq_false_iff_not]
  omega

theorem ready_take_iff {state : ThreadPool τ} :
    (program τ maxQueueSize).ready state .take = true ↔
      (state.running = true → state.queue ≠ []) := by
  rcases state with ⟨queue, running⟩
  cases running with
  | false => simp [program]
  | true => simp [program]

theorem step_eq (maxQueueSize : ℕ)
    (pool : Monitor (ThreadPool τ) (PoolOperation τ) (Option τ))
    (action : Action (PoolOperation τ)) :
    step maxQueueSize pool action = pool ∨
      step maxQueueSize pool action = Monitor.step (program τ maxQueueSize) pool action ∧
        ∀ thread, action = .call thread .take → pool.shared.running = true := by
  unfold step
  split
  · next thread =>
      split_ifs with running
      · exact .inr ⟨rfl, fun _ _ => running⟩
      · exact .inl rfl
  · next other =>
      refine .inr ⟨rfl, ?_⟩
      intro thread same
      exact absurd same (other thread)

/-- Threads that leave their loop do not act any more. -/
theorem runAll_eq_after (maxQueueSize count : ℕ) (schedule : List (Action (PoolOperation τ))) :
    ∃ actions, runAll maxQueueSize count schedule =
      after (program τ maxQueueSize) started count actions := by
  rw [runAll]
  unfold after
  generalize (⟨started, List.replicate count .idle, []⟩ :
    Monitor (ThreadPool τ) (PoolOperation τ) (Option τ)) = pool
  induction schedule generalizing pool with
  | nil => exact ⟨[], rfl⟩
  | cons action schedule induction =>
      rcases induction (step maxQueueSize pool action) with ⟨actions, same⟩
      rcases step_eq maxQueueSize pool action with stays | ⟨steps, _⟩
      · rw [stays] at same
        refine ⟨actions, ?_⟩
        rw [List.foldl_cons, stays, same]
      · rw [steps] at same
        refine ⟨action :: actions, ?_⟩
        rw [List.foldl_cons, steps, same, List.foldl_cons]

end Pool

/-! ## The tasks -/

/-- In every schedule the tasks are taken in the order in which they were submitted, each once,
and the others are in the queue. -/
theorem tasks_fifo (maxQueueSize count : ℕ) (schedule : List (Action (PoolOperation τ))) :
    submitted (runAll maxQueueSize count schedule) =
      taken (runAll maxQueueSize count schedule) ++
        (runAll maxQueueSize count schedule).shared.queue := by
  rcases runAll_eq_after maxQueueSize count schedule with ⟨actions, same⟩
  have conserves : ∀ (state : ThreadPool τ) (operation : PoolOperation τ) (reply : Option τ)
      (next : ThreadPool τ), serial (program τ maxQueueSize) state operation = .ok (reply, next) →
      state.queue ++ submits operation = reply.toList ++ next.queue := by
    intro state operation reply next performed
    rw [serial] at performed
    split_ifs at performed
    cases operation with
    | run task =>
        cases performed
        rfl
    | stop =>
        cases performed
        simp [submits]
    | take =>
        cases performed
        rcases state with ⟨queue, running⟩
        cases queue with
        | nil => simp [submits]
        | cons task queue => simp [submits]
  rw [same]
  exact Run.run_conserves conserves _ started _ _
    (linearized_after (program τ maxQueueSize) started count actions)

/-! ## Threads that wait -/

/-- How many operations of a kind the pool can serve. -/
def need (maxQueueSize : ℕ) (pool : ThreadPool τ) : QueueCondition → ℕ∞
  | .notEmpty => if pool.running then pool.queue.length else ⊤
  | .notFull => if maxQueueSize = 0 then ⊤ else (maxQueueSize - pool.queue.length : ℕ)

theorem program_counts (maxQueueSize : ℕ) :
    Counts (program τ maxQueueSize) (need maxQueueSize) where
  ready_iff := by
    intro state operation condition own
    cases operation with
    | run task =>
        cases own
        simp only [program, Bool.not_eq_true', isFull_eq_false_iff, need]
        split_ifs with unbounded
        · simp [unbounded]
        · simp [unbounded]
    | take =>
        cases own
        rw [ready_take_iff, need]
        split_ifs with running
        · simp [running, List.length_pos_iff]
        · simp [running]
    | stop => cases own
  perform_le := by
    intro state operation condition ready notAll
    cases operation with
    | run task =>
        have room : state.isFull maxQueueSize = false := by simpa [program] using ready
        rw [isFull_eq_false_iff] at room
        cases condition with
        | notEmpty =>
            cases running : state.running with
            | true => simp [program, need, running]
            | false => simp [program, need, running]
        | notFull =>
            simp only [program, need, List.length_append, List.length_singleton, if_true,
              reduceCtorEq, if_false, Notice.one.injEq, add_zero]
            split_ifs with unbounded
            · exact le_top
            · have less : maxQueueSize - (state.queue.length + 1) + 1 ≤
                  maxQueueSize - state.queue.length := by omega
              exact_mod_cast less
    | take =>
        rw [ready_take_iff] at ready
        cases condition with
        | notEmpty =>
            cases running : state.running with
            | true =>
                have some := List.length_pos_iff.mpr (ready running)
                have less : state.queue.length - 1 + 1 ≤ state.queue.length := by omega
                simp only [program, need, running, List.length_tail, if_true]
                refine le_trans ?_ le_self_add
                exact_mod_cast less
            | false => simp [program, need, running]
        | notFull =>
            by_cases unbounded : maxQueueSize = 0
            · simp [need, unbounded]
            · rcases state with ⟨queue, running⟩
              cases queue with
              | nil => simp [program, need, unbounded]
              | cons task queue =>
                  have more : maxQueueSize - queue.length ≤
                      maxQueueSize - (queue.length + 1) + 1 := by omega
                  simp only [program, need, unbounded, List.isEmpty_cons, Bool.not_false,
                    Bool.true_and, Nat.pos_of_ne_zero unbounded, decide_true, if_true, if_false,
                    List.tail_cons, List.length_cons, Option.some.injEq, reduceCtorEq, add_zero]
                  exact_mod_cast more
    | stop =>
        cases condition with
        | notEmpty => exact absurd rfl notAll
        | notFull => simp [program, need]

theorem covered_runAll (maxQueueSize count : ℕ) (schedule : List (Action (PoolOperation τ))) :
    Monitor.Covered (program τ maxQueueSize) (need maxQueueSize)
      (runAll maxQueueSize count schedule) := by
  rcases runAll_eq_after maxQueueSize count schedule with ⟨actions, same⟩
  rw [same]
  exact covered_after (program_counts maxQueueSize) started count actions

theorem not_waiting_of_stopped {maxQueueSize count : ℕ}
    {schedule : List (Action (PoolOperation τ))}
    (stopped : (runAll maxQueueSize count schedule).shared.running = false) :
    .waiting .take ∉ (runAll maxQueueSize count schedule).threads := by
  refine (covered_runAll maxQueueSize count schedule).not_waiting
    (rfl : (program τ maxQueueSize).waitsOn .take = some .notEmpty) ?_
  rw [need, stopped, if_neg Bool.false_ne_true]

/-- In every schedule: while a thread waits in `run` although the queue has room, another one is
about to submit; a thread waits in `take` only while the pool is running, and if there is a task,
another one is about to take it. -/
theorem threads_never_stuck (maxQueueSize count : ℕ)
    (schedule : List (Action (PoolOperation τ))) :
    let pool := runAll maxQueueSize count schedule
    (∀ task, .waiting (.run task) ∈ pool.threads → pool.shared.isFull maxQueueSize = false →
        ∃ other, .entering (.run other) ∈ pool.threads) ∧
      (.waiting .take ∈ pool.threads →
        pool.shared.running = true ∧
          (pool.shared.queue ≠ [] → .entering .take ∈ pool.threads)) := by
  intro pool
  have counts := @program_counts τ maxQueueSize
  have covered : Monitor.Covered _ _ pool := covered_runAll maxQueueSize count schedule
  constructor
  · intro task waits room
    rcases covered.exists_entering counts rfl waits (by simpa [program] using room) with
      ⟨other, enters, own⟩
    cases other with
    | run other => exact ⟨other, enters⟩
    | take => cases own
    | stop => cases own
  · intro waits
    constructor
    · apply Bool.eq_true_of_not_eq_false
      intro stopped
      exact not_waiting_of_stopped stopped waits
    · intro some
      rcases covered.exists_entering counts rfl waits (ready_take_iff.mpr fun _ => some) with
        ⟨other, enters, own⟩
      cases other with
      | run other => cases own
      | take => exact enters
      | stop => cases own

/-! ## Stopping -/

section Stopped

variable {maxQueueSize : ℕ} {pool : Monitor (ThreadPool τ) (PoolOperation τ) (Option τ)}

theorem share_run (task : τ) : share (program τ maxQueueSize) .notEmpty (.run task) = 0 :=
  rfl

theorem share_take : share (program τ maxQueueSize) .notEmpty .take = 1 :=
  rfl

theorem share_stop : share (program τ maxQueueSize) .notEmpty .stop = 0 :=
  rfl

section Perform

variable (state : ThreadPool τ)

theorem perform_run (task : τ) : (program τ maxQueueSize).perform state (.run task) =
    (none, { state with queue := state.queue ++ [task] }) :=
  rfl

theorem perform_take : (program τ maxQueueSize).perform state .take =
    (state.queue.head?, { state with queue := state.queue.tail }) :=
  rfl

theorem perform_stop : (program τ maxQueueSize).perform state .stop =
    (none, { state with running := false }) :=
  rfl

end Perform

/-- What was taken and who is in `take`. -/
def budget (maxQueueSize : ℕ) (pool : Monitor (ThreadPool τ) (PoolOperation τ) (Option τ)) : ℕ :=
  (taken pool).length + inside (program τ maxQueueSize) .notEmpty pool.threads

theorem taken_eq_concat {later : Monitor (ThreadPool τ) (PoolOperation τ) (Option τ)}
    {operation : PoolOperation τ} {result : Option τ}
    (performed : later.performed = pool.performed ++ [(operation, result)]) :
    taken later = taken pool ++ result.toList := by
  rw [taken, performed, List.map_append, List.flatMap_append, taken]
  simp

theorem submitted_eq_concat {later : Monitor (ThreadPool τ) (PoolOperation τ) (Option τ)}
    {operation : PoolOperation τ} {result : Option τ}
    (performed : later.performed = pool.performed ++ [(operation, result)]) :
    submitted later = submitted pool ++ submits operation := by
  rw [submitted, performed, List.map_append, List.flatMap_append, submitted]
  simp

theorem stopped_cases (stopped : pool.shared.running = false)
    (action : Action (PoolOperation τ)) :
    ((step maxQueueSize pool action).shared = pool.shared ∧
        (step maxQueueSize pool action).performed = pool.performed ∧
        inside (program τ maxQueueSize) .notEmpty (step maxQueueSize pool action).threads ≤
          inside (program τ maxQueueSize) .notEmpty pool.threads) ∨
      ∃ operation, (program τ maxQueueSize).ready pool.shared operation = true ∧
        (step maxQueueSize pool action).shared =
          ((program τ maxQueueSize).perform pool.shared operation).2 ∧
        (step maxQueueSize pool action).performed = pool.performed ++
          [(operation, ((program τ maxQueueSize).perform pool.shared operation).1)] ∧
        inside (program τ maxQueueSize) .notEmpty (step maxQueueSize pool action).threads +
            share (program τ maxQueueSize) .notEmpty operation =
          inside (program τ maxQueueSize) .notEmpty pool.threads := by
  rcases step_eq maxQueueSize pool action with stays | ⟨steps, enabled⟩
  · rw [stays]
    exact .inl ⟨rfl, rfl, Nat.le_refl _⟩
  rw [steps]
  rcases step_inside (program τ maxQueueSize) pool action .notEmpty with
    ⟨thread, operation, called, shared, performed, more⟩ | ⟨shared, performed, same⟩ | performs
  · refine .inl ⟨shared, performed, ?_⟩
    cases operation with
    | run task => exact more
    | stop => exact more
    | take =>
        have running := enabled thread called
        rw [stopped] at running
        cases running
  · exact .inl ⟨shared, performed, Nat.le_of_eq same⟩
  · exact .inr performs

theorem step_stopped (stopped : pool.shared.running = false)
    (action : Action (PoolOperation τ)) :
    (step maxQueueSize pool action).shared.running = false ∧
      budget maxQueueSize (step maxQueueSize pool action) ≤ budget maxQueueSize pool := by
  rw [budget, budget]
  rcases @stopped_cases τ maxQueueSize pool stopped action with
    ⟨shared, performed, less⟩ | ⟨operation, ready, shared, performed, left⟩
  · rw [shared, taken, performed]
    exact ⟨stopped, Nat.add_le_add_left less _⟩
  · rw [shared, taken_eq_concat performed, List.length_append]
    cases operation with
    | run task =>
        refine ⟨stopped, ?_⟩
        rw [share_run] at left
        simp only [perform_run, Option.toList_none, List.length_nil]
        omega
    | stop =>
        refine ⟨rfl, ?_⟩
        rw [share_stop] at left
        simp only [perform_stop, Option.toList_none, List.length_nil]
        omega
    | take =>
        refine ⟨stopped, ?_⟩
        have one : pool.shared.queue.head?.toList.length ≤ 1 := by
          cases pool.shared.queue.head? with
          | none => exact Nat.zero_le 1
          | some task => exact Nat.le_refl 1
        rw [share_take] at left
        simp only [perform_take]
        omega

theorem run_stopped (stopped : pool.shared.running = false)
    (schedule : List (Action (PoolOperation τ))) :
    (schedule.foldl (step maxQueueSize) pool).shared.running = false ∧
      budget maxQueueSize (schedule.foldl (step maxQueueSize) pool) ≤
        budget maxQueueSize pool := by
  induction schedule generalizing pool with
  | nil => exact ⟨stopped, Nat.le_refl _⟩
  | cons action schedule induction =>
      rcases @step_stopped τ maxQueueSize pool stopped action with ⟨stays, less⟩
      rcases induction stays with ⟨ends, lesser⟩
      exact ⟨ends, le_trans lesser less⟩

/-- The pool is stopped, its queue is full and no thread is in `take`. -/
structure Blocked (maxQueueSize : ℕ)
    (pool : Monitor (ThreadPool τ) (PoolOperation τ) (Option τ)) : Prop where
  stopped : pool.shared.running = false
  full : pool.shared.isFull maxQueueSize = true
  left : inside (program τ maxQueueSize) .notEmpty pool.threads = 0

theorem Blocked.step (blocked : Blocked maxQueueSize pool) (action : Action (PoolOperation τ)) :
    Blocked maxQueueSize (step maxQueueSize pool action) ∧
      (ThreadPool.step maxQueueSize pool action).shared = pool.shared ∧
      submitted (ThreadPool.step maxQueueSize pool action) = submitted pool := by
  rcases blocked with ⟨stopped, full, nobody⟩
  rcases @stopped_cases τ maxQueueSize pool stopped action with
    ⟨shared, performed, less⟩ | ⟨operation, ready, shared, performed, left⟩
  · refine ⟨⟨by rw [shared, stopped], by rw [shared, full], by omega⟩, shared, ?_⟩
    rw [submitted, performed, submitted]
  · rw [submitted_eq_concat performed]
    cases operation with
    | run task =>
        simp only [program, full, Bool.not_true, Bool.false_eq_true] at ready
    | take =>
        rw [share_take] at left
        omega
    | stop =>
        have same : (ThreadPool.step maxQueueSize pool action).shared = pool.shared := by
          rw [shared, perform_stop, ← stopped]
        refine ⟨⟨by rw [same, stopped], by rw [same, full], by omega⟩, same, ?_⟩
        exact List.append_nil _

theorem Blocked.run (blocked : Blocked maxQueueSize pool)
    (schedule : List (Action (PoolOperation τ))) :
    (schedule.foldl (ThreadPool.step maxQueueSize) pool).shared = pool.shared ∧
      submitted (schedule.foldl (ThreadPool.step maxQueueSize) pool) = submitted pool := by
  induction schedule generalizing pool with
  | nil => exact ⟨rfl, rfl⟩
  | cons action schedule induction =>
      rcases blocked.step action with ⟨stays, shared, submits⟩
      rcases induction stays with ⟨sharedBehind, submitsBehind⟩
      exact ⟨sharedBehind.trans shared, submitsBehind.trans submits⟩

/-- A thread that is not in `take`. -/
def Outside (pool : Monitor (ThreadPool τ) (PoolOperation τ) (Option τ)) (thread : ℕ) : Prop :=
  pool.threads[thread]? ≠ some (.entering .take) ∧ pool.threads[thread]? ≠ some (.waiting .take)

theorem Outside.step {thread : ℕ} (outside : Outside pool thread)
    (stopped : pool.shared.running = false) (action : Action (PoolOperation τ)) :
    Outside (step maxQueueSize pool action) thread := by
  rcases step_eq maxQueueSize pool action with stays | ⟨steps, enabled⟩
  · rwa [stays]
  rw [steps]
  rcases step_status (program τ maxQueueSize) pool action thread with
    same | ⟨operation, called, status⟩ | ⟨operation, waits, status⟩ |
    ⟨operation, woken, _, enters, status⟩
  · rwa [Outside, same]
  · rw [Outside, status]
    refine ⟨?_, nofun⟩
    intro equal
    cases equal
    have running := enabled thread called
    rw [stopped] at running
    cases running
  · rw [Outside, status]
    refine ⟨?_, nofun⟩
    intro equal
    cases equal
    exact outside.2 waits
  · rw [Outside, status]
    split_ifs
    · exact ⟨nofun, nofun⟩
    · refine ⟨nofun, ?_⟩
      intro equal
      cases equal
      exact outside.1 enters

theorem Outside.run {thread : ℕ} (outside : Outside pool thread)
    (stopped : pool.shared.running = false) (schedule : List (Action (PoolOperation τ))) :
    Outside (schedule.foldl (ThreadPool.step maxQueueSize) pool) thread := by
  induction schedule generalizing pool with
  | nil => exact outside
  | cons action schedule induction =>
      exact induction (outside.step stopped action) (step_stopped stopped action).1

theorem outside_of_enter {thread woken : ℕ} (stopped : pool.shared.running = false)
    (notWaiting : .waiting .take ∉ pool.threads) :
    Outside (step maxQueueSize pool (.enter thread woken)) thread := by
  change Outside (Monitor.step (program τ maxQueueSize) pool (.enter thread woken)) thread
  cases here : pool.threads[thread]? with
  | none => simp [Outside, Monitor.step, here]
  | some status =>
      cases status with
      | idle => simp [Outside, Monitor.step, here]
      | waiting operation =>
          have other : operation ≠ .take := by
            intro isTake
            rw [isTake] at here
            exact notWaiting (List.mem_of_getElem? here)
          simp [Outside, Monitor.step, here, other]
      | entering operation =>
          rw [Outside, enter_status (program τ maxQueueSize) pool here woken]
          split_ifs with ready
          · exact ⟨by simp, by simp⟩
          · refine ⟨by simp, ?_⟩
            intro isTake
            cases isTake
            refine ready (ready_take_iff.mpr ?_)
            intro running
            rw [stopped] at running
            cases running

theorem runAll_append (maxQueueSize count : ℕ) (before behind : List (Action (PoolOperation τ))) :
    runAll maxQueueSize count (before ++ behind) =
      behind.foldl (step maxQueueSize) (runAll maxQueueSize count before) := by
  rw [runAll, List.foldl_append, runAll]

end Stopped

/-- In every schedule, after `stop` the threads take at most one task each of those that are in
`take` then; the others stay in the queue. If the queue is full when they are gone, no call of `run`
gets its task in any more: `stop` does not notify those who wait for room. -/
theorem stop_abandons (maxQueueSize count : ℕ) (before behind : List (Action (PoolOperation τ)))
    (stopped : (runAll maxQueueSize count before).shared.running = false) :
    let pool := runAll maxQueueSize count before
    let later := runAll maxQueueSize count (before ++ behind)
    (taken later).length ≤
        (taken pool).length + inside (program τ maxQueueSize) .notEmpty pool.threads ∧
      (pool.shared.isFull maxQueueSize = true → .entering .take ∉ pool.threads →
        later.shared.queue = pool.shared.queue ∧ submitted later = submitted pool) := by
  intro pool later
  have split : later = behind.foldl (step maxQueueSize) pool :=
    runAll_append maxQueueSize count before behind
  constructor
  · have less := (@run_stopped τ maxQueueSize pool stopped behind).2
    rw [← split] at less
    exact le_trans (Nat.le_add_right _ _) less
  · intro full nobody
    have left : inside (program τ maxQueueSize) .notEmpty pool.threads = 0 := by
      rw [inside, Nat.add_eq_zero_iff, entering, waiting, List.countP_eq_zero, List.countP_eq_zero]
      constructor
      · intro status member enters
        cases status with
        | idle => cases enters
        | waiting operation => cases enters
        | entering operation =>
            cases operation with
            | run task => cases enters
            | stop => cases enters
            | take => exact nobody member
      · intro status member waits
        cases status with
        | idle => cases waits
        | entering operation => cases waits
        | waiting operation =>
            cases operation with
            | run task => cases waits
            | stop => cases waits
            | take => exact not_waiting_of_stopped stopped member
    have blocked : Blocked maxQueueSize pool := ⟨stopped, full, left⟩
    rw [split]
    rcases blocked.run behind with ⟨shared, submits⟩
    exact ⟨by rw [shared], submits⟩

/-- One thread waits for room in a queue of one place when another one stops the pool. -/
def sampleStop : List (Action (PoolOperation ℕ)) :=
  [.call 0 (.run 5), .enter 0 0, .call 0 (.run 6), .enter 0 0, .call 1 .stop, .enter 1 0]

/-- Two threads are in `take` and there is one task when another thread stops the pool. -/
def sampleTakes : List (Action (PoolOperation ℕ)) :=
  [.call 2 .take, .enter 2 0, .call 3 .take, .enter 3 0, .call 0 (.run 5), .enter 0 2,
    .call 1 .stop, .enter 1 0]

/-- One of them takes the task, the other one comes back without one. And a thread that waits
for room stays where it is. -/
theorem stop_abandons_sample :
    (inside (program ℕ 2) .notEmpty (runAll 2 4 sampleTakes).threads = 2 ∧
      taken (runAll 2 4 (sampleTakes ++ [.enter 3 0, .enter 2 0])) = [5] ∧
      (taken (runAll 2 4 (sampleTakes ++ [.enter 3 0, .enter 2 0]))).length ≤ 0 + 2) ∧
    .waiting (.run 6) ∈ (runAll 1 2 sampleStop).threads ∧
      (runAll 1 2 (sampleStop ++ [.wake 0, .enter 0 0])).shared.queue = [5] ∧
      submitted (runAll 1 2 (sampleStop ++ [.wake 0, .enter 0 0])) = [5] := by
  refine ⟨⟨rfl, rfl, (stop_abandons 2 4 sampleTakes [.enter 3 0, .enter 2 0] rfl).1⟩, ?_⟩
  have nobody : .entering .take ∉ (runAll 1 2 sampleStop).threads := by
    intro member
    rcases List.mem_cons.mp member with first | others
    · cases first
    · cases List.mem_singleton.mp others
  have kept := (stop_abandons 1 2 sampleStop [.wake 0, .enter 0 0] rfl).2 rfl nobody
  exact ⟨List.mem_cons_self .., kept⟩

/-- In every schedule, a thread that gets the mutex once after `stop` is not in `take` from then on,
so that `join` waits only for the task it has taken. -/
theorem stop_joins (maxQueueSize count : ℕ)
    (before between behind : List (Action (PoolOperation τ))) (thread woken : ℕ)
    (stopped : (runAll maxQueueSize count before).shared.running = false) :
    let pool := runAll maxQueueSize count
      (before ++ (between ++ .enter thread woken :: behind))
    pool.threads[thread]? ≠ some (.entering .take) ∧
      pool.threads[thread]? ≠ some (.waiting .take) := by
  intro pool
  have stillStopped : (runAll maxQueueSize count (before ++ between)).shared.running = false := by
    rw [runAll_append]
    exact (run_stopped stopped between).1
  have notWaiting := not_waiting_of_stopped stillStopped
  have same : pool = behind.foldl (step maxQueueSize) (step maxQueueSize
      (runAll maxQueueSize count (before ++ between)) (.enter thread woken)) := by
    rw [← List.foldl_cons, ← runAll_append, List.append_assoc]
  have next : (step maxQueueSize (runAll maxQueueSize count (before ++ between))
      (.enter thread woken)).shared.running = false :=
    (step_stopped stillStopped _).1
  rw [same]
  generalize runAll maxQueueSize count (before ++ between) = middle at *
  exact (outside_of_enter stillStopped notWaiting).run next behind

/-- A thread that waits for a task is out of `take` after another one has stopped the pool. -/
theorem stop_joins_sample :
    let stops : List (Action (PoolOperation ℕ)) :=
      [.call 0 .take, .enter 0 0, .call 1 .stop, .enter 1 0]
    (runAll 0 2 (stops.take 2)).threads[0]? = some (.waiting .take) ∧
      (runAll 0 2 (stops ++ ([] ++ [.enter 0 0]))).threads[0]? ≠ some (.entering .take) :=
  ⟨rfl, (stop_joins 0 2 [.call 0 .take, .enter 0 0, .call 1 .stop, .enter 1 0] [] [] 0 0 rfl).1⟩

end ThreadPool

end Lctools.Muduo
