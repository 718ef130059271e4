import Lctools.Foundation.Run
import Mathlib.Data.ENat.Basic

/-! # Monitors

Objects that are guarded by one mutex. An operation that cannot be performed yet waits on a
condition variable, in a loop that tests again after every wake-up; an operation that is
performed may notify one or all of the threads that wait on a condition variable. Threads
call operations, get the mutex and wake up in any order, also without having been notified.
-/

namespace Lctools

/-- Whom an operation notifies. -/
inductive Notice (γ : Type) where
  | nobody
  | one (condition : γ)
  | all (condition : γ)
  deriving DecidableEq

/-- The operations of a monitor with a state in `σ`. -/
structure MonitorProgram (σ κ γ ρ : Type) where
  /-- The condition variable on which an operation waits. -/
  waitsOn : κ → Option γ
  /-- The operation does not wait in this state. -/
  ready : σ → κ → Bool
  perform : σ → κ → ρ × σ
  notify : σ → κ → Notice γ
  ready_of_none : ∀ state operation, waitsOn operation = none → ready state operation = true

/-- A thread is outside of the monitor, wants to get the mutex, or waits. -/
inductive Status (κ : Type) where
  | idle
  | entering (operation : κ)
  | waiting (operation : κ)

/-- The state of the object, its threads, and what was performed with which result. -/
structure Monitor (σ κ ρ : Type) where
  shared : σ
  threads : List (Status κ)
  performed : List (κ × ρ)

namespace Monitor

variable {σ κ γ ρ : Type} [DecidableEq γ]

/-- What happens next: a thread calls an operation; a thread gets the mutex, where a
notification of one thread goes to `woken` if that one waits for it; or a thread wakes up. -/
inductive Action (κ : Type) where
  | call (thread : ℕ) (operation : κ)
  | enter (thread woken : ℕ)
  | wake (thread : ℕ)

section Program

variable (program : MonitorProgram σ κ γ ρ)

def isEntering (condition : γ) : Status κ → Bool
  | .entering operation => program.waitsOn operation == some condition
  | _ => false

def isWaiting (condition : γ) : Status κ → Bool
  | .waiting operation => program.waitsOn operation == some condition
  | _ => false

def wakeUp : Status κ → Status κ
  | .waiting operation => .entering operation
  | status => status

def wakeAt (thread : ℕ) (threads : List (Status κ)) : List (Status κ) :=
  match threads[thread]? with
  | some status => threads.set thread (wakeUp status)
  | none => threads

/-- One of the threads that wait on the condition is woken, if there is any. -/
def wakeOne (condition : γ) (woken : ℕ) (threads : List (Status κ)) : List (Status κ) :=
  if threads[woken]?.any (isWaiting program condition) then wakeAt woken threads
  else wakeAt (threads.findIdx (isWaiting program condition)) threads

def wakeAll (condition : γ) (threads : List (Status κ)) : List (Status κ) :=
  threads.map fun status => if isWaiting program condition status then wakeUp status else status

def announce (notice : Notice γ) (woken : ℕ) (threads : List (Status κ)) : List (Status κ) :=
  match notice with
  | .nobody => threads
  | .one condition => wakeOne program condition woken threads
  | .all condition => wakeAll program condition threads

/-- One step. An action that does not fit the status of its thread does nothing. -/
def step (monitor : Monitor σ κ ρ) : Action κ → Monitor σ κ ρ
  | .call thread operation =>
      match monitor.threads[thread]? with
      | some .idle =>
          { monitor with threads := monitor.threads.set thread (.entering operation) }
      | _ => monitor
  | .enter thread woken =>
      match monitor.threads[thread]? with
      | some (.entering operation) =>
          if program.ready monitor.shared operation then
            let (result, shared) := program.perform monitor.shared operation
            { shared := shared
              threads := announce program (program.notify monitor.shared operation) woken
                (monitor.threads.set thread .idle)
              performed := monitor.performed ++ [(operation, result)] }
          else { monitor with threads := monitor.threads.set thread (.waiting operation) }
      | _ => monitor
  | .wake thread =>
      match monitor.threads[thread]? with
      | some (.waiting operation) =>
          { monitor with threads := monitor.threads.set thread (.entering operation) }
      | _ => monitor

/-- The state after a schedule, from which a number of threads start outside. -/
def after (initial : σ) (count : ℕ) (schedule : List (Action κ)) : Monitor σ κ ρ :=
  schedule.foldl (step program) ⟨initial, List.replicate count .idle, []⟩

variable {program}

theorem after_induction (holds : Monitor σ κ ρ → Prop) {initial : σ} {count : ℕ}
    (start : holds ⟨initial, List.replicate count .idle, []⟩)
    (keeps : ∀ monitor action, holds monitor → holds (step program monitor action))
    (schedule : List (Action κ)) : holds (after program initial count schedule) := by
  rw [after]
  generalize (⟨initial, List.replicate count .idle, []⟩ : Monitor σ κ ρ) = monitor at start
  induction schedule generalizing monitor with
  | nil => exact start
  | cons action schedule induction => exact induction _ (keeps monitor action start)

theorem step_cases (program : MonitorProgram σ κ γ ρ) (monitor : Monitor σ κ ρ)
    (action : Action κ) :
    ((step program monitor action).shared = monitor.shared ∧
        (step program monitor action).performed = monitor.performed) ∨
      ∃ operation, program.ready monitor.shared operation = true ∧
        (step program monitor action).shared = (program.perform monitor.shared operation).2 ∧
        (step program monitor action).performed =
          monitor.performed ++ [(operation, (program.perform monitor.shared operation).1)] := by
  cases action with
  | call thread operation =>
      rw [step]
      split <;> exact .inl ⟨rfl, rfl⟩
  | wake thread =>
      rw [step]
      split <;> exact .inl ⟨rfl, rfl⟩
  | enter thread woken =>
      rw [step]
      split
      · next operation _ =>
          split_ifs with ready
          · exact .inr ⟨operation, ready, rfl, rfl⟩
          · exact .inl ⟨rfl, rfl⟩
      · exact .inl ⟨rfl, rfl⟩

end Program

/-! ## Operations are performed one at a time -/

section Serial

variable (program : MonitorProgram σ κ γ ρ)

/-- The object without threads: an operation is performed only when it need not wait. -/
def serial (state : σ) (operation : κ) : Except Unit (ρ × σ) :=
  if program.ready state operation then .ok (program.perform state operation) else .error ()

/-- What was performed is a run of the object without threads. -/
def Linearized (initial : σ) (monitor : Monitor σ κ ρ) : Prop :=
  run (serial program) initial (monitor.performed.map (·.1)) =
    .ok (monitor.performed.map (·.2), monitor.shared)

variable {program}

/-- Under every schedule the results and the state are those of performing the operations
one after the other, each when it need not wait. -/
theorem linearized_after (program : MonitorProgram σ κ γ ρ) (initial : σ) (count : ℕ)
    (schedule : List (Action κ)) :
    Linearized program initial (after program initial count schedule) := by
  refine after_induction (Linearized program initial) rfl ?_ schedule
  intro monitor action linearized
  rcases step_cases program monitor action with
    ⟨shared, performed⟩ | ⟨operation, ready, shared, performed⟩
  · rwa [Linearized, shared, performed]
  · rw [Linearized, shared, performed, List.map_append, List.map_append]
    apply Run.run_append_ok monitor.shared linearized
    apply Run.run_cons_ok (program.perform monitor.shared operation).2 _ rfl
    rw [serial, if_pos ready]

theorem performed_after (program : MonitorProgram σ κ γ ρ) (initial : σ) (count : ℕ)
    (schedule : List (Action κ)) :
    ∀ entry ∈ (after program initial count schedule).performed,
      ∃ state, program.ready state entry.1 = true ∧
        (program.perform state entry.1).1 = entry.2 := by
  refine after_induction (fun monitor => ∀ entry ∈ monitor.performed,
    ∃ state, program.ready state entry.1 = true ∧ (program.perform state entry.1).1 = entry.2)
    (fun _ member => absurd member List.not_mem_nil) ?_ schedule
  intro monitor action before entry member
  rcases step_cases program monitor action with ⟨_, performed⟩ | ⟨operation, ready, _, performed⟩
  · rw [performed] at member
    exact before entry member
  · rw [performed, List.mem_append, List.mem_singleton] at member
    rcases member with earlier | last
    · exact before entry earlier
    · rw [last]
      exact ⟨monitor.shared, ready, rfl⟩

end Serial

/-! ## No wake-up is lost -/

section Counting

variable (program : MonitorProgram σ κ γ ρ)

/-- How many threads want to get the mutex for an operation that waits on the condition. -/
def entering (condition : γ) (threads : List (Status κ)) : ℕ :=
  threads.countP (isEntering program condition)

def waiting (condition : γ) (threads : List (Status κ)) : ℕ :=
  threads.countP (isWaiting program condition)

theorem countP_set_add {α : Type} {p : α → Bool} {list : List α} {index : ℕ} {old : α}
    (here : list[index]? = some old) (new : α) :
    (list.set index new).countP p + (if p old then 1 else 0) =
      list.countP p + (if p new then 1 else 0) := by
  rcases List.getElem?_eq_some_iff.mp here with ⟨inside, same⟩
  have counted := @List.countP_set α p list index new inside
  have least := @List.boole_getElem_le_countP α p list index inside
  rw [same] at counted least
  omega

variable {program} {threads : List (Status κ)} {condition : γ}

theorem wakeOne_cases (program : MonitorProgram σ κ γ ρ) (condition : γ) (woken : ℕ)
    (threads : List (Status κ)) :
    waiting program condition threads = 0 ∧ wakeOne program condition woken threads = threads ∨
      ∃ index operation, threads[index]? = some (.waiting operation) ∧
        program.waitsOn operation = some condition ∧
        wakeOne program condition woken threads = threads.set index (.entering operation) := by
  have found : ∀ index status, threads[index]? = some status →
      isWaiting program condition status = true →
      ∃ operation, threads[index]? = some (.waiting operation) ∧
        program.waitsOn operation = some condition ∧
        wakeAt index threads = threads.set index (.entering operation) := by
    intro index status here waits
    cases status with
    | idle => cases waits
    | entering operation => cases waits
    | waiting operation =>
        refine ⟨operation, here, beq_iff_eq.mp waits, ?_⟩
        rw [wakeAt, here]
        rfl
  rw [wakeOne]
  split_ifs with chosen
  · cases here : threads[woken]? with
    | none =>
        rw [here] at chosen
        cases chosen
    | some status =>
        rw [here] at chosen
        rcases found woken status here chosen with ⟨operation, place, own, woke⟩
        exact .inr ⟨woken, operation, place, own, woke⟩
  · by_cases any : threads.findIdx (isWaiting program condition) < threads.length
    · rcases found _ _ (List.getElem?_eq_getElem any) (List.findIdx_getElem) with
        ⟨operation, here, own, woke⟩
      exact .inr ⟨_, operation, here, own, woke⟩
    · refine .inl ⟨?_, ?_⟩
      · rw [waiting, List.countP_eq_zero]
        intro status member
        rw [List.findIdx_lt_length] at any
        simp only [not_exists, not_and] at any
        exact any status member
      · rw [wakeAt, List.getElem?_eq_none (Nat.le_of_not_lt any)]

section Set

variable (program) {index : ℕ} {old : Status κ}

theorem entering_set (condition : γ) (here : threads[index]? = some old) (new : Status κ) :
    entering program condition (threads.set index new) +
        (if isEntering program condition old then 1 else 0) =
      entering program condition threads + (if isEntering program condition new then 1 else 0) :=
  countP_set_add here new

theorem waiting_set (condition : γ) (here : threads[index]? = some old) (new : Status κ) :
    waiting program condition (threads.set index new) +
        (if isWaiting program condition old then 1 else 0) =
      waiting program condition threads + (if isWaiting program condition new then 1 else 0) :=
  countP_set_add here new

theorem isEntering_iff (condition : γ) (operation : κ) :
    isEntering program condition (.entering operation) = true ↔
      program.waitsOn operation = some condition :=
  beq_iff_eq

theorem isWaiting_iff (condition : γ) (operation : κ) :
    isWaiting program condition (.waiting operation) = true ↔
      program.waitsOn operation = some condition :=
  beq_iff_eq

end Set

@[simp] theorem wakeUp_waiting (operation : κ) :
    wakeUp (.waiting operation) = .entering operation :=
  rfl

@[simp] theorem isWaiting_entering (condition : γ) (operation : κ) :
    isWaiting program condition (.entering operation) = false :=
  rfl

@[simp] theorem isWaiting_idle (condition : γ) : isWaiting program condition .idle = false :=
  rfl

@[simp] theorem isEntering_waiting (condition : γ) (operation : κ) :
    isEntering program condition (.waiting operation) = false :=
  rfl

@[simp] theorem isEntering_idle (condition : γ) : isEntering program condition .idle = false :=
  rfl

theorem waiting_wakeAll (program : MonitorProgram σ κ γ ρ) (condition : γ)
    (threads : List (Status κ)) :
    waiting program condition (wakeAll program condition threads) = 0 := by
  rw [waiting, List.countP_eq_zero, wakeAll]
  intro status member
  rcases List.mem_map.mp member with ⟨before, _, rfl⟩
  split_ifs with waits
  · cases before with
    | idle => nofun
    | entering operation => nofun
    | waiting operation => nofun
  · exact waits

theorem wakeAll_other {other : γ} (different : condition ≠ other) (threads : List (Status κ)) :
    waiting program other (wakeAll program condition threads) = waiting program other threads ∧
      entering program other (wakeAll program condition threads) =
        entering program other threads := by
  have apart : ∀ status, isWaiting program condition status = true →
      isWaiting program other (wakeUp status) = isWaiting program other status ∧
        isEntering program other (wakeUp status) = isEntering program other status := by
    intro status waits
    cases status with
    | idle => cases waits
    | entering operation => cases waits
    | waiting operation =>
        have own : program.waitsOn operation = some condition := beq_iff_eq.mp waits
        simp [wakeUp, isWaiting, isEntering, own, different]
  rw [waiting, waiting, entering, entering, wakeAll, List.countP_map, List.countP_map]
  constructor
  · apply List.countP_congr
    intro status _
    simp only [Function.comp_apply]
    split_ifs with waits
    · rw [(apart status waits).1]
    · rfl
  · apply List.countP_congr
    intro status _
    simp only [Function.comp_apply]
    split_ifs with waits
    · rw [(apart status waits).2]
    · rfl

theorem announce_counts (program : MonitorProgram σ κ γ ρ) (notice : Notice γ) (woken : ℕ)
    (threads : List (Status κ)) {condition : γ}
    (waits : 0 < waiting program condition (announce program notice woken threads)) :
    notice ≠ .all condition ∧ 0 < waiting program condition threads ∧
      entering program condition threads + (if notice = .one condition then 1 else 0) ≤
        entering program condition (announce program notice woken threads) := by
  cases notice with
  | nobody => exact ⟨nofun, waits, Nat.le_refl _⟩
  | all other =>
      rw [announce] at waits ⊢
      by_cases same : other = condition
      · rw [same, waiting_wakeAll] at waits
        exact absurd waits (Nat.lt_irrefl 0)
      · rcases @wakeAll_other _ _ _ _ _ program other condition same threads with
          ⟨waited, entered⟩
        rw [waited] at waits
        rw [entered]
        refine ⟨fun equal => same (Notice.all.inj equal), waits, Nat.le_of_eq ?_⟩
        rw [if_neg nofun, Nat.add_zero]
  | one other =>
      rw [announce] at waits ⊢
      rcases wakeOne_cases program other woken threads with
        ⟨none, same⟩ | ⟨index, operation, here, own, same⟩
      · rw [same] at waits ⊢
        refine ⟨nofun, waits, ?_⟩
        rw [if_neg, Nat.add_zero]
        intro equal
        rw [Notice.one.inj equal] at none
        omega
      · rw [same] at waits ⊢
        have entered := entering_set program condition here (.entering operation)
        have waited := waiting_set program condition here (.entering operation)
        simp only [isWaiting_entering, isEntering_waiting, isEntering_iff, own, Option.some.injEq,
          Bool.false_eq_true, if_false, Nat.add_zero] at entered waited
        refine ⟨nofun, by omega, ?_⟩
        rw [entered]
        simp only [Notice.one.injEq, Nat.le_refl]

/-! ## Threads inside of an operation -/

section Inside

variable (program)

/-- How many threads have called an operation that waits on the condition. -/
def inside (condition : γ) (threads : List (Status κ)) : ℕ :=
  entering program condition threads + waiting program condition threads

/-- How many of the operations that wait on the condition `operation` is. -/
def share (condition : γ) (operation : κ) : ℕ :=
  if program.waitsOn operation = some condition then 1 else 0

theorem inside_set_idle {index : ℕ} {operation : κ}
    (here : threads[index]? = some (.entering operation)) (condition : γ) :
    inside program condition (threads.set index .idle) + share program condition operation =
      inside program condition threads := by
  have entered := entering_set program condition here .idle
  have waited := waiting_set program condition here .idle
  simp only [isWaiting_entering, isWaiting_idle, isEntering_idle, isEntering_iff,
    Bool.false_eq_true, if_false, Nat.add_zero] at entered waited
  rw [inside, inside, share, ← entered, ← waited, Nat.add_right_comm]

theorem inside_set_waiting {index : ℕ} {operation : κ} {old new : Status κ}
    (here : threads[index]? = some old) (condition : γ)
    (turns : old = .entering operation ∧ new = .waiting operation ∨
      old = .waiting operation ∧ new = .entering operation) :
    inside program condition (threads.set index new) = inside program condition threads := by
  have entered := entering_set program condition here new
  have waited := waiting_set program condition here new
  rw [inside, inside]
  rcases turns with ⟨rfl, rfl⟩ | ⟨rfl, rfl⟩
  · simp only [isWaiting_entering, isEntering_waiting, isEntering_iff, isWaiting_iff,
      Bool.false_eq_true, if_false, Nat.add_zero] at entered waited
    omega
  · simp only [isWaiting_entering, isEntering_waiting, isEntering_iff, isWaiting_iff,
      Bool.false_eq_true, if_false, Nat.add_zero] at entered waited
    omega

theorem inside_wakeAll (announced condition : γ) (threads : List (Status κ)) :
    inside program condition (wakeAll program announced threads) =
      inside program condition threads := by
  rw [wakeAll]
  induction threads with
  | nil => rfl
  | cons status threads induction =>
      simp only [inside, entering, waiting, List.map_cons, List.countP_cons] at induction ⊢
      cases status with
      | idle =>
          simp only [isWaiting_idle, Bool.false_eq_true, if_false]
          omega
      | entering operation =>
          simp only [isWaiting_entering, Bool.false_eq_true, if_false]
          omega
      | waiting operation =>
          by_cases concerned : isWaiting program announced (.waiting operation) = true
          · rw [if_pos concerned, wakeUp_waiting]
            simp only [isWaiting_entering, isEntering_waiting, isEntering_iff, isWaiting_iff,
              Bool.false_eq_true, if_false]
            omega
          · simp only [if_neg concerned]
            omega

theorem inside_announce (notice : Notice γ) (woken : ℕ) (condition : γ)
    (threads : List (Status κ)) :
    inside program condition (announce program notice woken threads) =
      inside program condition threads := by
  cases notice with
  | nobody => rfl
  | all announced => exact inside_wakeAll program announced condition threads
  | one announced =>
      rw [announce]
      rcases wakeOne_cases program announced woken threads with
        ⟨_, same⟩ | ⟨index, operation, here, _, same⟩
      · rw [same]
      · rw [same]
        exact inside_set_waiting program here condition (.inr ⟨rfl, rfl⟩)

theorem step_inside (monitor : Monitor σ κ ρ) (action : Action κ) (condition : γ) :
    (∃ thread operation, action = .call thread operation ∧
        (step program monitor action).shared = monitor.shared ∧
        (step program monitor action).performed = monitor.performed ∧
        inside program condition (step program monitor action).threads ≤
          inside program condition monitor.threads + share program condition operation) ∨
      ((step program monitor action).shared = monitor.shared ∧
        (step program monitor action).performed = monitor.performed ∧
        inside program condition (step program monitor action).threads =
          inside program condition monitor.threads) ∨
      ∃ operation, program.ready monitor.shared operation = true ∧
        (step program monitor action).shared = (program.perform monitor.shared operation).2 ∧
        (step program monitor action).performed =
          monitor.performed ++ [(operation, (program.perform monitor.shared operation).1)] ∧
        inside program condition (step program monitor action).threads +
            share program condition operation =
          inside program condition monitor.threads := by
  cases action with
  | call thread operation =>
      refine .inl ⟨thread, operation, rfl, ?_⟩
      rw [step]
      split
      · next here =>
          refine ⟨rfl, rfl, ?_⟩
          have entered := entering_set program condition here (.entering operation)
          have waited := waiting_set program condition here (.entering operation)
          simp only [isWaiting_entering, isWaiting_idle, isEntering_idle, isEntering_iff,
            Bool.false_eq_true, if_false, Nat.add_zero] at entered waited
          simp only [inside, share]
          omega
      · exact ⟨rfl, rfl, Nat.le_add_right _ _⟩
  | wake thread =>
      refine .inr (.inl ?_)
      rw [step]
      split
      · next operation here =>
          exact ⟨rfl, rfl, inside_set_waiting program here condition (.inr ⟨rfl, rfl⟩)⟩
      · exact ⟨rfl, rfl, rfl⟩
  | enter thread woken =>
      rw [step]
      split
      · next operation here =>
          split_ifs with ready
          · refine .inr (.inr ⟨operation, ready, rfl, rfl, ?_⟩)
            rw [inside_announce]
            exact inside_set_idle program here condition
          · exact .inr (.inl ⟨rfl, rfl, inside_set_waiting program here condition
              (.inl ⟨rfl, rfl⟩)⟩)
      · exact .inr (.inl ⟨rfl, rfl, rfl⟩)

theorem announce_status (notice : Notice γ) (woken : ℕ) (threads : List (Status κ)) (index : ℕ) :
    (announce program notice woken threads)[index]? = threads[index]? ∨
      ∃ operation, threads[index]? = some (.waiting operation) ∧
        (announce program notice woken threads)[index]? = some (.entering operation) := by
  cases notice with
  | nobody => exact .inl rfl
  | all condition =>
      rw [announce, wakeAll, List.getElem?_map]
      cases here : threads[index]? with
      | none => exact .inl rfl
      | some status =>
          simp only [Option.map_some]
          split_ifs with waits
          · cases status with
            | idle => cases waits
            | entering operation => cases waits
            | waiting operation => exact .inr ⟨operation, rfl, rfl⟩
          · exact .inl rfl
  | one condition =>
      rw [announce]
      rcases wakeOne_cases program condition woken threads with
        ⟨_, same⟩ | ⟨chosen, operation, here, _, same⟩
      · exact .inl (by rw [same])
      · rw [same]
        by_cases own : chosen = index
        · rw [← own]
          have inside := (List.getElem?_eq_some_iff.mp here).1
          exact .inr ⟨operation, here, List.getElem?_set_self inside⟩
        · exact .inl (List.getElem?_set_ne own)

theorem enter_status (monitor : Monitor σ κ ρ) {thread : ℕ} {operation : κ}
    (here : monitor.threads[thread]? = some (.entering operation)) (woken : ℕ) :
    (step program monitor (.enter thread woken)).threads[thread]? = some
      (if program.ready monitor.shared operation then .idle else .waiting operation) := by
  have inside := (List.getElem?_eq_some_iff.mp here).1
  simp only [step, here]
  split_ifs with ready
  · have left : (monitor.threads.set thread Status.idle)[thread]? = some .idle :=
      List.getElem?_set_self inside
    rcases announce_status program (program.notify monitor.shared operation) woken
      (monitor.threads.set thread .idle) thread with same | ⟨_, waits, _⟩
    · exact same.trans left
    · rw [left] at waits
      cases waits
  · exact List.getElem?_set_self inside

theorem step_status (monitor : Monitor σ κ ρ) (action : Action κ) (thread : ℕ) :
    (step program monitor action).threads[thread]? = monitor.threads[thread]? ∨
      (∃ operation, action = .call thread operation ∧
        (step program monitor action).threads[thread]? = some (.entering operation)) ∨
      (∃ operation, monitor.threads[thread]? = some (.waiting operation) ∧
        (step program monitor action).threads[thread]? = some (.entering operation)) ∨
      ∃ operation woken, action = .enter thread woken ∧
        monitor.threads[thread]? = some (.entering operation) ∧
        (step program monitor action).threads[thread]? = some
          (if program.ready monitor.shared operation then .idle else .waiting operation) := by
  cases action with
  | call caller operation =>
      rw [step]
      split
      · next here =>
          have inside := (List.getElem?_eq_some_iff.mp here).1
          by_cases own : caller = thread
          · rw [← own]
            exact .inr (.inl ⟨operation, rfl, List.getElem?_set_self inside⟩)
          · exact .inl (List.getElem?_set_ne own)
      · exact .inl rfl
  | wake sleeper =>
      rw [step]
      split
      · next operation here =>
          have inside := (List.getElem?_eq_some_iff.mp here).1
          by_cases own : sleeper = thread
          · rw [← own]
            exact .inr (.inr (.inl ⟨operation, here, List.getElem?_set_self inside⟩))
          · exact .inl (List.getElem?_set_ne own)
      · exact .inl rfl
  | enter owner woken =>
      by_cases own : owner = thread
      · rw [← own]
        cases here : monitor.threads[owner]? with
        | none => exact .inl (by simp [step, here])
        | some status =>
            cases status with
            | idle => exact .inl (by simp [step, here])
            | waiting operation => exact .inl (by simp [step, here])
            | entering operation =>
                exact .inr (.inr (.inr ⟨operation, woken, rfl, rfl,
                  enter_status program monitor here woken⟩))
      · rw [step]
        split
        · next operation here =>
            split_ifs with ready
            · rcases announce_status program (program.notify monitor.shared operation) woken
                (monitor.threads.set owner .idle) thread with same | ⟨other, waits, enters⟩
              · exact .inl (same.trans (List.getElem?_set_ne own))
              · rw [List.getElem?_set_ne own] at waits
                exact .inr (.inr (.inl ⟨other, waits, enters⟩))
            · exact .inl (List.getElem?_set_ne own)
        · exact .inl rfl

end Inside

end Counting

section Covered

variable (program : MonitorProgram σ κ γ ρ) (need : σ → γ → ℕ∞)

/-- `need` says how many of the operations that wait on a condition could be performed now.
An operation makes it larger only by as much as it notifies. -/
structure Counts : Prop where
  ready_iff : ∀ state operation condition, program.waitsOn operation = some condition →
    (program.ready state operation = true ↔ 0 < need state condition)
  perform_le : ∀ state operation condition, program.ready state operation = true →
    program.notify state operation ≠ .all condition →
    need (program.perform state operation).2 condition +
        (if program.waitsOn operation = some condition then 1 else 0) ≤
      need state condition +
        (if program.notify state operation = .one condition then 1 else 0)

theorem counts_of_nat {program : MonitorProgram σ κ γ ρ} {number : σ → γ → ℕ}
    (ready_iff : ∀ state operation condition, program.waitsOn operation = some condition →
      (program.ready state operation = true ↔ 0 < number state condition))
    (perform_le : ∀ state operation condition, program.ready state operation = true →
      program.notify state operation ≠ .all condition →
      number (program.perform state operation).2 condition +
          (if program.waitsOn operation = some condition then 1 else 0) ≤
        number state condition +
          (if program.notify state operation = .one condition then 1 else 0)) :
    Counts program fun state condition => number state condition where
  ready_iff := by
    intro state operation condition own
    rw [ready_iff state operation condition own]
    norm_cast
  perform_le := by
    intro state operation condition ready notAll
    have least := perform_le state operation condition ready notAll
    exact_mod_cast least

/-- Where threads wait, as many others as could be served are on their way. -/
def Covered (monitor : Monitor σ κ ρ) : Prop :=
  ∀ condition, 0 < waiting program condition monitor.threads →
    need monitor.shared condition ≤ entering program condition monitor.threads

variable {program need} {monitor : Monitor σ κ ρ}

theorem Covered.enterable (covered : Covered program need monitor) {thread : ℕ}
    {status : Status κ} (here : monitor.threads[thread]? = some status)
    (outside : ∀ condition, isEntering program condition status = false) (operation : κ) :
    Covered program need
      { monitor with threads := monitor.threads.set thread (.entering operation) } := by
  intro condition waits
  have entered := entering_set program condition here (.entering operation)
  have waited := waiting_set program condition here (.entering operation)
  simp only [outside condition, isWaiting_entering, Bool.false_eq_true, if_false] at entered waited
  simp only at waits ⊢
  refine le_trans (covered condition (by omega)) (Nat.cast_le.mpr ?_)
  omega

theorem Covered.wait (covered : Covered program need monitor) (counts : Counts program need)
    {thread : ℕ} {operation : κ} (here : monitor.threads[thread]? = some (.entering operation))
    (blocked : program.ready monitor.shared operation = false) :
    Covered program need
      { monitor with threads := monitor.threads.set thread (.waiting operation) } := by
  intro condition waits
  have entered := entering_set program condition here (.waiting operation)
  have waited := waiting_set program condition here (.waiting operation)
  simp only at waits ⊢
  by_cases own : program.waitsOn operation = some condition
  · have none := (counts.ready_iff monitor.shared operation condition own).not.mp
      (by rw [blocked]; nofun)
    rw [not_lt, nonpos_iff_eq_zero] at none
    rw [none]
    exact zero_le
  · have notEntering := (isEntering_iff program condition operation).not.mpr own
    have notWaiting := (isWaiting_iff program condition operation).not.mpr own
    simp only [notEntering, notWaiting, isEntering_waiting, isWaiting_entering, Bool.false_eq_true,
      if_false] at entered waited
    refine le_trans (covered condition (by omega)) (Nat.cast_le.mpr ?_)
    omega

theorem Covered.perform (covered : Covered program need monitor) (counts : Counts program need)
    {thread : ℕ} {operation : κ} (here : monitor.threads[thread]? = some (.entering operation))
    (ready : program.ready monitor.shared operation = true) (woken : ℕ)
    (performed : List (κ × ρ)) :
    Covered program need
      { shared := (program.perform monitor.shared operation).2
        threads := announce program (program.notify monitor.shared operation) woken
          (monitor.threads.set thread .idle)
        performed := performed } := by
  intro condition waits
  simp only at waits ⊢
  have least := counts.perform_le monitor.shared operation condition ready
  have entered := entering_set program condition here .idle
  have waited := waiting_set program condition here .idle
  simp only [isWaiting_entering, isWaiting_idle, isEntering_idle, isEntering_iff,
    Bool.false_eq_true, if_false, Nat.add_zero] at entered waited
  rcases announce_counts program _ woken _ waits with ⟨notAll, waitedBefore, more⟩
  have before := covered condition (by omega)
  have bound := le_trans (least notAll) (add_le_add_left before _)
  refine le_trans ?_ (Nat.cast_le.mpr more)
  rw [← entered] at bound
  have finite : (if program.waitsOn operation = some condition then (1 : ℕ∞) else 0) ≠ ⊤ := by
    split_ifs
    · exact ENat.one_ne_top
    · exact ENat.zero_ne_top
  push_cast at bound ⊢
  rw [add_right_comm] at bound
  exact (ENat.add_le_add_iff_right finite).mp bound

theorem Covered.step (covered : Covered program need monitor) (counts : Counts program need)
    (action : Action κ) : Covered program need (step program monitor action) := by
  cases action with
  | call thread operation =>
      rw [Monitor.step]
      split
      · next here => exact covered.enterable here (fun _ => rfl) operation
      · exact covered
  | wake thread =>
      rw [Monitor.step]
      split
      · next operation here => exact covered.enterable here (fun _ => rfl) operation
      · exact covered
  | enter thread woken =>
      rw [Monitor.step]
      split
      · next operation here =>
          split_ifs with ready
          · exact covered.perform counts here ready woken _
          · exact covered.wait counts here (Bool.eq_false_of_not_eq_true ready)
      · exact covered

theorem covered_after (counts : Counts program need) (initial : σ) (count : ℕ)
    (schedule : List (Action κ)) :
    Covered program need (after program initial count schedule) := by
  have start : Covered program need (⟨initial, List.replicate count .idle, []⟩ :
      Monitor σ κ ρ) := by
    intro condition waits
    have none : waiting program condition (List.replicate count (.idle : Status κ)) = 0 := by
      simp [waiting, List.countP_replicate]
    rw [none] at waits
    exact absurd waits (Nat.lt_irrefl 0)
  exact after_induction _ start (fun _ action covered => covered.step counts action) schedule

theorem waiting_pos {threads : List (Status κ)} {operation : κ} {condition : γ}
    (waits : .waiting operation ∈ threads) (own : program.waitsOn operation = some condition) :
    0 < waiting program condition threads :=
  List.countP_pos_iff.mpr ⟨_, waits, (isWaiting_iff program condition operation).mpr own⟩

/-- While a thread waits although its operation could be performed, another one is on its way
that waits for the same. -/
theorem Covered.exists_entering (covered : Covered program need monitor)
    (counts : Counts program need) {operation : κ} {condition : γ}
    (own : program.waitsOn operation = some condition)
    (waits : .waiting operation ∈ monitor.threads)
    (ready : program.ready monitor.shared operation = true) :
    ∃ other, .entering other ∈ monitor.threads ∧ program.waitsOn other = some condition := by
  have some := (counts.ready_iff monitor.shared operation condition own).mp ready
  have least := covered condition (waiting_pos waits own)
  have positive : 0 < entering program condition monitor.threads := by
    have cast := lt_of_lt_of_le some least
    exact_mod_cast cast
  rcases List.countP_pos_iff.mp positive with ⟨status, member, enters⟩
  cases status with
  | idle => cases enters
  | waiting other => cases enters
  | entering other => exact ⟨other, member, (isEntering_iff program condition other).mp enters⟩

theorem Covered.not_waiting (covered : Covered program need monitor) {operation : κ}
    {condition : γ} (own : program.waitsOn operation = some condition)
    (unlimited : need monitor.shared condition = ⊤) : .waiting operation ∉ monitor.threads := by
  intro waits
  have least := covered condition (waiting_pos waits own)
  rw [unlimited, top_le_iff] at least
  exact ENat.natCast_ne_top _ least

end Covered

end Monitor

end Lctools
