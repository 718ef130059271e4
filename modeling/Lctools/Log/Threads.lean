import Lctools.Log.NodeView
import Mathlib.Logic.Function.Basic

/-! # Threads that share the table of nodes

`get_log_file_node` looks a name up without a lock, and creates and inserts a node
for a missing name under `hash_lock`, without looking again. Any number of threads
do this in any order.
-/

namespace Lctools.Log

/-! ## The program -/

/-- Where a thread is: outside of `get_log_file_node`, between its lookup that
found nothing and `hash_lock`, or in possession of the node it got. -/
inductive Thread where
  | idle
  | missed (logFile : List Char)
  | holding (logFile : List Char) (address : ℕ)
  deriving DecidableEq, Repr

/-- The table, the threads, and the names of the nodes that were created. -/
structure Shared where
  store : NodeStore
  world : World
  threads : ℕ → Thread
  created : List (List Char)

/-- `log_file_nodes` after the initialisation. -/
def Shared.start (world : World) : Shared where
  store := .empty
  world := world
  threads := fun _ => .idle
  created := []

inductive Action where
  /-- The lookup in `get_log_file_node`. -/
  | lookup (thread : ℕ) (logFile : List Char)
  /-- The part of `get_log_file_node` that holds `hash_lock`. -/
  | insert (thread : ℕ) (opening : Opening) (info : SingleLogConfInfo) (id : ℕ)
  /-- Reading and changing the node, as `transparent_iridium_write_log` does. -/
  | use (thread : ℕ) (change : LogFileNode → LogFileNode)
  /-- The end of `transparent_iridium_write_log`. -/
  | release (thread : ℕ)

def Shared.set (shared : Shared) (thread : ℕ) (place : Thread) : Shared :=
  { shared with threads := Function.update shared.threads thread place }

@[simp] theorem Shared.set_self (shared : Shared) (thread : ℕ) (place : Thread) :
    (shared.set thread place).threads thread = place :=
  Function.update_self ..

theorem Shared.set_other (shared : Shared) {thread other : ℕ} (different : other ≠ thread)
    (place : Thread) : (shared.set thread place).threads other = shared.threads other :=
  Function.update_of_ne different ..

/-- One step. An action that does not fit the place of its thread does nothing. -/
def threadStep (globalLogPath : List Char) (shared : Shared) :
    Action → Except LogFault (Unit × Shared)
  | .lookup thread logFile =>
      match shared.threads thread with
      | .idle =>
          if 256 ≤ globalLogPath.length + logFile.length then .error .outOfBounds
          else
            match shared.store.lookup logFile with
            | some address => .ok ((), shared.set thread (.holding logFile address))
            | none => .ok ((), shared.set thread (.missed logFile))
      | _ => .ok ((), shared)
  | .insert thread opening info id =>
      match shared.threads thread with
      | .missed logFile =>
          let ((address, store), world) :=
            createAndInsert globalLogPath opening logFile info id shared.store shared.world
          .ok ((), { shared with
            store := store
            world := world
            created := logFile :: shared.created }.set thread (.holding logFile address))
      | _ => .ok ((), shared)
  | .use thread change =>
      match shared.threads thread with
      | .holding _ address => do
          let node ← shared.store.load address
          .ok ((), { shared with store := shared.store.save address (change node) })
      | _ => .ok ((), shared)
  | .release thread => .ok ((), shared.set thread .idle)

theorem getLogFileNode_missed {globalLogPath logFile : List Char} {shared : Shared}
    {thread : ℕ} (idle : shared.threads thread = .idle)
    (fits : ¬256 ≤ globalLogPath.length + logFile.length)
    (absent : shared.store.lookup logFile = none) (opening : Opening)
    (info : SingleLogConfInfo) (id : ℕ) :
    ∃ address next, getLogFileNode globalLogPath opening logFile info id (.live shared.store)
        shared.world = .ok (some address, .live next.store, next.world) ∧
      run (threadStep globalLogPath) shared
        [.lookup thread logFile, .insert thread opening info id] = .ok ([(), ()], next) ∧
      next.threads thread = .holding logFile address := by
  have missed : threadStep globalLogPath shared (.lookup thread logFile) =
      .ok ((), shared.set thread (.missed logFile)) := by
    simp only [threadStep, idle, if_neg fits, absent]
  have place := shared.set_self thread (.missed logFile)
  rcases created : createAndInsert globalLogPath opening logFile info id shared.store
    shared.world with ⟨⟨address, store⟩, world⟩
  have inserted : threadStep globalLogPath (shared.set thread (.missed logFile))
      (.insert thread opening info id) = .ok ((), Shared.set ⟨store, world,
        (shared.set thread (.missed logFile)).threads, logFile :: shared.created⟩ thread
        (.holding logFile address)) := by
    simp only [threadStep, place]
    rw [show (shared.set thread (.missed logFile)).store = shared.store from rfl,
      show (shared.set thread (.missed logFile)).world = shared.world from rfl, created]
    rfl
  refine ⟨address, _, ?_, Run.run_cons_ok _ missed (Run.run_cons_ok _ inserted rfl),
    Shared.set_self ..⟩
  simp [getLogFileNode, Ref.isNull, fits, Ref.deref, Except.mapError, bind, Except.bind, absent,
    created, Shared.set]

/-! ## Safety -/

structure Unreplaced (shared : Shared) : Prop where
  valid : shared.store.WellFormed
  once : shared.created.Nodup
  present : ∀ logFile, logFile ∈ shared.created ↔ shared.store.lookup logFile ≠ none
  held : ∀ thread logFile address, shared.threads thread = .holding logFile address →
    shared.store.lookup logFile = some address

section Step

variable {globalLogPath : List Char} {shared next : Shared}

theorem Unreplaced.set (unreplaced : Unreplaced shared) (thread : ℕ) {place : Thread}
    (right : ∀ logFile address, place = .holding logFile address →
      shared.store.lookup logFile = some address) : Unreplaced (shared.set thread place) := by
  refine ⟨unreplaced.valid, unreplaced.once, unreplaced.present, ?_⟩
  intro other logFile address holds
  by_cases same : other = thread
  · rw [same, Shared.set_self] at holds
    exact right logFile address holds
  · rw [shared.set_other same] at holds
    exact unreplaced.held other logFile address holds

theorem Unreplaced.insert (unreplaced : Unreplaced shared) (thread : ℕ) {logFile : List Char}
    (absent : shared.store.lookup logFile = none) (node : LogFileNode) (world : World) :
    Unreplaced (Shared.set ⟨(shared.store.insert logFile node).2, world, shared.threads,
      logFile :: shared.created⟩ thread
      (.holding logFile (shared.store.insert logFile node).1)) := by
  rcases unreplaced.valid.insert absent node with ⟨own, updates⟩
  have looked := shared.store.lookup_insert logFile node
  have fresh : logFile ∉ shared.created := by
    rw [unreplaced.present, absent]
    simp
  apply Unreplaced.set
  · refine ⟨updates.wellFormed, List.nodup_cons.mpr ⟨fresh, unreplaced.once⟩, ?_, ?_⟩
    · intro name
      rw [List.mem_cons, unreplaced.present, looked]
      by_cases same : logFile = name
      · simp [same]
      · simp [same, Ne.symm same]
    · intro other name address holds
      have found := unreplaced.held other name address holds
      rw [looked, if_neg, found]
      intro same
      rw [← same, absent] at found
      cases found
  · intro name address holds
    cases holds
    exact own

theorem Unreplaced.use (unreplaced : Unreplaced shared) {logFile : List Char} {address : ℕ}
    (found : shared.store.lookup logFile = some address) (node : LogFileNode) :
    Unreplaced { shared with store := shared.store.save address node } :=
  ⟨(unreplaced.valid.save found node).wellFormed, unreplaced.once, unreplaced.present,
    unreplaced.held⟩

end Step

/-! ## Interleavings -/

end Lctools.Log
