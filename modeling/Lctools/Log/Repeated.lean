import Lctools.Log.NodeEvents

/-! # One message over and over

A log with a lock and without a limit of its size, and its node and its events after a
number of messages in the same second. The message after 501 messages changes the file.
-/

namespace Lctools.Log

open CString

/-- A section with a lock, without a limit of the size. -/
def lockedFile : List Char :=
  ("-a\nDEBUG.INFO.ERR.FATAL=1.1.1.1\nLOG_FILE.FILE.FUNC.LINE.DATE=1.0.0.0.0\n" ++
    "IS_PROCESS_LOCK=1\n-end\n").toList

def lockedInit : InitAnswers := ⟨true, true, .readable lockedFile, nul, id, 0, .zero⟩

def lockedHost : Host := ⟨"app".toList, "box".toList, 1, sampleProcName_short⟩

def lockedWrite : Write := ⟨sampleRequest, sampleAnswers lockedInit⟩

def lockedInfo : SingleLogConfInfo :=
  { SingleLogConfInfo.zero with
    name := "a".toList
    isProcessLock := 1
    irilogSwitch := { IrilogSwitch.zero with
      debug := true, info := true, err := true, fatal := true, logFile := true } }

theorem lockedInit_ok :
    ∃ start infos, iridiumInitLog none lockedInit (.start lockedHost) = .ok (0, start) ∧
      start.infos = .live infos ∧ start.globalLogPath = irilogPath ∧
      Chosen infos (.live infos.names) (some "a".toList) 3 lockedInfo "a".toList :=
  ⟨_, _, rfl, rfl, rfl, ⟨rfl, rfl, rfl⟩⟩

/-! ## The node and the events -/

def lockedRecord : List Char := "[INFO] up\n".toList

def lockedPath : List Char := pathAt irilogPath lockedHost "a".toList .zero

def lockedWrote : Event := .wrote "a".toList lockedPath lockedRecord 10

def messagesNode : ℕ → Option LogFileNode
  | 0 => none
  | count + 1 => some ⟨"a".toList, dateText .zero, 3, count + 1, 10 * (count + 1), 3, lockedPath⟩

def messagesEvents : ℕ → List Event
  | 0 => []
  | 1 => [.unlocked 3, lockedWrote, .locked 3, .opened "a".toList lockedPath 3]
  | count + 2 => .unlocked 3 :: lockedWrote :: .locked 3 :: messagesEvents (count + 1)

def messagesWorld (count : ℕ) : World := ⟨lockedHost, ⟨.zero, .zero⟩, messagesEvents count⟩

theorem writeNode_messages {count : ℕ} (few : count ≤ writeTimes) :
    some (writeNode irilogPath "a".toList lockedInfo 3 lockedRecord (sampleAnswers lockedInit)
        (messagesNode count) (messagesWorld count)).1 = messagesNode (count + 1) ∧
      (writeNode irilogPath "a".toList lockedInfo 3 lockedRecord (sampleAnswers lockedInit)
        (messagesNode count) (messagesWorld count)).2 = messagesWorld (count + 1) := by
  cases count with
  | zero => exact ⟨rfl, rfl⟩
  | succ count =>
      let node : LogFileNode :=
        ⟨"a".toList, dateText .zero, 3, count + 1, 10 * (count + 1), 3, lockedPath⟩
      let locked := (messagesWorld (count + 1)).add (.locked 3)
      have stays : rotate irilogPath lockedInfo (sampleAnswers lockedInit) node locked =
          (node, locked) := by
        rw [rotate, if_neg]
        intro due
        exact absurd due.1 (Nat.not_lt.mpr few)
      have appended : writeNode irilogPath "a".toList lockedInfo 3 lockedRecord
          (sampleAnswers lockedInit) (messagesNode (count + 1)) (messagesWorld (count + 1)) =
          appendRecord irilogPath lockedInfo lockedRecord (sampleAnswers lockedInit) node
            (messagesWorld (count + 1)) := by
        rfl
      have unlocked : processLock lockedInfo (.locked node.fd) (messagesWorld (count + 1)) =
          locked := by
        rfl
      rw [appended, appendRecord, unlocked]
      simp only
      rw [stays]
      have size : (10 * (count + 1) + 10) % 2 ^ 64 = 10 * (count + 1 + 1) := by
        rw [writeTimes] at few
        omega
      constructor
      · rw [messagesNode, ← size]
        rfl
      · rfl

/-- The log `a` after a number of messages. -/
structure MessagesIn (infos : LogConfInfos) (count : ℕ) (state : LogState) : Prop where
  directory : state.globalLogPath = irilogPath
  world : state.world = messagesWorld count
  node : ∃ store, Usable state infos store ∧ store.find "a".toList = messagesNode count

section Repeated

variable {infos : LogConfInfos} {count : ℕ} {state : LogState} {answers : WriteAnswers}
  (chosen : Chosen infos (.live infos.names) (some "a".toList) 3 lockedInfo "a".toList)

theorem MessagesIn.due (counted : MessagesIn infos (count + 1) state) {store : NodeStore}
    (found : store.find "a".toList = messagesNode (count + 1)) :
    RecordDue lockedInfo "a".toList store state ⟨sampleRequest, answers⟩ := by
  refine ⟨rfl, ⟨.info, rfl, rfl⟩, ?_, ?_⟩
  · rw [counted.directory]
    decide
  · rw [found]
    exact Nat.cast_pos.mpr (Nat.succ_pos 2)

include chosen

theorem MessagesIn.step (counted : MessagesIn infos count state) {store : NodeStore}
    (usable : Usable state infos store) :
    ∃ ret next, writeStep state ⟨sampleRequest, answers⟩ = .ok (ret, { state with
        logFileNodes := .live next
        world := (writeNode irilogPath "a".toList lockedInfo 3
          (recordOf lockedInfo .info sampleRequest answers.reading state.world)
          answers (store.find "a".toList)
          (announce lockedInfo .info sampleRequest answers.reading state.world)).2 }) ∧
      store.Updates "a".toList (writeNode irilogPath "a".toList lockedInfo 3
        (recordOf lockedInfo .info sampleRequest answers.reading state.world)
        answers (store.find "a".toList)
        (announce lockedInfo .info sampleRequest answers.reading state.world)).1 next := by
  have fits : ¬256 ≤ state.globalLogPath.length + "a".toList.length := by
    rw [counted.directory]
    decide
  rw [← counted.directory]
  exact @writeStep_file state infos store ⟨sampleRequest, answers⟩ 3 lockedInfo "a".toList .info
    usable chosen rfl rfl rfl rfl fits

theorem MessagesIn.write (few : count ≤ writeTimes) (counted : MessagesIn infos count state) :
    ∃ ret next, writeStep state lockedWrite = .ok (ret, next) ∧
      MessagesIn infos (count + 1) next := by
  rcases counted.node with ⟨store, usable, found⟩
  rcases counted.step chosen usable with ⟨ret, next, written, updates⟩
  have same := writeNode_messages few
  rw [found, counted.world] at written updates
  refine ⟨ret, _, written, counted.directory, same.2, next, ?_, ?_⟩
  · exact usable.withNodes updates.wellFormed _
  · rw [updates.found]
    exact same.1

theorem MessagesIn.runs (allowed : LogState → Write → Prop)
    (holds : ∀ {count state}, count ≤ writeTimes → MessagesIn infos count state →
      allowed state lockedWrite) (left : ℕ) : ∀ {count : ℕ} {state : LogState},
    count + left = writeTimes + 1 → MessagesIn infos count state →
    ∃ replies last, run writeStep state (List.replicate left lockedWrite) = .ok (replies, last) ∧
      MessagesIn infos (writeTimes + 1) last ∧
      Run.Along writeStep allowed state (List.replicate left lockedWrite) := by
  induction left with
  | zero =>
      intro count state all counted
      rw [Nat.add_zero] at all
      rw [← all]
      exact ⟨[], state, rfl, counted, trivial⟩
  | succ left induction =>
      intro count state all counted
      have few : count ≤ writeTimes := by omega
      rcases counted.write chosen few with ⟨ret, next, written, more⟩
      rcases induction (by omega) more with ⟨replies, last, ran, full, along⟩
      exact ⟨ret :: replies, last, Run.run_cons_ok next written ran, full,
        (Run.along_cons_ok written).mpr ⟨holds few counted, along⟩⟩

end Repeated

theorem messagesIn_of_init {start : LogState}
    (inited : iridiumInitLog none lockedInit (.start lockedHost) = .ok (0, start))
    {infos : LogConfInfos} (live : start.infos = .live infos)
    (directory : start.globalLogPath = irilogPath) : MessagesIn infos 0 start := by
  rcases usable_of_init inited with ⟨_, usable, world⟩
  rw [usable.live] at live
  cases live
  exact ⟨directory, world, .empty, usable, rfl⟩

end Lctools.Log
