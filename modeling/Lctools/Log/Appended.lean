import Lctools.Log.OneLog

/-! # What one call appends

The records that a call of `transparent_iridium_write_log` hands to `write`: at most
one, and whether there is one can be told before the call.
-/

namespace Lctools.Log

open CString

/-- What was handed to `write`, with the name of the log, the newest first. -/
def wrotes (world : World) : List (List Char × List Char) :=
  world.events.filterMap fun event =>
    match event with
    | .wrote log _ record _ => some (log, record)
    | _ => none

/-- What one call hands to `write`. -/
def appended (state : LogState) (write : Write) : List (List Char × List Char) :=
  match writeStep state write with
  | .error _ => []
  | .ok (_, next) =>
      (wrotes next.world).take ((wrotes next.world).length - (wrotes state.world).length)

/-! ## Each part of a call -/

/-- The descriptor of a node that `get_log_file_node` hands out. -/
def acquiredFd (opening : Opening) : Option LogFileNode → ℤ
  | none => if 0 < opening.fd then opening.fd else -1
  | some node => if node.fd < 0 then if 0 < opening.fd then opening.fd else -1 else node.fd

def acquiredName (logFile : List Char) : Option LogFileNode → List Char
  | none => snprintf fileNameLen logFile
  | some node => node.name

theorem wrotes_add_other (world : World) {event : Event}
    (other : ∀ log path record written, event ≠ .wrote log path record written) :
    wrotes (world.add event) = wrotes world := by
  cases event with
  | wrote log path record written => exact absurd rfl (other log path record written)
  | opened log path fd => rfl
  | closed fd => rfl
  | locked fd => rfl
  | unlocked fd => rfl
  | fstat log succeeded => rfl
  | printed record => rfl

theorem createLogFileFd_wrotes (globalLogPath : List Char) (opening : Opening)
    (node : LogFileNode) (world : World) :
    wrotes (createLogFileFd globalLogPath opening node world).2 = wrotes world := by
  have closed : wrotes (if 0 < node.fd then world.add (.closed node.fd) else world) =
      wrotes world := by
    split
    · rfl
    · rfl
  rw [createLogFileFd, wrotes_add_other _ (by simp)]
  exact closed

theorem acquireNode_wrotes (globalLogPath : List Char) (opening : Opening) (logFile : List Char)
    (info : SingleLogConfInfo) (id : ℕ) (found : Option LogFileNode) (world : World) :
    (acquireNode globalLogPath opening logFile info id found world).1.fd =
        acquiredFd opening found ∧
      (acquireNode globalLogPath opening logFile info id found world).1.name =
        acquiredName logFile found ∧
      wrotes (acquireNode globalLogPath opening logFile info id found world).2 = wrotes world := by
  cases found with
  | none =>
      rw [acquireNode, newLogFileNode, createLogFileFd_fd, createLogFileFd_name,
        createLogFileFd_wrotes]
      exact ⟨rfl, rfl, rfl⟩
  | some node =>
      rw [acquireNode, acquiredFd]
      split
      · rw [createLogFileFd_fd, createLogFileFd_name, createLogFileFd_wrotes]
        exact ⟨rfl, rfl, rfl⟩
      · exact ⟨rfl, rfl, rfl⟩

theorem processLock_wrotes (info : SingleLogConfInfo) (world : World) {event : Event}
    (other : ∀ log path record written, event ≠ .wrote log path record written) :
    wrotes (processLock info event world) = wrotes world := by
  rw [processLock]
  split
  · exact wrotes_add_other world other
  · rfl

theorem rotate_wrotes (globalLogPath : List Char) (info : SingleLogConfInfo)
    (answers : WriteAnswers) (node : LogFileNode) (world : World) :
    (rotate globalLogPath info answers node world).1.name = node.name ∧
      wrotes (rotate globalLogPath info answers node world).2 = wrotes world := by
  rw [rotate]
  split
  · simp only
    split
    · rw [createLogFileFd_name, createLogFileFd_wrotes]
      exact ⟨rfl, wrotes_add_other world (by simp)⟩
    · exact ⟨rfl, wrotes_add_other world (by simp)⟩
  · exact ⟨rfl, rfl⟩

theorem writeRecord_wrotes (record : List Char) (answers : WriteAnswers) (node : LogFileNode)
    (world : World) :
    wrotes (writeRecord record answers node world).2 = (node.name, record) :: wrotes world := by
  rw [writeRecord]
  generalize (if 0 < node.fd then answers.write record.length else -1) = written
  split
  · rfl
  · rfl

theorem appendRecord_wrotes (globalLogPath : List Char) (info : SingleLogConfInfo)
    (record : List Char) (answers : WriteAnswers) (node : LogFileNode) (world : World) :
    wrotes (appendRecord globalLogPath info record answers node world).2 =
      (node.name, record) :: wrotes world := by
  rw [appendRecord]
  rcases rotate_wrotes globalLogPath info answers node
    (processLock info (.locked node.fd) world) with ⟨name, kept⟩
  rw [processLock_wrotes info _ (by simp), writeRecord_wrotes, name, kept,
    processLock_wrotes info _ (by simp)]

theorem announce_wrotes (info : SingleLogConfInfo) (level : Loglevl) (request : Request)
    (reading : Reading) (world : World) :
    wrotes (announce info level request reading world) = wrotes world := by
  rw [wrotes, wrotes]
  rcases announce_events world info level request reading with same | ⟨record, printed⟩
  · rw [same]
  · rw [printed]
    rfl

theorem writeNode_wrotes (globalLogPath logFile : List Char) (info : SingleLogConfInfo) (id : ℕ)
    (record : List Char) (answers : WriteAnswers) (found : Option LogFileNode) (world : World) :
    wrotes (writeNode globalLogPath logFile info id record answers found world).2 =
      (if 0 < acquiredFd answers.opening found then [(acquiredName logFile found, record)]
        else []) ++ wrotes world := by
  rcases acquireNode_wrotes globalLogPath answers.opening logFile info id found world with
    ⟨fd, name, kept⟩
  rw [writeNode]
  simp only
  rw [fd]
  cases Int.lt_or_le 0 (acquiredFd answers.opening found) with
  | inl opened =>
      rw [if_neg (Int.not_le.mpr opened), if_pos opened, appendRecord_wrotes, name, kept]
      rfl
  | inr closed =>
      rw [if_pos closed, if_neg (Int.not_lt.mpr closed), kept]
      rfl

/-! ## Whole calls -/

/-- The message is let through, and its node has or gets an open file. -/
structure RecordDue (info : SingleLogConfInfo) (logFile : List Char) (store : NodeStore)
    (state : LogState) (write : Write) : Prop where
  unmuted : debugClosed write.request write.answers.now state = false
  admitted : ∃ level, Loglevl.ofInt write.request.level = some level ∧
    info.irilogSwitch.admits level = true
  fits : state.globalLogPath.length + logFile.length < 256
  opened : 0 < acquiredFd write.answers.opening (store.find logFile)

section Appended

variable {state : LogState} {infos : LogConfInfos} {store : NodeStore} {write : Write} {id : ℕ}
  {info : SingleLogConfInfo} {logFile : List Char}

theorem appended_of_ok {ret : ℤ} {next : LogState} {new : List (List Char × List Char)}
    (written : writeStep state write = .ok (ret, next))
    (grown : wrotes next.world = new ++ wrotes state.world) : appended state write = new := by
  rw [appended, written]
  simp only
  rw [grown, List.length_append, Nat.add_sub_cancel, List.take_left]

theorem appended_due (usable : Usable state infos store)
    (chosen : Chosen infos (.live infos.names) write.request.logFile id info logFile)
    (toFile : info.irilogSwitch.logFile = true) (due : RecordDue info logFile store state write) :
    ∃ level, appended state write = [(acquiredName logFile (store.find logFile),
      recordOf info level write.request write.answers.reading state.world)] ∧
      Loglevl.ofInt write.request.level = some level := by
  rcases due.admitted with ⟨level, levelOf, admitted⟩
  rcases writeStep_file usable chosen levelOf admitted toFile due.unmuted
    (Nat.not_le_of_lt due.fits) with ⟨ret, next, written, _⟩
  refine ⟨level, appended_of_ok written ?_, levelOf⟩
  rw [writeNode_wrotes, if_pos due.opened, announce_wrotes]

theorem appended_not_due (usable : Usable state infos store)
    (chosen : Chosen infos (.live infos.names) write.request.logFile id info logFile)
    (toFile : info.irilogSwitch.logFile = true)
    (notDue : ¬ RecordDue info logFile store state write) : appended state write = [] := by
  have step := writeStep_chosen usable chosen
  rw [toFile, Bool.true_or, Bool.not_true, if_neg Bool.false_ne_true] at step
  cases muted : debugClosed write.request write.answers.now state with
  | true =>
      rw [muted, if_pos rfl] at step
      exact appended_of_ok step rfl
  | false =>
      rw [muted, if_neg Bool.false_ne_true] at step
      cases levelOf : Loglevl.ofInt write.request.level with
      | none =>
          rw [levelOf] at step
          exact appended_of_ok step rfl
      | some level =>
          rw [levelOf] at step
          simp only at step
          split at step
          · next admitted =>
              rw [writeOutputs_eq, if_pos toFile] at step
              cases Nat.lt_or_ge (state.globalLogPath.length + logFile.length) 256 with
              | inr long =>
                  rw [@writeFile_outOfBounds store { state with
                    world := announce info level write.request write.answers.reading state.world }
                    usable.nodes write.answers logFile long info id _] at step
                  rw [appended, step]
              | inl fits =>
                  rcases writeStep_file usable chosen levelOf admitted toFile muted
                    (Nat.not_le_of_lt fits) with ⟨ret, next, written, _⟩
                  have closed : ¬ 0 < acquiredFd write.answers.opening (store.find logFile) :=
                    fun opened => notDue ⟨muted, ⟨level, levelOf, admitted⟩, fits, opened⟩
                  apply appended_of_ok written
                  rw [writeNode_wrotes, if_neg closed, announce_wrotes]
          · exact appended_of_ok step rfl

theorem appended_terminal (usable : Usable state infos store)
    (chosen : Chosen infos (.live infos.names) write.request.logFile id info logFile)
    (off : info.irilogSwitch.logFile = false) : appended state write = [] := by
  have step := writeStep_chosen usable chosen
  split at step
  · exact appended_of_ok step rfl
  · split at step
    · exact appended_of_ok step rfl
    · split at step
      · exact appended_of_ok step rfl
      · split at step
        · rw [writeOutputs_eq, off, if_neg Bool.false_ne_true] at step
          exact appended_of_ok step (announce_wrotes ..)
        · exact appended_of_ok step rfl

theorem due_of_appended (usable : Usable state infos store)
    (chosen : Chosen infos (.live infos.names) write.request.logFile id info logFile)
    (appends : appended state write ≠ []) :
    info.irilogSwitch.logFile = true ∧ RecordDue info logFile store state write := by
  have toFile : info.irilogSwitch.logFile = true := by
    cases switch : info.irilogSwitch.logFile with
    | true => rfl
    | false => exact absurd (appended_terminal usable chosen switch) appends
  refine ⟨toFile, ?_⟩
  by_contra notDue
  exact appends (appended_not_due usable chosen toFile notDue)

end Appended

end Lctools.Log
