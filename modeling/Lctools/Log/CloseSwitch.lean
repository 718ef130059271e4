import Lctools.Log.OneLog

/-! # The switch that should close the log

A line `@LOG_SWITCH=0` is documented to close logging. The parser stores the 0 and
returns an error code, and `get_log_conf_infos` copies the switch only when there
was no error.
-/

namespace Lctools.Log

open Conf CString

/-! ## What closing means -/

/-- The control record of the table says that the log is off. -/
def SwitchedOff (previous : Char) (order : SectionTable → SectionTable) (file : ConfFile) :
    Prop :=
  ∃ infos ctl, getLogConfInfos previous order file = .ok infos ∧
    infos.sinfo[infosIdCtl]? = some (some ctl) ∧ ctl.logSwitch = 0

/-- The initialisation succeeds and closes the log. -/
def InitCloses (host : Host) (logpath : Option (List Char)) (answers : InitAnswers) : Prop :=
  ∃ closed, iridiumInitLog logpath answers (.start host) = .ok (0, closed) ∧
    closed.closeLogFlag = 1

/-- Every write returns 0 and appends nothing to any file or to the terminal. -/
def Silent (state : LogState) : Prop :=
  ∀ request answers, ∃ next, transparentIridiumWriteLog request answers state = .ok (0, next) ∧
    next.world.events = state.world.events

structure LoggingClosed (file : ConfFile) : Prop where
  switchedOff : ∀ previous order, SwitchedOff previous order file
  initCloses : ∀ host logpath path answers, initPath logpath = .ok path →
    answers.directory = true → answers.file = file → InitCloses host logpath answers
  silent : ∀ host logpath answers state, answers.directory = true → answers.file = file →
    iridiumInitLog logpath answers (.start host) = .ok (0, state) → Silent state

/-! ## The switch is lost on the way -/

theorem not_switchedOff (previous : Char) (order : SectionTable → SectionTable)
    (file : ConfFile) : ¬SwitchedOff previous order file := by
  intro off
  rcases off with ⟨infos, ctl, computed, cell, zero⟩
  rcases (getLogConfInfos_loaded computed).ctl with ⟨other, found, on⟩
  rw [found] at cell
  cases cell
  exact on zero

theorem not_initCloses (host : Host) (logpath : Option (List Char)) (answers : InitAnswers) :
    ¬InitCloses host logpath answers := by
  intro closes
  rcases closes with ⟨closed, computed, flag⟩
  have lands := iridiumInitLog_inPhase (inPhase_start host) computed
  rw [lands.opened] at flag
  cases flag

theorem getLogConfInfos_off {file : ConfFile} (fits : file.fitsFlat dialect = true)
    (off : file.turnsOff dialect = true) (previous : Char)
    (order : SectionTable → SectionTable) :
    getLogConfInfos previous order file = .ok (copyIsValid logConfInfosInit) := by
  have fresh : LogManager.cleared.initFlag ≠ iriConfFinishInit := by decide
  cases file with
  | missing => cases off
  | noMemory => cases off
  | readable content =>
      have bounds := (parseFileUsing_flat_inBounds previous dialect content noSections).mpr fits
      rcases parsed : parseFileUsing dialect (getStringFlat previous) content noSections with
        fault | ⟨exit, sections⟩
      · rw [parsed] at bounds
        exact absurd bounds (not_inBounds_error fault)
      · have closes : exit = .closeAll := (parseFileUsing_closeAll_iff parsed).mpr off
        subst closes
        have read : logGetConfInfoFromFile previous (.readable content) .cleared =
            .ok (confCloseAll, filled sections) := by
          rw [logGetConfInfoFromFile, if_neg fresh]
          simp only [parsed]
        rw [getLogConfInfos, read]
        rfl

theorem initPath_length {logpath : Option (List Char)} {path : List Char}
    (computed : initPath logpath = .ok path) : path.length ≤ 254 := by
  rcases logpath with _ | _ | ⟨first, rest⟩
  · cases computed
    decide
  · cases computed
  · rw [initPath] at computed
    split_ifs at computed
    · cases computed
      exact List.length_take_le _ _
    · cases computed
      exact List.length_take_le _ _

/-! ## Messages are written all the same -/

/-- The settings of every log name that has no section. -/
def defaultInfo : SingleLogConfInfo :=
  { setDefaultSingleLogConfInfo .zero with name := defaultLogFileName }

theorem wrote_mem_appendRecord (globalLogPath : List Char) (info : SingleLogConfInfo)
    (record : List Char) (answers : WriteAnswers) (node : LogFileNode) (world : World) :
    ∃ log path written, Event.wrote log path record written ∈
      (appendRecord globalLogPath info record answers node world).2.events := by
  rw [appendRecord]
  generalize rotate globalLogPath info answers node _ = rotated
  rcases rotated with ⟨node, world⟩
  have wrote : ∃ log path written, Event.wrote log path record written ∈
      (writeRecord record answers node world).2.events := by
    refine ⟨node.name, node.path, if 0 < node.fd then answers.write record.length else -1, ?_⟩
    simp only [writeRecord]
    split_ifs
    all_goals exact List.mem_cons_self ..
  rcases wrote with ⟨log, path, written, member⟩
  refine ⟨log, path, written, ?_⟩
  simp only [processLock]
  split_ifs
  · exact List.mem_cons_of_mem _ member
  · exact member

theorem wrote_mem_writeNode_new (globalLogPath logFile : List Char) (info : SingleLogConfInfo)
    (id : ℕ) (record : List Char) (answers : WriteAnswers) (world : World)
    (opens : 0 < answers.opening.fd) :
    ∃ log path written, Event.wrote log path record written ∈
      (writeNode globalLogPath logFile info id record answers none world).2.events := by
  have fd : (newLogFileNode globalLogPath answers.opening info id (some logFile) world).1.fd =
      answers.opening.fd := by
    simp [newLogFileNode, createLogFileFd, opens]
  rw [writeNode, acquireNode]
  simp only [fd, if_neg (Int.not_le.mpr opens)]
  exact wrote_mem_appendRecord ..

theorem not_silent {state : LogState} {infos : LogConfInfos}
    (usable : Usable state infos .empty) (defaults : infos = copyIsValid logConfInfosInit)
    (path : state.globalLogPath.length ≤ 254) (untouched : state.world.events = [])
    (init : InitAnswers) : ¬Silent state := by
  intro silent
  subst defaults
  rcases silent sampleRequest (sampleAnswers init) with ⟨next, written, same⟩
  have chosen : Chosen (copyIsValid logConfInfosInit)
      (.live (copyIsValid logConfInfosInit).names) sampleRequest.logFile infosIdDefault
      defaultInfo "a".toList :=
    ⟨rfl, rfl, rfl⟩
  have unmuted : debugClosed sampleRequest (sampleAnswers init).now state = false := by
    simp [debugClosed, sampleRequest, irilogDebug]
  have fits : ¬256 ≤ state.globalLogPath.length + "a".toList.length := by
    simp only [show "a".toList.length = 1 from rfl]
    omega
  rcases @writeStep_file state _ .empty ⟨sampleRequest, sampleAnswers init⟩ _ _ _ .info usable
    chosen rfl rfl rfl unmuted fits with ⟨ret, store, computed, _⟩
  rw [writeStep, written] at computed
  cases computed
  rw [untouched] at same
  rcases wrote_mem_writeNode_new state.globalLogPath "a".toList defaultInfo infosIdDefault _
    (sampleAnswers init)
    (announce defaultInfo .info sampleRequest (sampleAnswers init).reading state.world)
    (show (0 : ℤ) < 3 by decide) with ⟨log, path, written, member⟩
  rw [show NodeStore.empty.find "a".toList = none from rfl] at same
  rw [same] at member
  cases member

/-- Whatever a configuration file says, nothing closes the log: the control record
never has the switch off, no initialisation closes the log, and after a switch line
that says 0 messages are written with the default settings. -/
theorem switch_closes_nothing (file : ConfFile) :
    ¬LoggingClosed file ∧ (∀ previous order, ¬SwitchedOff previous order file) ∧
      (∀ host logpath answers, answers.file = file → ¬InitCloses host logpath answers) ∧
      (file.fitsFlat dialect = true → file.turnsOff dialect = true →
        ∀ host logpath answers state, answers.directory = true → answers.file = file →
          iridiumInitLog logpath answers (.start host) = .ok (0, state) → ¬Silent state) := by
  refine ⟨fun closed => not_switchedOff nul id file (closed.switchedOff nul id),
    fun previous order => not_switchedOff previous order file,
    fun host logpath answers _ => not_initCloses host logpath answers, ?_⟩
  intro fits off host logpath answers state directory same computed
  rcases @iridiumInitLog_cases (.start host) rfl logpath answers with ⟨fault, failed, _⟩ |
    ⟨path, missing, _⟩ | ⟨path, infos, deadTime, _, _, located, loading, done⟩
  · rw [failed] at computed
    cases computed
  · rw [missing] at directory
    cases directory
  · rcases usable_of_init computed with ⟨loaded, usable, world⟩
    rw [done] at computed
    cases computed
    cases usable.live
    rw [same, getLogConfInfos_off fits off] at loading
    cases loading
    exact not_silent usable rfl (initPath_length located) rfl answers

/-- The smallest file with such a line, in the words of its documentation. -/
theorem switch_line_not_loggingClosed :
    ConfFile.turnsOff dialect (.readable "@LOG_SWITCH=0\n".toList) = true ∧
      ¬LoggingClosed (.readable "@LOG_SWITCH=0\n".toList) := by
  refine ⟨rfl, ?_⟩
  intro closed
  exact not_switchedOff nul id _ (closed.switchedOff nul id)

end Lctools.Log
