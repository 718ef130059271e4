import Lctools.Foundation.Fallible
import Lctools.Log.Lifecycle

/-! # The null name and the default name

A write without a log name goes to the file `iridium_default`, and so does a write
with this name. Which settings they use is decided in two places: the null name has a
record of its own, and the default name is looked up.
-/

namespace Lctools.Log

open Conf CString Numerals

/-! ## The property -/

def Request.withName (request : Request) (logFile : Option (List Char)) : Request :=
  { request with logFile := logFile }

/-- The record that the tables have for the log name. -/
def selectedInfoId (request : Request) (state : LogState) : Except LogFault (Option ℕ) := do
  let infos ← followGlobal .infos state.infos
  let id ← (selectInfoId infos state.confLogFileNames request.logFile).mapError .pointer
  .ok (some id)

/-- The record that a write chooses, `none` when it returns before it chooses one. -/
def chosenInfoId (request : Request) (answers : WriteAnswers) (state : LogState) :
    Except LogFault (Option ℕ) := do
  let (ret, state) ← openIridiumlog answers.init state
  if ret < 0 then .ok none
  else if state.closeLogFlag = 1 then .ok none
  else if debugClosed request answers.now state then .ok none
  else selectedInfoId request state

/-- A message without a log name is treated as one with the default name: it chooses the
same record, returns the same value, and leaves the same nodes and events. If it loads the
configuration, it does so inside of the arrays. -/
structure NullIsDefault (request : Request) (answers : WriteAnswers) (state : LogState) :
    Prop where
  chosen : chosenInfoId (request.withName none) answers state =
    chosenInfoId (request.withName (some defaultLogFileName)) answers state
  written : transparentIridiumWriteLog (request.withName none) answers state =
    transparentIridiumWriteLog (request.withName (some defaultLogFileName)) answers state
  bounded : ∀ fault, chosenInfoId (request.withName none) answers state ≠
    .error (.stop (.access fault))

/-- The names of the sections that `get_log_conf_infos` goes through; none are read from
a file with an error. -/
def sectionNames (init : InitAnswers) : List (List Char) :=
  match logGetConfInfoFromFile init.previous init.file .cleared with
  | .ok (0, ⟨.live table, _, _, _⟩) =>
      (tableEntries (init.order table)).map fun entry => entry.1.take (fileNameLen - 1)
  | _ => []

/-- A valid `TOTAL_SWITCH` decides for all names. -/
def totalInForce (infos : LogConfInfos) : Bool :=
  match infos.sinfo.getD infosIdCtl none with
  | some ctl => ctl.isValid ≠ 0
  | none => false

/-- The configuration, if it is loaded, fits its parser and has a valid `TOTAL_SWITCH` or
no section for the default log. -/
def DefaultUnnamed (init : InitAnswers) : Prop :=
  init.directory = true → init.file.fitsFlat dialect = true ∧
    ∀ infos, getLogConfInfos init.previous init.order init.file = .ok infos →
      totalInForce infos = true ∨ defaultLogFileName ∉ sectionNames init

/-! ## What the sections do to the default name -/

/-- The record of the default log stays; its name leads to a section of this name. -/
structure DefaultEntry (seen : List (List Char)) (infos : LogConfInfos) : Prop
    extends Built infos where
  record : ∃ info, infos.sinfo[infosIdDefault]? = some (some info) ∧
    info.name = defaultLogFileName
  unnamed : defaultLogFileName ∉ seen →
    HashTable.lookup (fun key => key) defaultLogFileName infos.names = some infosIdDefault
  named : defaultLogFileName ∈ seen → ∃ id, infosIdStart ≤ id ∧
    HashTable.lookup (fun key => key) defaultLogFileName infos.names = some id

section Fill

variable {seen : List (List Char)} {infos next : LogConfInfos}

theorem DefaultEntry.ordinary (entry : DefaultEntry seen infos) (info : SingleLogConfInfo) :
    DefaultEntry (seen ++ [info.name]) (insertName info.name (lciAddInfo infos info infosIdStart).1
      (lciAddInfo infos info infosIdStart).2) := by
  rcases lciAddInfo_start entry.toBuilt info with ⟨id, len, cells, names⟩
  have looked : HashTable.lookup (fun key => key) defaultLogFileName
      (insertName info.name (lciAddInfo infos info infosIdStart).1
        (lciAddInfo infos info infosIdStart).2).names =
      if info.name = defaultLogFileName then some infos.len
      else HashTable.lookup (fun key => key) defaultLogFileName infos.names := by
    rw [insertName, HashTable.lookup_insert, id, names]
  refine ⟨⟨?_, ?_⟩, ?_, ?_, ?_⟩
  · rw [insertName, cells, len, List.length_append, entry.length]
    rfl
  · rw [insertName, len]
    exact Nat.le_succ_of_le entry.special
  · rcases entry.record with ⟨default, cell, name⟩
    refine ⟨default, ?_, name⟩
    rw [insertName, cells, List.getElem?_append_left (List.getElem?_eq_some_iff.mp cell).1, cell]
  · intro absent
    rw [List.mem_append, List.mem_singleton, not_or] at absent
    rw [looked, if_neg (Ne.symm absent.2), entry.unnamed absent.1]
  · intro present
    rw [looked]
    by_cases same : info.name = defaultLogFileName
    · rw [if_pos same]
      exact ⟨infos.len, entry.special, rfl⟩
    · rw [if_neg same]
      rw [List.mem_append, List.mem_singleton] at present
      cases present with
      | inl old => exact entry.named old
      | inr new => exact absurd new.symm same

theorem DefaultEntry.total (entry : DefaultEntry seen infos) {info : SingleLogConfInfo}
    (total : info.name = totalSwitchModeName) :
    DefaultEntry (seen ++ [info.name])
      (insertName info.name (lciAddInfo infos info infosIdTotalSwitch).1
        (lciAddInfo infos info infosIdTotalSwitch).2) := by
  rcases lciAddInfo_special entry.toBuilt info
    (show infosIdTotalSwitch < infosIdStart by decide) with ⟨id, len, cells, names⟩
  have other : info.name ≠ defaultLogFileName := by
    rw [total]
    decide
  have looked : HashTable.lookup (fun key => key) defaultLogFileName
      (insertName info.name (lciAddInfo infos info infosIdTotalSwitch).1
        (lciAddInfo infos info infosIdTotalSwitch).2).names =
      HashTable.lookup (fun key => key) defaultLogFileName infos.names := by
    rw [insertName, HashTable.lookup_insert, if_neg other, names]
  have same : defaultLogFileName ∈ seen ++ [info.name] ↔ defaultLogFileName ∈ seen := by
    rw [List.mem_append, List.mem_singleton]
    constructor
    · rintro (old | new)
      · exact old
      · exact absurd new.symm other
    · exact .inl
  refine ⟨⟨?_, ?_⟩, ?_, ?_, ?_⟩
  · rw [insertName, cells, len, List.length_set, entry.length]
  · rw [insertName, len]
    exact entry.special
  · rcases entry.record with ⟨default, cell, name⟩
    refine ⟨default, ?_, name⟩
    rw [insertName, cells, List.getElem?_set_ne (by decide), cell]
  · rw [looked, same]
    exact entry.unnamed
  · rw [looked, same]
    exact entry.named

theorem fillLogConfInfos_defaultEntry {section' : List Char × ConfPairs}
    (entry : DefaultEntry seen infos) (computed : fillLogConfInfos infos section' = .ok next) :
    DefaultEntry (seen ++ [section'.1.take (fileNameLen - 1)]) next := by
  rcases section' with ⟨key, confPairs⟩
  have label : (getInfoFromConfPairs confPairs
      { SingleLogConfInfo.zero with name := key.take (fileNameLen - 1) }).name =
      key.take (fileNameLen - 1) := by
    rw [getInfoFromConfPairs_name]
  simp only [fillLogConfInfos] at computed
  generalize getInfoFromConfPairs confPairs
    { SingleLogConfInfo.zero with name := key.take (fileNameLen - 1) } = info at computed label
  simp only
  rw [← label]
  split_ifs at computed with total
  · cases computed
    exact entry.ordinary info
  · rcases checked : totalSwitchInfo confPairs info with stop | complete
    · simp [checked, bind, Except.bind] at computed
    · rw [checked] at computed
      cases computed
      have name : complete.name = info.name := by
        rcases totalSwitchInfo_changes checked with ⟨isValid, timer, rfl⟩
        rfl
      rw [← name]
      apply entry.total
      rw [name]
      exact not_ne_iff.mp total

theorem foldlM_fillLogConfInfos_defaultEntry (order : List (List Char × ConfPairs))
    (entry : DefaultEntry seen infos) (folded : order.foldlM fillLogConfInfos infos = .ok next) :
    DefaultEntry (seen ++ order.map fun entry => entry.1.take (fileNameLen - 1)) next := by
  induction order generalizing seen infos with
  | nil =>
      cases folded
      rw [List.map_nil, List.append_nil]
      exact entry
  | cons head order induction =>
      rw [List.foldlM_cons] at folded
      rcases added : fillLogConfInfos infos head with stop | middle
      · simp [added, bind, Except.bind] at folded
      · rw [added] at folded
        rw [List.map_cons, List.append_cons]
        exact induction (fillLogConfInfos_defaultEntry entry added) folded

theorem DefaultEntry.copyIsValid (entry : DefaultEntry seen infos) :
    DefaultEntry seen (copyIsValid infos) := by
  have names : (Log.copyIsValid infos).names = infos.names := copyIsValid_names infos
  have cells : (Log.copyIsValid infos).len = infos.len ∧
      (Log.copyIsValid infos).sinfo.length = infos.sinfo.length ∧
      (Log.copyIsValid infos).sinfo[infosIdDefault]? = infos.sinfo[infosIdDefault]? := by
    unfold Log.copyIsValid
    split
    · exact ⟨rfl, rfl, rfl⟩
    · refine ⟨rfl, List.length_modify .., ?_⟩
      simp [modifyInfo, infosIdCtl, infosIdDefault]
  refine ⟨⟨?_, ?_⟩, ?_, ?_, ?_⟩
  · rw [cells.1, cells.2.1, entry.length]
  · rw [cells.1]
    exact entry.special
  · rw [cells.2.2]
    exact entry.record
  · rw [names]
    exact entry.unnamed
  · rw [names]
    exact entry.named

end Fill

theorem defaultEntry_start (logSwitch : ℤ) :
    DefaultEntry [] (modifyInfo logConfInfosInit infosIdCtl fun info =>
      { info with logSwitch := logSwitch }) where
  length := rfl
  special := le_of_eq rfl
  record := ⟨_, rfl, rfl⟩
  unnamed := by
    intro _
    rfl
  named := by
    intro member
    cases member

theorem getLogConfInfos_defaultEntry {init : InitAnswers} {infos : LogConfInfos}
    (computed : getLogConfInfos init.previous init.order init.file = .ok infos) :
    DefaultEntry (sectionNames init) infos := by
  have defaults : DefaultEntry [] logConfInfosInit := defaultEntry_start 1
  unfold getLogConfInfos at computed
  rcases read : logGetConfInfoFromFile init.previous init.file .cleared with
    stop | ⟨ret, manager⟩
  · simp [read, bind, Except.bind] at computed
  · rcases logGetConfInfoFromFile_table read with ⟨table, live, _⟩
    rcases manager with ⟨iriConf, modeCount, initFlag, logSwitch⟩
    simp only at live
    subst live
    simp only [read, bind, Except.bind] at computed
    split at computed
    · rename_i same
      cases same
      rcases filling : fillFromSections logSwitch (tableEntries (init.order table)) with
        stop | filled
      · simp [filling] at computed
      · simp only [filling, Except.ok.injEq] at computed
        rw [← computed, sectionNames, read]
        exact (foldlM_fillLogConfInfos_defaultEntry _ (defaultEntry_start logSwitch)
          filling).copyIsValid
    · rename_i other
      cases computed
      have none : sectionNames init = [] := by
        rw [sectionNames, read]
        split
        · next same =>
            cases same
            exact absurd rfl (other _ rfl)
        · rfl
      rw [none]
      exact defaults.copyIsValid

/-! ## Which record is chosen -/

section Selection

variable {infos : LogConfInfos} {names : List (List Char × ℕ)}

theorem selectInfoId_null {ctl : SingleLogConfInfo}
    (cell : infos.sinfo[infosIdCtl]? = some (some ctl)) :
    selectInfoId infos (.live names) none =
      .ok (if totalInForce infos then infosIdTotalSwitch else infosIdDefault) := by
  rw [selectInfoId, totalInForce, List.getD_eq_getElem?_getD, cell]
  simp only [Option.getD_some, derefCell, bind, Except.bind, decide_eq_true_eq]
  split
  · rfl
  · rfl

theorem selectInfoId_name {ctl : SingleLogConfInfo}
    (cell : infos.sinfo[infosIdCtl]? = some (some ctl)) (name : List Char) :
    selectInfoId infos (.live names) (some name) =
      .ok (if totalInForce infos then infosIdTotalSwitch
        else (HashTable.lookup (fun key => key) name names).getD infosIdDefault) := by
  rw [selectInfoId, totalInForce, List.getD_eq_getElem?_getD, cell]
  simp only [Option.getD_some, derefCell, bind, Except.bind, decide_eq_true_eq]
  split
  · rfl
  · rfl

theorem selectInfoId_same_iff {seen : List (List Char)} {ctl : SingleLogConfInfo}
    (cell : infos.sinfo[infosIdCtl]? = some (some ctl)) (entry : DefaultEntry seen infos) :
    selectInfoId infos (.live infos.names) none =
        selectInfoId infos (.live infos.names) (some defaultLogFileName) ↔
      totalInForce infos = true ∨ defaultLogFileName ∉ seen := by
  rw [selectInfoId_null cell, selectInfoId_name cell]
  cases totalInForce infos with
  | true => exact iff_of_true rfl (.inl rfl)
  | false =>
      simp only [Bool.false_eq_true, if_false, false_or]
      constructor
      · intro same present
        rcases entry.named present with ⟨id, later, found⟩
        rw [found] at same
        cases same
        exact absurd later (by decide)
      · intro absent
        rw [entry.unnamed absent]
        rfl

theorem realLogFile_same {seen : List (List Char)} (entry : DefaultEntry seen infos) :
    realLogFile infos none = realLogFile infos (some defaultLogFileName) := by
  rcases entry.record with ⟨default, cell, name⟩
  have short : defaultLogFileName.length < fileNameLen - 1 := by decide
  have followed : followCell (infos.sinfo.getD infosIdDefault none) = .ok default := by
    rw [List.getD_eq_getElem?_getD, cell]
    rfl
  rw [realLogFile, realLogFile, if_pos short, ← name, followed]
  rfl

theorem writeSelected_same {seen : List (List Char)} {state : LogState}
    (entry : DefaultEntry seen infos) (live : state.infos = .live infos)
    (named : state.confLogFileNames = .live infos.names)
    (same : selectInfoId infos (.live infos.names) none =
      selectInfoId infos (.live infos.names) (some defaultLogFileName))
    (request : Request) (answers : WriteAnswers) :
    writeSelected (request.withName none) answers state =
      writeSelected (request.withName (some defaultLogFileName)) answers state := by
  have followed : followGlobal .infos (.live infos) = .ok infos := rfl
  simp only [writeSelected, Request.withName, live, named]
  rw [Fallible.bind_ok followed, Fallible.bind_ok followed, same, realLogFile_same entry]
  rfl

end Selection

/-! ## Which configuration is in force -/

/-- The tables were made from this configuration, and are still there. -/
structure InForce (init : InitAnswers) (state : LogState) : Prop where
  ready : InPhase .ready state
  tables : ∃ infos, getLogConfInfos init.previous init.order init.file = .ok infos ∧
    state.infos = .live infos ∧ state.confLogFileNames = .live infos.names

section Force

variable {init : InitAnswers} {state next : LogState}

theorem InForce.write (force : InForce init state) {request : Request} {answers : WriteAnswers}
    {ret : ℤ} (written : transparentIridiumWriteLog request answers state = .ok (ret, next)) :
    InForce init next := by
  have lands := (step_outcome force.ready (.write request answers)).inPhase
    (Fallible.bind_ok written _)
  rcases force.tables with ⟨infos, computed, live, named⟩
  rcases force.ready.pointers with ⟨_, store, _, _, nodes, _, _, valid⟩
  refine ⟨lands, infos, computed, ?_⟩
  rw [transparentIridiumWriteLog_inited force.ready (by decide)] at written
  split_ifs at written
  · cases written
    exact ⟨live, named⟩
  · rcases writeSelected_effect live named nodes valid request answers with
      ⟨fault, failed⟩ | ⟨ret', next', succeeded, effect⟩
    · rw [failed] at written
      cases written
    · rw [succeeded] at written
      cases written
      cases effect with
      | nothing => exact ⟨live, named⟩
      | terminal info level => exact ⟨live, named⟩
      | file id info logFile level next chosen updates => exact ⟨live, named⟩

/-- The answers that a call would load the configuration with. -/
def Call.initAnswers : Call → Option InitAnswers
  | .init _ init => some init
  | .write _ answers => some answers.init
  | .destroy => none

theorem InForce.step (force : InForce init state) {call : Call} {reply : Option ℤ}
    (kept : call.initAnswers.isSome = true) (stepped : Log.step state call = .ok (reply, next)) :
    InForce init next := by
  cases call with
  | destroy => cases kept
  | init logpath answers =>
      rw [Log.step, iridiumInitLog_repeated (force.ready.inited (by decide))] at stepped
      cases stepped
      exact force
  | write request answers =>
      rw [Log.step] at stepped
      rcases Fallible.of_bind_ok stepped with ⟨⟨ret, after⟩, written, same⟩
      cases same
      exact force.write written

theorem iridiumInitLog_first (fresh : InPhase .fresh state) {logpath : Option (List Char)}
    {ret : ℤ} (done : iridiumInitLog logpath init state = .ok (ret, next)) :
    init.directory = true ∧ ret = 0 ∧ InForce init next ∨
      init.directory = false ∧ ret = -1 ∧ InPhase .failed next := by
  have lands := iridiumInitLog_inPhase fresh done
  rw [Phase.after] at lands
  rcases iridiumInitLog_cases fresh.initFlag logpath init with ⟨fault, failed, _⟩ |
    ⟨path, directory, _, failed⟩ | ⟨path, infos, deadTime, directory, _, _, loading, loads⟩
  · rw [failed] at done
    cases done
  · rw [directory] at lands
    rw [failed] at done
    cases done
    exact .inr ⟨directory, rfl, lands⟩
  · rw [directory] at lands
    rw [loads] at done
    cases done
    exact .inl ⟨directory, rfl, lands, infos, loading, rfl, rfl⟩

/-- The first call loads the configuration, unless the directory is missing. -/
theorem first_step {call : Call} {reply : Option ℤ} (fresh : InPhase .fresh state)
    (first : call.initAnswers = some init) (stepped : Log.step state call = .ok (reply, next)) :
    init.directory = true ∧ InForce init next ∨ init.directory = false ∧ InPhase .failed next := by
  cases call with
  | destroy => cases first
  | init logpath answers =>
      cases first
      rw [Log.step] at stepped
      rcases Fallible.of_bind_ok stepped with ⟨⟨ret, after⟩, done, same⟩
      cases same
      rcases iridiumInitLog_first fresh done with ⟨directory, _, force⟩ | ⟨directory, _, failed⟩
      · exact .inl ⟨directory, force⟩
      · exact .inr ⟨directory, failed⟩
  | write request answers =>
      cases first
      rw [Log.step] at stepped
      rcases Fallible.of_bind_ok stepped with ⟨⟨ret, after⟩, written, same⟩
      cases same
      rw [transparentIridiumWriteLog_first fresh.initFlag] at written
      rcases done : iridiumInitLog none answers.init state with fault | ⟨ret, opened⟩
      · rw [done] at written
        cases written
      · rw [done] at written
        rcases iridiumInitLog_first fresh done with ⟨directory, rfl, force⟩ |
          ⟨directory, rfl, failed⟩
        · exact .inl ⟨directory, force.write written⟩
        · cases written
          exact .inr ⟨directory, failed⟩

theorem failed_step {call : Call} {reply : Option ℤ} (failed : InPhase .failed state)
    (kept : call.initAnswers.isSome = true) (stepped : Log.step state call = .ok (reply, next)) :
    InPhase .failed next := by
  have lands := (step_outcome failed call).inPhase stepped
  cases call with
  | destroy => cases kept
  | init logpath answers => exact lands
  | write request answers => exact lands

/-- A library that is in use: its configuration is in force, or could not be loaded. -/
def Started (init : InitAnswers) (state : LogState) : Prop :=
  init.directory = true ∧ InForce init state ∨ init.directory = false ∧ InPhase .failed state

theorem Started.step {call : Call} {reply : Option ℤ} (started : Started init state)
    (kept : call.initAnswers.isSome = true) (stepped : Log.step state call = .ok (reply, next)) :
    Started init next := by
  cases started with
  | inl force => exact .inl ⟨force.1, force.2.step kept stepped⟩
  | inr failed => exact .inr ⟨failed.1, failed_step failed.2 kept stepped⟩

end Force

/-! ## The two names in every state -/

section Names

variable {init : InitAnswers} {state : LogState}

theorem chosenInfoId_inited {phase : Phase} (inPhase : InPhase phase state)
    (later : phase ≠ .fresh) (request : Request) (answers : WriteAnswers) :
    chosenInfoId request answers state =
      if debugClosed request answers.now state then .ok none
      else selectedInfoId request state := by
  have inited : state.initFlag ≠ noInit := by
    rw [inPhase.inited later]
    decide
  have opened : state.closeLogFlag ≠ 1 := by
    rw [inPhase.opened]
    decide
  simp only [chosenInfoId, openIridiumlog, if_neg inited]
  rw [Fallible.bind_ok rfl, if_neg (Int.lt_irrefl 0), if_neg opened]

theorem chosenInfoId_first (flag : state.initFlag = noInit) (request : Request)
    (answers : WriteAnswers) :
    chosenInfoId request answers state =
      match iridiumInitLog none answers.init state with
      | .error fault => .error fault
      | .ok (ret, next) =>
          if ret < 0 then .ok none else chosenInfoId request answers next := by
  rcases iridiumInitLog_cases flag none answers.init with ⟨fault, failed, _⟩ |
    ⟨path, _, _, failed⟩ | ⟨path, infos, deadTime, _, _, _, _, done⟩
  · simp [chosenInfoId, openIridiumlog, flag, failed, bind, Except.bind]
  · simp [chosenInfoId, openIridiumlog, flag, failed, bind, Except.bind]
  · have inited : hasInited ≠ noInit := by decide
    simp [chosenInfoId, openIridiumlog, flag, inited, done, bind, Except.bind]

theorem chosenInfoId_bounded {phase : Phase} (inPhase : InPhase phase state)
    (later : phase ≠ .fresh) (request : Request) (answers : WriteAnswers) (stop : Stop) :
    chosenInfoId request answers state ≠ .error (.stop stop) := by
  intro stopped
  rw [chosenInfoId_inited inPhase later, selectedInfoId] at stopped
  split_ifs at stopped
  cases infos : state.infos with
  | null =>
      rw [infos] at stopped
      cases stopped
  | freed =>
      rw [infos] at stopped
      cases stopped
  | live infos' =>
      have followed : followGlobal .infos state.infos = .ok infos' := by
        rw [infos]
        rfl
      rw [Fallible.bind_ok followed] at stopped
      rcases selected : selectInfoId infos' state.confLogFileNames request.logFile with fault | id
      · rw [selected] at stopped
        cases stopped
      · rw [selected] at stopped
        cases stopped

def plainRequest : Request :=
  ⟨[], [], 0, none, 2, []⟩

theorem selectedInfoId_live {infos : LogConfInfos} (live : state.infos = .live infos)
    (request : Request) :
    selectedInfoId request state =
      (selectInfoId infos state.confLogFileNames request.logFile).mapError .pointer >>=
        fun id => .ok (some id) := by
  have followed : followGlobal .infos state.infos = .ok infos := by
    rw [live]
    rfl
  exact Fallible.bind_ok followed _

theorem selectedInfoId_same_iff {seen : List (List Char)} {infos : LogConfInfos}
    {ctl : SingleLogConfInfo} (cell : infos.sinfo[infosIdCtl]? = some (some ctl))
    (entry : DefaultEntry seen infos) (live : state.infos = .live infos)
    (named : state.confLogFileNames = .live infos.names) (request : Request) :
    selectedInfoId (request.withName none) state =
        selectedInfoId (request.withName (some defaultLogFileName)) state ↔
      totalInForce infos = true ∨ defaultLogFileName ∉ seen := by
  have same := selectInfoId_same_iff cell entry
  rw [← same, selectedInfoId_live live, selectedInfoId_live live, named]
  simp only [Request.withName]
  rw [selectInfoId_null cell, selectInfoId_name cell]
  constructor
  · intro equal
    exact congrArg Except.ok (Option.some.inj (Except.ok.inj equal))
  · intro equal
    rw [equal]

theorem InForce.nullIsDefault_iff (force : InForce init state) (directory : init.directory = true)
    (answers : WriteAnswers) :
    (∀ request, NullIsDefault request answers state) ↔ DefaultUnnamed init := by
  rcases force.tables with ⟨infos, computed, live, named⟩
  rcases (getLogConfInfos_loaded computed).ctl with ⟨ctl, cell, _⟩
  have entry := getLogConfInfos_defaultEntry computed
  have same := selectedInfoId_same_iff cell entry live named
  have fits : init.file.fitsFlat dialect = true := by
    rcases getLogConfInfos_cases init.previous init.order init.file with ⟨_, fault, failed⟩ |
      ⟨fits, _⟩
    · rw [computed] at failed
      cases failed
    · exact fits
  constructor
  · intro all _
    refine ⟨fits, ?_⟩
    intro infos' computed'
    rw [computed] at computed'
    cases computed'
    rw [← same plainRequest]
    have chosen := (all plainRequest).chosen
    rw [chosenInfoId_inited force.ready (by decide),
      chosenInfoId_inited force.ready (by decide)] at chosen
    exact chosen
  · intro unnamed request
    have right := (unnamed directory).2 infos computed
    refine ⟨?_, ?_, fun fault => chosenInfoId_bounded force.ready (by decide) _ answers _⟩
    · rw [chosenInfoId_inited force.ready (by decide), chosenInfoId_inited force.ready (by decide),
        (same request).mpr right]
      rfl
    · rw [transparentIridiumWriteLog_inited force.ready (by decide),
        transparentIridiumWriteLog_inited force.ready (by decide),
        writeSelected_same entry live named ((selectInfoId_same_iff cell entry).mpr right)]
      rfl

theorem nullIsDefault_failed (failed : InPhase .failed state) (request : Request)
    (answers : WriteAnswers) : NullIsDefault request answers state := by
  have null : followGlobal .infos state.infos =
      .error (.pointer ⟨.infos, .nullDereference⟩) := by
    rw [failed.pointers.1]
    rfl
  refine ⟨?_, ?_, fun fault => chosenInfoId_bounded failed (by decide) _ answers _⟩
  · rw [chosenInfoId_inited failed (by decide), chosenInfoId_inited failed (by decide),
      selectedInfoId, selectedInfoId, Fallible.bind_error null, Fallible.bind_error null]
    rfl
  · rw [transparentIridiumWriteLog_inited failed (by decide),
      transparentIridiumWriteLog_inited failed (by decide), writeSelected, writeSelected,
      Fallible.bind_error null, Fallible.bind_error null]
    rfl

theorem Started.nullIsDefault_iff (started : Started init state) (answers : WriteAnswers) :
    (∀ request, NullIsDefault request answers state) ↔ DefaultUnnamed init := by
  rcases started with ⟨directory, force⟩ | ⟨directory, failed⟩
  · exact force.nullIsDefault_iff directory answers
  · apply iff_of_true
    · intro request
      exact nullIsDefault_failed failed request answers
    · intro present
      rw [directory] at present
      cases present

/-- Only the configuration can keep an initialisation without a directory from returning. -/
theorem iridiumInitLog_none_error {fault : LogFault} (fresh : InPhase .fresh state)
    (failed : iridiumInitLog none init state = .error fault) :
    ∃ stop, fault = .stop stop ∧
      getLogConfInfos init.previous init.order init.file = .error stop ∧
      init.directory = true := by
  have new : ¬ state.initFlag ≠ noInit := not_ne_iff.mpr fresh.initFlag
  have path : initPath none = .ok irilogPath := rfl
  rw [iridiumInitLog, if_neg new, Fallible.bind_ok path] at failed
  rcases directory : init.directory with _ | _
  · rw [directory] at failed
    cases failed
  rw [directory] at failed
  simp only [Bool.not_true, Bool.false_eq_true, if_false] at failed
  rcases computed : getLogConfInfos init.previous init.order init.file with stop | infos
  · rw [computed] at failed
    cases failed
    exact ⟨stop, rfl, rfl, rfl⟩
  · rcases (getLogConfInfos_loaded computed).ctl with ⟨ctl, cell, on⟩
    have followed : followCell (infos.sinfo.getD infosIdCtl none) = .ok ctl := by
      rw [List.getD_eq_getElem?_getD, cell]
      rfl
    rcases initDeadTime_ok (getLogConfInfos_complete computed) init.now state.debugDeadTime with
      ⟨deadTime, timed⟩
    rw [Fallible.bind_ok (Fallible.mapError_ok computed _), Fallible.bind_ok followed, if_neg on,
      Fallible.bind_ok timed] at failed
    cases failed

theorem nullIsDefault_fresh_iff (fresh : InPhase .fresh state) (answers : WriteAnswers) :
    (∀ request, NullIsDefault request answers state) ↔ DefaultUnnamed answers.init := by
  rcases done : iridiumInitLog none answers.init state with fault | ⟨ret, next⟩
  · rcases iridiumInitLog_none_error fresh done with ⟨stop, rfl, stopped, directory⟩
    have chosen : ∀ request : Request,
        chosenInfoId request answers state = .error (.stop stop) := by
      intro request
      rw [chosenInfoId_first fresh.initFlag, done]
    rcases getLogConfInfos_cases answers.init.previous answers.init.order answers.init.file with
      ⟨misfit, fault, failed⟩ | ⟨fits, ended⟩
    · rw [stopped] at failed
      cases failed
      apply iff_of_false
      · intro all
        exact (all plainRequest).bounded fault (chosen _)
      · intro unnamed
        rw [(unnamed directory).1] at misfit
        cases misfit
    · have exits : stop = .exit := by
        rcases ended with ended | ⟨infos, computed⟩
        · rw [stopped] at ended
          exact Except.error.inj ended
        · rw [stopped] at computed
          cases computed
      subst exits
      apply iff_of_true
      · intro request
        refine ⟨by rw [chosen, chosen], ?_, ?_⟩
        · rw [transparentIridiumWriteLog_first fresh.initFlag,
            transparentIridiumWriteLog_first fresh.initFlag, done]
        · intro fault accessed
          rw [chosen] at accessed
          cases accessed
      · intro _
        refine ⟨fits, ?_⟩
        intro infos computed
        rw [stopped] at computed
        cases computed
  · rcases iridiumInitLog_first fresh done with ⟨directory, rfl, force⟩ | ⟨directory, rfl, failed⟩
    · rw [← force.nullIsDefault_iff directory answers]
      apply forall_congr'
      intro request
      constructor
      · rintro ⟨chosen, written, bounded⟩
        rw [chosenInfoId_first fresh.initFlag, chosenInfoId_first fresh.initFlag, done] at chosen
        rw [chosenInfoId_first fresh.initFlag, done] at bounded
        rw [transparentIridiumWriteLog_first fresh.initFlag,
          transparentIridiumWriteLog_first fresh.initFlag, done] at written
        exact ⟨chosen, written, bounded⟩
      · rintro ⟨chosen, written, bounded⟩
        refine ⟨?_, ?_, ?_⟩
        · rw [chosenInfoId_first fresh.initFlag, chosenInfoId_first fresh.initFlag, done]
          exact chosen
        · rw [transparentIridiumWriteLog_first fresh.initFlag,
            transparentIridiumWriteLog_first fresh.initFlag, done]
          exact written
        · rw [chosenInfoId_first fresh.initFlag, done]
          exact bounded
    · apply iff_of_true
      · intro request
        refine ⟨?_, ?_, ?_⟩
        · rw [chosenInfoId_first fresh.initFlag, chosenInfoId_first fresh.initFlag, done]
          rfl
        · rw [transparentIridiumWriteLog_first fresh.initFlag,
            transparentIridiumWriteLog_first fresh.initFlag, done]
          rfl
        · intro fault accessed
          rw [chosenInfoId_first fresh.initFlag, done] at accessed
          cases accessed
      · intro present
        rw [directory] at present
        cases present

end Names

/-! ## Every run -/

/-- The configuration that a write uses after the given calls: the first call loads it. -/
def configuration (calls : List Call) (answers : WriteAnswers) : InitAnswers :=
  match calls with
  | [] => answers.init
  | call :: _ => call.initAnswers.getD answers.init

/-- After every run without `iridium_destroy_log`, a message without a log name is
treated as one with the default name exactly if the configuration fits its parser and has
a valid `TOTAL_SWITCH` or no section for the default log. -/
theorem nullIsDefault_iff_defaultUnnamed {host : Host} {calls : List Call}
    {replies : List (Option ℤ)} {state : LogState}
    (ran : run step (.start host) calls = .ok (replies, state))
    (kept : ∀ call ∈ calls, call.initAnswers.isSome = true) (answers : WriteAnswers) :
    (∀ request, NullIsDefault request answers state) ↔
      DefaultUnnamed (configuration calls answers) := by
  cases calls with
  | nil =>
      cases ran
      exact nullIsDefault_fresh_iff (inPhase_start host) answers
  | cons call calls =>
      rw [List.forall_mem_cons] at kept
      rcases Run.run_cons_inversion ran with ⟨reply, next, rest, stepped, ranRest, _⟩
      rcases Option.isSome_iff_exists.mp kept.1 with ⟨init, first⟩
      have started : Started init state :=
        Run.run_invariant (fun _ _ _ _ started kept => started.step kept) calls next rest state
          (first_step (inPhase_start host) first stepped) kept.2 ranRest
      rw [configuration, first]
      exact started.nullIsDefault_iff answers

/-- The first initialisation of a process, with a configuration file that has one
section. -/
def oneSection (name : List Char) : InitAnswers where
  accessOk := true
  mkdirOk := false
  file := .readable (['-'] ++ name ++ "\n-end\n".toList)
  previous := nul
  order := id
  now := 0
  tmNow := .zero

def quietAnswers : WriteAnswers where
  init := oneSection "a".toList
  now := 0
  reading := ⟨.zero, true⟩
  opening := ⟨⟨.zero, true⟩, 3⟩
  fstatOk := true
  rotation := ⟨⟨.zero, true⟩, 4⟩
  write length := length

theorem nullIsDefault_other_section :
    ∃ replies state, run step (.start ⟨"app".toList, "box".toList, 1, by decide⟩)
        [.init none (oneSection "a".toList)] = .ok (replies, state) ∧
      ∀ request, NullIsDefault request quietAnswers state := by
  refine ⟨_, _, rfl, (@nullIsDefault_iff_defaultUnnamed _ [.init none (oneSection "a".toList)]
    _ _ rfl ?_ quietAnswers).mpr ?_⟩
  · intro call member
    rw [List.mem_singleton] at member
    rw [member]
    rfl
  · intro _
    refine ⟨by decide, ?_⟩
    intro infos _
    right
    decide

/-- With a section of its own the default name has record 3; the null name keeps
record 2. -/
theorem not_nullIsDefault_own_section :
    ∃ replies state, run step (.start ⟨"app".toList, "box".toList, 1, by decide⟩)
        [.init none (oneSection defaultLogFileName)] = .ok (replies, state) ∧
      ¬ NullIsDefault plainRequest quietAnswers state := by
  refine ⟨_, _, rfl, ?_⟩
  rintro ⟨chosen, _, _⟩
  cases chosen

end Lctools.Log
