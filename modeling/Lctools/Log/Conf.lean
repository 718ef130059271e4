import Lctools.Conf.Section
import Lctools.Foundation.Numerals
import Lctools.Foundation.Ref

/-! # The configuration of the log library

`log/iridiumSysLog/iridiumlog_conf`: the parser of the log configuration file and
the table of settings that is made from its sections. `PRINT_ERR_FATAL` ends the
process.
-/

namespace Lctools.Log

open Conf CString Numerals

/-! ## Data -/

inductive Stop where
  /-- `PRINT_ERR_FATAL` called `exit`. -/
  | exit
  /-- An array is accessed outside of its bounds. -/
  | access (fault : Conf.Fault)
  deriving DecidableEq, Repr

def repeatInitErr : ℤ := 3
def openFileErr : ℤ := 4
def confFileMapErr : ℤ := 6
def confCloseAll : ℤ := 9
def iriConfFinishInit : ℤ := 1

structure LogSections where
  table : SectionTable
  modeCount : ℕ
  logSwitch : ℤ
  deriving DecidableEq, Repr

/-- `log_iri_conf_manager_t`. -/
structure LogManager where
  iriConf : Ref SectionTable
  modeCount : ℕ
  initFlag : ℤ
  logSwitch : ℤ
  deriving DecidableEq, Repr

def LogManager.cleared : LogManager where
  iriConf := .null
  modeCount := 0
  initFlag := 0
  logSwitch := 0

/-- `irilog_switch_t`, one bit for each switch. -/
structure IrilogSwitch where
  pFile : Bool
  pFunc : Bool
  pLine : Bool
  pDate : Bool
  fFile : Bool
  fFunc : Bool
  fLine : Bool
  fDate : Bool
  logTerminal : Bool
  logFile : Bool
  debug : Bool
  info : Bool
  err : Bool
  fatal : Bool
  deriving DecidableEq, Repr

/-- `single_log_conf_info_t`, without the field `loginfo_max_len` that nothing
uses. -/
structure SingleLogConfInfo where
  logSwitch : ℤ
  isValid : ℤ
  name : List Char
  timer : ℤ
  irilogSwitch : IrilogSwitch
  rollbackNum : ℤ
  singleMaxSize : ℤ
  isProcessLock : ℤ
  deriving DecidableEq, Repr

/-- `log_conf_infos_t`. The list holds the first `len` cells of `sinfo`; the
empty list stands for the null pointer. -/
structure LogConfInfos where
  len : ℕ
  allocatedLen : ℕ
  sinfo : List (Option SingleLogConfInfo)
  names : List (List Char × ℕ)
  deriving DecidableEq, Repr

def infosIdCtl : ℕ := 0
def infosIdTotalSwitch : ℕ := 1
def infosIdDefault : ℕ := 2
def infosIdStart : ℕ := 3

def defaultLogConfFilesMem : ℕ := 50
def fileNameLen : ℕ := 128
def totalSwitchModeName : List Char := "TOTAL_SWITCH".toList
def totalSwitchIsValid : List Char := "IS_VALID".toList
def totalSwitchTimer : List Char := "TIMMER".toList
def defaultLogFileName : List Char := "iridium_default".toList

/-- Records after `memset`. -/
def IrilogSwitch.zero : IrilogSwitch :=
  ⟨false, false, false, false, false, false, false, false, false, false, false, false, false,
    false⟩

def SingleLogConfInfo.zero : SingleLogConfInfo :=
  ⟨0, 0, [], 0, .zero, 0, 0, 0⟩

/-! ## Reading the file -/

def transferCharToInt (c : Char) : ℤ :=
  if !c.isDigit then -1 else atoi [c]

/-- The parser in `log_get_conf_info_from_file`; it keeps the value of the
switch. -/
def dialect : Dialect LogSections where
  switchStr := "LOG_SWITCH".toList
  level := transferCharToInt
  insertPairs sections confPairs :=
    { sections with
      table := insertNewNode sections.table sections.modeCount confPairs
      modeCount := sections.modeCount + 1 }
  closeAll sections := { sections with logSwitch := 0 }
  setSwitch level sections := { sections with logSwitch := level }

def noSections : LogSections where
  table := []
  modeCount := 0
  logSwitch := 1

/-- `init_manager` followed by what the parser added. -/
def filled (sections : LogSections) : LogManager where
  iriConf := .live sections.table
  modeCount := sections.modeCount
  initFlag := iriConfFinishInit
  logSwitch := sections.logSwitch

/-- `log_get_conf_info_from_file`: the return value and the manager after it, in memory
where the byte in front of a string is `previous`. -/
def logGetConfInfoFromFile (previous : Char) (file : ConfFile) (manager : LogManager) :
    Except Stop (ℤ × LogManager) :=
  if manager.initFlag = iriConfFinishInit then .ok (repeatInitErr, manager)
  else
    match file with
    | .missing => .ok (openFileErr, filled noSections)
    | .noMemory => .ok (confFileMapErr, filled noSections)
    | .readable content =>
        match parseFileUsing dialect (getStringFlat previous) content noSections with
        | .error fault => .error (.access fault)
        | .ok (.finished, sections) => .ok (0, filled sections)
        | .ok (.closeAll, sections) => .ok (confCloseAll, filled sections)
        | .ok (.endError, _) => .error .exit

/-! ## The rows of a section -/

def isLevelTrueInner (c : Char) : ℤ :=
  if !c.isDigit then -1
  else if atoi [c] = 1 then 1
  else if atoi [c] = 0 then 0
  else -1

/-- A row of switches: one digit for each setter, dots between them are skipped
and what follows the last setter is not looked at. -/
def switchRow : (value : List Char) → List (Bool → IrilogSwitch → IrilogSwitch) →
    IrilogSwitch → ℤ × IrilogSwitch
  | [], _, switch => (0, switch)
  | c :: value, setters, switch =>
      if c = '.' then switchRow value setters switch
      else
        match setters with
        | [] => (0, switch)
        | set :: setters =>
            if isLevelTrueInner c < 0 then (-1, switch)
            else switchRow value setters (set (isLevelTrueInner c = 1) switch)

def levelRow : List (Bool → IrilogSwitch → IrilogSwitch) :=
  [fun on switch => { switch with debug := on },
    fun on switch => { switch with info := on },
    fun on switch => { switch with err := on },
    fun on switch => { switch with fatal := on }]

def fileRow : List (Bool → IrilogSwitch → IrilogSwitch) :=
  [fun on switch => { switch with logFile := on },
    fun on switch => { switch with fFile := on },
    fun on switch => { switch with fFunc := on },
    fun on switch => { switch with fLine := on },
    fun on switch => { switch with fDate := on }]

def terminalRow : List (Bool → IrilogSwitch → IrilogSwitch) :=
  [fun on switch => { switch with logTerminal := on },
    fun on switch => { switch with pFile := on },
    fun on switch => { switch with pFunc := on },
    fun on switch => { switch with pLine := on },
    fun on switch => { switch with pDate := on }]

private def handleSwitches (setters : List (Bool → IrilogSwitch → IrilogSwitch))
    (info : SingleLogConfInfo) (value : List Char) : ℤ × SingleLogConfInfo :=
  match switchRow (text value) setters info.irilogSwitch with
  | (ret, switch) => (ret, { info with irilogSwitch := switch })

/-- `irilog_conf_line_handle`: the return value and the record after it. -/
def irilogConfLineHandle (info : SingleLogConfInfo) (name value : List Char) :
    ℤ × SingleLogConfInfo :=
  if name = "DEBUG.INFO.ERR.FATAL".toList then handleSwitches levelRow info value
  else if name = "LOG_FILE.FILE.FUNC.LINE.DATE".toList then handleSwitches fileRow info value
  else if name = "LOG_TERMINAL.FILE.FUNC.LINE.DATE".toList then
    handleSwitches terminalRow info value
  else if name = "ROLLBACK_NUMBER".toList then
    (0, { info with rollbackNum := (sscanfInt value).getD info.rollbackNum })
  else if name = "SINGLE_MAX_SIZE".toList then
    (0, { info with singleMaxSize := (sscanfUnsigned value).getD info.singleMaxSize })
  else if name = "IS_PROCESS_LOCK".toList then
    (0, { info with isProcessLock := (sscanfInt value).getD info.isProcessLock })
  else
    (0, info)

def getInfoFromConfPairs (confPairs : ConfPairs) (info : SingleLogConfInfo) :
    SingleLogConfInfo :=
  confPairs.pairs.foldl (fun info pair => (irilogConfLineHandle info pair.name pair.value).2)
    info

/-! ## The table of settings -/

/-- `lci_add_info`: the id and the table after it. -/
def lciAddInfo (infos : LogConfInfos) (info : SingleLogConfInfo) (specialId : ℕ) :
    ℕ × LogConfInfos :=
  let infos :=
    if infos.allocatedLen ≤ infos.len then
      if infos.sinfo = [] then
        { infos with
          allocatedLen := max defaultLogConfFilesMem 3
          len := infosIdStart
          sinfo := [none, none, none] }
      else
        { infos with allocatedLen := infos.allocatedLen + 10 }
    else
      infos
  if infosIdStart ≤ specialId then
    (infos.len, { infos with len := infos.len + 1, sinfo := infos.sinfo ++ [some info] })
  else
    (specialId, { infos with sinfo := infos.sinfo.set specialId (some info) })

def setDefaultSingleLogConfInfo (info : SingleLogConfInfo) : SingleLogConfInfo :=
  { info with
    rollbackNum := 5
    singleMaxSize := 30 * 1024 * 1024
    isValid := 0
    irilogSwitch :=
      { pFile := false, pFunc := false, pLine := false, pDate := false
        fFile := true, fFunc := true, fLine := true, fDate := true
        logTerminal := false, logFile := true
        debug := false, info := true, err := true, fatal := true } }

/-- `g_hash_table_insert(log_conf_infos->names, name, id)`. -/
def insertName (name : List Char) (id : ℕ) (infos : LogConfInfos) : LogConfInfos :=
  { infos with names := HashTable.insert (fun key => key) name id infos.names }

def logConfInfosInit : LogConfInfos :=
  let infos : LogConfInfos := ⟨0, 0, [], []⟩
  let infos := (lciAddInfo infos { SingleLogConfInfo.zero with logSwitch := 1 } infosIdCtl).2
  let infos := (lciAddInfo infos (setDefaultSingleLogConfInfo .zero) infosIdTotalSwitch).2
  let info := setDefaultSingleLogConfInfo
    { SingleLogConfInfo.zero with name := defaultLogFileName.take (fileNameLen - 1) }
  let (id, infos) := lciAddInfo infos info infosIdDefault
  insertName info.name id infos

/-- The values a `TOTAL_SWITCH` section must have. -/
def totalSwitchInfo (confPairs : ConfPairs) (info : SingleLogConfInfo) :
    Except Stop SingleLogConfInfo := do
  match getValue confPairs totalSwitchIsValid with
  | none => .error .exit
  | some value =>
      let info := { info with isValid := isLevelTrueInner ((text value).headD nul) }
      if info.isValid < 0 then .error .exit
      else
        match getValue confPairs totalSwitchTimer with
        | none => .error .exit
        | some value =>
            let info := { info with timer := atoi value }
            if info.timer < 0 then .error .exit else .ok info

/-- `fill_log_conf_infos` on one entry of the section table. -/
def fillLogConfInfos (infos : LogConfInfos) (entry : List Char × ConfPairs) :
    Except Stop LogConfInfos := do
  let (key, confPairs) := entry
  let info := getInfoFromConfPairs confPairs
    { SingleLogConfInfo.zero with name := key.take (fileNameLen - 1) }
  if info.name ≠ totalSwitchModeName then
    let (id, infos) := lciAddInfo infos info infosIdStart
    .ok (insertName info.name id infos)
  else
    let info ← totalSwitchInfo confPairs info
    let (id, infos) := lciAddInfo infos info infosIdTotalSwitch
    .ok (insertName info.name id infos)

def getLogConfInfo (infos : LogConfInfos) (id : ℕ) : Option SingleLogConfInfo :=
  if infos.len ≤ id then none else infos.sinfo.getD id none

/-- A change of the record in one cell of `sinfo`. -/
def modifyInfo (infos : LogConfInfos) (id : ℕ)
    (change : SingleLogConfInfo → SingleLogConfInfo) : LogConfInfos :=
  { infos with sinfo := infos.sinfo.modify id (Option.map change) }

@[simp] theorem modifyInfo_len (infos : LogConfInfos) (id : ℕ)
    (change : SingleLogConfInfo → SingleLogConfInfo) :
    (modifyInfo infos id change).len = infos.len := rfl

/-- The part of `get_log_conf_infos` after the file was read without an error;
`order` is the order in which `g_hash_table_foreach` hands out the sections. -/
def fillFromSections (logSwitch : ℤ) (order : List (List Char × ConfPairs)) :
    Except Stop LogConfInfos :=
  order.foldlM fillLogConfInfos
    (modifyInfo logConfInfosInit infosIdCtl fun info => { info with logSwitch := logSwitch })

/-- `is_valid` of the total switch becomes a control value. -/
def copyIsValid (infos : LogConfInfos) : LogConfInfos :=
  match infos.sinfo.getD infosIdTotalSwitch none with
  | none => infos
  | some total => modifyInfo infos infosIdCtl fun info => { info with isValid := total.isValid }

@[simp] theorem copyIsValid_names (infos : LogConfInfos) :
    (copyIsValid infos).names = infos.names := by
  unfold copyIsValid
  split
  · rfl
  · rfl

/-- The entries of the section table as `g_hash_table_foreach` hands them out. -/
def tableEntries (table : SectionTable) : List (List Char × ConfPairs) :=
  table.map fun entry => (entry.1.text, entry.2.confPairs)

/-- `get_log_conf_infos`. The manager is local: destroying its table at the end
has no effect that can be seen. -/
def getLogConfInfos (previous : Char) (order : SectionTable → SectionTable) (file : ConfFile) :
    Except Stop LogConfInfos := do
  let (ret, manager) ← logGetConfInfoFromFile previous file .cleared
  let infos ←
    match ret, manager.iriConf with
    | 0, .live table => fillFromSections manager.logSwitch (tableEntries (order table))
    | _, _ => .ok logConfInfosInit
  .ok (copyIsValid infos)

end Lctools.Log
