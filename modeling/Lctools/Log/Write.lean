import Lctools.Foundation.Run
import Lctools.Log.Node

/-! # Initialising, writing and destroying

The interface of the log library in `iridiumlog.c`, built without `LOG_DEBUG`.
Everything the calls ask the system for is in their answers. The names that
`iridium_destroy_log` frees are kept in the world: nothing reads them afterwards.
-/

namespace Lctools.Log

open Conf CString Numerals

/-! ## Data -/

inductive Loglevl where
  | debug
  | info
  | err
  | fatal
  deriving DecidableEq, Repr

/-- The levels among all values of the parameter `level`. -/
def Loglevl.ofInt : ℤ → Option Loglevl
  | 1 => some .debug
  | 2 => some .info
  | 3 => some .err
  | 4 => some .fatal
  | _ => none

def Loglevl.logInfo : Loglevl → List Char
  | .debug => "DEBUG".toList
  | .info => "INFO".toList
  | .err => "ERR".toList
  | .fatal => "FATAL".toList

def irilogDebug : ℤ := 1
def irilogPath : List Char := "/var/log/iridium/".toList
def logpathMaxLen : ℕ := 256
def loginfoMaxLen : ℕ := 1024 * 32
def writeTimes : ℕ := 500
def noInit : ℤ := 0
def hasInited : ℤ := 1

/-- The globals of `iridiumlog.c`. -/
structure LogState where
  debugDeadTime : ℤ
  closeLogFlag : ℤ
  initFlag : ℤ
  globalLogPath : List Char
  logFileNodes : Ref NodeStore
  confLogFileNames : Ref (List (List Char × ℕ))
  infos : Ref LogConfInfos
  world : World

def LogState.start (host : Host) : LogState where
  debugDeadTime := 0
  closeLogFlag := 0
  initFlag := noInit
  globalLogPath := []
  logFileNodes := .null
  confLogFileNames := .null
  infos := .null
  world := ⟨host, ⟨.zero, .zero⟩, []⟩

/-- What `iridium_init_log` asks for: `access` and `mkdir` on the directory, the
configuration file, the byte in front of the strings that its parser copies, the order
in which its hash table is gone through, `time`, and the local time. -/
structure InitAnswers where
  accessOk : Bool
  mkdirOk : Bool
  file : ConfFile
  previous : Char
  order : SectionTable → SectionTable
  now : ℤ
  tmNow : Tm

def InitAnswers.directory (answers : InitAnswers) : Bool :=
  answers.accessOk || answers.mkdirOk

/-- The parameters of `transparent_iridium_write_log`; `message` is what the
format and its arguments come to. -/
structure Request where
  fileName : List Char
  funcName : List Char
  line : ℤ
  logFile : Option (List Char)
  level : ℤ
  message : List Char
  deriving DecidableEq, Repr

/-- What `transparent_iridium_write_log` asks for. The clock is read for the date
of the message and for the name of a file; `write` gives the result for a record
of some length. -/
structure WriteAnswers where
  init : InitAnswers
  now : ℤ
  reading : Reading
  opening : Opening
  fstatOk : Bool
  rotation : Opening
  write : ℕ → ℤ

/-! ## Initialising and destroying -/

/-- `global_log_path`. A path that is the empty string is looked at in front of
its beginning. -/
def initPath : (logpath : Option (List Char)) → Except LogFault (List Char)
  | none => .ok irilogPath
  | some [] => .error .outOfBounds
  | some (first :: rest) =>
      if first = '/' then .error (.stop .exit)
      else
        .ok (snprintf (logpathMaxLen - 1) (irilogPath ++ (first :: rest) ++
          if (first :: rest).getLast? = some '/' then [] else ['/']))

def followCell (cell : Option SingleLogConfInfo) : Except LogFault SingleLogConfInfo :=
  (derefCell cell).mapError .pointer

/-- `debug_dead_time` after an initialisation. -/
def initDeadTime (infos : LogConfInfos) (now debugDeadTime : ℤ) : Except LogFault ℤ := do
  let ctl ← followCell (infos.sinfo.getD infosIdCtl none)
  if ctl.isValid ≠ 0 then
    let total ← followCell (infos.sinfo.getD infosIdTotalSwitch none)
    .ok (if total.timer ≠ 0 then now + total.timer else debugDeadTime)
  else
    .ok debugDeadTime

def iridiumInitLog (logpath : Option (List Char)) (answers : InitAnswers) (state : LogState) :
    Except LogFault (ℤ × LogState) := do
  if state.initFlag ≠ noInit then .ok (0, { state with initFlag := hasInited })
  else
    let path ← initPath logpath
    let state := { state with globalLogPath := path, initFlag := hasInited }
    if !answers.directory then .ok (-1, state)
    else
      let infos ← (getLogConfInfos answers.previous answers.order answers.file).mapError .stop
      let ctl ← followCell (infos.sinfo.getD infosIdCtl none)
      if ctl.logSwitch = 0 then .ok (0, { state with closeLogFlag := 1 })
      else
        let deadTime ← initDeadTime infos answers.now state.debugDeadTime
        .ok (0, { state with
          debugDeadTime := deadTime
          infos := .live infos
          confLogFileNames := .live infos.names
          logFileNodes := .live .empty
          world := { state.world with clock := ⟨answers.tmNow, answers.tmNow⟩ } })

/-- Following and freeing one of the three global pointers. -/
def followGlobal {α : Type} (pointer : Pointer) (ref : Ref α) : Except LogFault α :=
  (ref.deref).mapError fun fault => .pointer ⟨pointer, fault⟩

def freeGlobal {α : Type} (pointer : Pointer) (ref : Ref α) : Except LogFault (Ref α) :=
  (ref.free).mapError fun fault => .pointer ⟨pointer, fault⟩

/-- `log_conf_infos_destroy`, which looks into the record before it frees it. -/
def logConfInfosDestroy (infos : Ref LogConfInfos) : Except LogFault (Ref LogConfInfos) := do
  if infos.isNull then .ok infos
  else
    let _ ← followGlobal .infos infos
    freeGlobal .infos infos

def iridiumDestroyLog (state : LogState) : Except LogFault LogState := do
  let infos ← logConfInfosDestroy state.infos
  let nodes ← freeGlobal .logFileNodes state.logFileNodes
  .ok { state with infos := infos, logFileNodes := nodes, confLogFileNames := .null }

def openIridiumlog (answers : InitAnswers) (state : LogState) :
    Except LogFault (ℤ × LogState) :=
  if state.initFlag = noInit then iridiumInitLog none answers state else .ok (0, state)

/-! ## The text of a message -/

/-- The buffers from which the two outputs are put together. -/
structure Texts where
  date : List Char
  file : List Char
  func : List Char
  line : List Char
  level : List Char
  message : List Char
  deriving DecidableEq, Repr

def baseName (fileName : List Char) : List Char :=
  (fileName.reverse.takeWhile (· ≠ '/')).reverse

/-- Filling the buffers. The file name is only asked for by `p_file`: the source
tests this switch twice and never `f_file`. -/
def fillTexts (switch : IrilogSwitch) (level : Loglevl) (request : Request)
    (reading : Reading) (world : World) : Texts × World :=
  let (date, world) :=
    if switch.fDate || switch.pDate then
      let (tmNow, clock) := getLocaltime reading world.clock
      (messageDate tmNow, { world with clock := clock })
    else
      ([], world)
  let color := if level = .err then "[31m[".toList else "[33m[".toList
  ({ date := date
     file :=
       if switch.pFile || switch.pFile then
         snprintf 1024 ("File:".toList ++ baseName (text request.fileName) ++ [' '])
       else []
     func :=
       if switch.fFunc || switch.pFunc then
         snprintf 1024 ("Func:".toList ++ text request.funcName ++ [' '])
       else []
     line :=
       if switch.fLine || switch.pLine then
         snprintf 64 ("Line:".toList ++ decimalInt request.line)
       else []
     level := snprintf 64 (['\x1b'] ++ color ++ level.logInfo ++ "]:".toList ++ ['\x1b'] ++
       "[0m".toList)
     message := text (snprintf loginfoMaxLen request.message) }, world)

/-- `pinfobuf`. -/
def terminalText (switch : IrilogSwitch) (texts : Texts) : List Char :=
  (snprintf loginfoMaxLen ((if switch.pDate then texts.date else []) ++
    (if switch.pFile then texts.file else []) ++ (if switch.pFunc then texts.func else []) ++
    (if switch.pLine then texts.line else []) ++ texts.level ++ [' '] ++ texts.message ++
    ['\n'])).take (loginfoMaxLen - 2)

/-- `infobuf`: its last character is replaced by a newline. -/
def fileRecord (switch : IrilogSwitch) (level : Loglevl) (texts : Texts) : List Char :=
  let infobuf := (snprintf loginfoMaxLen ((if switch.fDate then texts.date else []) ++
    (if switch.fFile then texts.file else []) ++ (if switch.fFunc then texts.func else []) ++
    (if switch.fLine then texts.line else []) ++ ['['] ++ level.logInfo ++ [']', ' '] ++
    texts.message ++ ['\n'])).take (loginfoMaxLen - 2)
  infobuf.dropLast ++ ['\n']

/-! ## Writing -/

/-- `PROCESS_WLOCK` and `PROCESS_UNLOCK`. -/
def processLock (info : SingleLogConfInfo) (event : Event) (world : World) : World :=
  if info.isProcessLock ≠ 0 then world.add event else world

/-- The check of the file size, which may go over to another file. -/
def rotate (globalLogPath : List Char) (info : SingleLogConfInfo) (answers : WriteAnswers)
    (node : LogFileNode) (world : World) : LogFileNode × World :=
  if writeTimes < node.times ∧ info.singleMaxSize < node.fileSize then
    let world := world.add (.fstat node.name answers.fstatOk)
    if answers.fstatOk then
      let (node, world) := createLogFileFd globalLogPath answers.rotation node world
      ({ node with fileSize := 0, times := 0 }, world)
    else
      (node, world)
  else
    (node, world)

/-- `write` of a record and the counters; a descriptor that is not open gives an
error. -/
def writeRecord (record : List Char) (answers : WriteAnswers) (node : LogFileNode)
    (world : World) : LogFileNode × World :=
  let written := if 0 < node.fd then answers.write record.length else -1
  let world := world.add (.wrote node.name node.path record written)
  if written < 0 then (node, world)
  else
    ({ node with
       times := node.times + 1
       fileSize := (node.fileSize + written.toNat) % 2 ^ 64 }, world)

/-- What happens while the lock of an open node is held. -/
def appendRecord (globalLogPath : List Char) (info : SingleLogConfInfo) (record : List Char)
    (answers : WriteAnswers) (node : LogFileNode) (world : World) : LogFileNode × World :=
  let world := processLock info (.locked node.fd) world
  let (node, world) := rotate globalLogPath info answers node world
  let (node, world) := writeRecord record answers node world
  (node, processLock info (.unlocked node.fd) world)

def writeFile (info : SingleLogConfInfo) (id : ℕ) (realLogFile : Option (List Char))
    (record : List Char) (answers : WriteAnswers) (state : LogState) :
    Except LogFault (ℤ × LogState) := do
  match realLogFile with
  | none => .error .unterminated
  | some logFile =>
      let (pointer, nodes, world) ← getLogFileNode state.globalLogPath answers.opening logFile
        info id state.logFileNodes state.world
      let state := { state with logFileNodes := nodes, world := world }
      match pointer with
      | none => .error (.pointer ⟨.node, .nullDereference⟩)
      | some address =>
          let store ← followGlobal .logFileNodes nodes
          let node ← store.load address
          if node.fd ≤ 0 then .ok (-1, state)
          else
            let (node, world) :=
              appendRecord state.globalLogPath info record answers node state.world
            .ok (0, { state with logFileNodes := .live (store.save address node), world := world })

/-- `switch(level)`. -/
def IrilogSwitch.admits (switch : IrilogSwitch) : Loglevl → Bool
  | .debug => switch.debug
  | .info => switch.info
  | .err => switch.err
  | .fatal => switch.fatal

def writeOutputs (info : SingleLogConfInfo) (id : ℕ) (realLogFile : Option (List Char))
    (level : Loglevl) (request : Request) (answers : WriteAnswers) (state : LogState) :
    Except LogFault (ℤ × LogState) :=
  let switch := info.irilogSwitch
  let (texts, world) := fillTexts switch level request answers.reading state.world
  let world :=
    if switch.logTerminal then world.add (.printed (terminalText switch texts)) else world
  let state := { state with world := world }
  if switch.logFile then
    writeFile info id realLogFile (fileRecord switch level texts) answers state
  else
    .ok (0, state)

/-- `real_log_file`; `none` when `strncpy` leaves it without a NUL. -/
def realLogFile (infos : LogConfInfos) : (logFile : Option (List Char)) →
    Except LogFault (Option (List Char))
  | none => do
      let info ← followCell (infos.sinfo.getD infosIdDefault none)
      .ok (some info.name)
  | some logFile => .ok (if logFile.length < fileNameLen - 1 then some logFile else none)

def writeSelected (request : Request) (answers : WriteAnswers) (state : LogState) :
    Except LogFault (ℤ × LogState) := do
  let infos ← followGlobal .infos state.infos
  let id ← (selectInfoId infos state.confLogFileNames request.logFile).mapError .pointer
  let name ← realLogFile infos request.logFile
  let info ← followCell (getLogConfInfo infos id)
  if !(info.irilogSwitch.logFile || info.irilogSwitch.logTerminal) then .ok (-1, state)
  else
    match Loglevl.ofInt request.level with
    | none => .ok (0, state)
    | some level =>
        if info.irilogSwitch.admits level then
          writeOutputs info id name level request answers state
        else
          .ok (0, state)

def debugClosed (request : Request) (now : ℤ) (state : LogState) : Bool :=
  request.level = irilogDebug ∧ 0 < state.debugDeadTime ∧ state.debugDeadTime < now

def transparentIridiumWriteLog (request : Request) (answers : WriteAnswers)
    (state : LogState) : Except LogFault (ℤ × LogState) := do
  let (ret, state) ← openIridiumlog answers.init state
  if ret < 0 then .ok (-1, state)
  else if state.closeLogFlag = 1 then .ok (0, state)
  else if debugClosed request answers.now state then .ok (0, state)
  else writeSelected request answers state

/-! ## Runs -/

inductive Call where
  | init (logpath : Option (List Char)) (answers : InitAnswers)
  | write (request : Request) (answers : WriteAnswers)
  | destroy

/-- The value a call returns, `none` for `void`. -/
def step (state : LogState) : Call → Except LogFault (Option ℤ × LogState)
  | .init logpath answers => do
      let (ret, state) ← iridiumInitLog logpath answers state
      .ok (some ret, state)
  | .write request answers => do
      let (ret, state) ← transparentIridiumWriteLog request answers state
      .ok (some ret, state)
  | .destroy => do
      let state ← iridiumDestroyLog state
      .ok (none, state)

end Lctools.Log
