import Lctools.Log.Loaded
import Lctools.Log.Write

/-! # The node table as a map

Seen from one thread the table of nodes is a map from log names to nodes, and a
write to a log file changes the node of its name and no other one.
-/

namespace Lctools.Log

open CString

namespace NodeStore

def find (store : NodeStore) (logFile : List Char) : Option LogFileNode :=
  match store.lookup logFile with
  | none => none
  | some address =>
      match store.nodes[address]? with
      | some (.live node) => some node
      | _ => none

/-- Every name in the table has a node, and no two names share one. -/
structure WellFormed (store : NodeStore) : Prop where
  live : ∀ name address, store.lookup name = some address →
    ∃ node, store.nodes[address]? = some (.live node)
  apart : ∀ first second address, store.lookup first = some address →
    store.lookup second = some address → first = second

/-- A store that has a new node for one name and is the same for all others. -/
structure Updates (store : NodeStore) (logFile : List Char) (node : LogFileNode)
    (next : NodeStore) : Prop where
  wellFormed : next.WellFormed
  found : next.find logFile = some node
  others : ∀ other, other ≠ logFile → next.find other = store.find other

variable {store next last : NodeStore} {logFile : List Char} {address : ℕ}

theorem wellFormed_empty : empty.WellFormed where
  live := by
    intro name address found
    cases found
  apart := by
    intro first second address found
    cases found

theorem find_eq_none_iff (valid : store.WellFormed) :
    store.find logFile = none ↔ store.lookup logFile = none := by
  rcases looked : store.lookup logFile with _ | address
  · simp [find, looked]
  · rcases valid.live logFile address looked with ⟨node, cell⟩
    simp [find, looked, cell]

theorem find_of_lookup {node : LogFileNode} (looked : store.lookup logFile = some address)
    (cell : store.nodes[address]? = some (.live node)) : store.find logFile = some node := by
  simp [find, looked, cell]

theorem WellFormed.load (valid : store.WellFormed) (looked : store.lookup logFile = some address) :
    ∃ node, store.load address = .ok node ∧ store.find logFile = some node := by
  rcases valid.live logFile address looked with ⟨node, cell⟩
  refine ⟨node, ?_, find_of_lookup looked cell⟩
  rw [NodeStore.load, List.getD_eq_getElem?_getD, cell]
  rfl

theorem WellFormed.save (valid : store.WellFormed) (looked : store.lookup logFile = some address)
    (node : LogFileNode) : store.Updates logFile node (store.save address node) := by
  have inside : address < store.nodes.length := by
    rcases valid.live logFile address looked with ⟨old, cell⟩
    exact (List.getElem?_eq_some_iff.mp cell).1
  have saved : (store.nodes.set address (.live node))[address]? = some (.live node) :=
    List.getElem?_set_self inside
  refine ⟨⟨?_, valid.apart⟩, find_of_lookup looked saved, ?_⟩
  · intro name other found
    by_cases same : address = other
    · rw [← same]
      exact ⟨node, saved⟩
    · rw [NodeStore.save, List.getElem?_set_ne same]
      exact valid.live name other found
  · intro other different
    rw [find, find]
    rcases found : store.lookup other with _ | elsewhere
    · simp [NodeStore.save, lookup, show HashTable.lookup _ other store.table = none from found]
    · have apart : address ≠ elsewhere := by
        intro same
        rw [← same] at found
        exact different (valid.apart other logFile address found looked)
      rw [show (store.save address node).lookup other = some elsewhere from found]
      simp only [NodeStore.save, List.getElem?_set_ne apart]

theorem lookup_insert (store : NodeStore) (logFile : List Char) (node : LogFileNode)
    (name : List Char) :
    (store.insert logFile node).2.lookup name =
      if logFile = name then some store.nodes.length else store.lookup name :=
  HashTable.lookup_insert (fun key => key) logFile store.nodes.length name store.table

theorem WellFormed.insert (valid : store.WellFormed) (absent : store.lookup logFile = none)
    (node : LogFileNode) :
    (store.insert logFile node).2.lookup logFile = some (store.insert logFile node).1 ∧
      store.Updates logFile node (store.insert logFile node).2 := by
  have looked := store.lookup_insert logFile node
  have nodes : (store.insert logFile node).2.nodes = store.nodes ++ [.live node] := by
    rw [NodeStore.insert, absent]
  have old : ∀ name address, store.lookup name = some address →
      (store.nodes ++ [.live node])[address]? = store.nodes[address]? := by
    intro name address found
    rcases valid.live name address found with ⟨other, cell⟩
    exact List.getElem?_append_left (List.getElem?_eq_some_iff.mp cell).1
  have new : (store.nodes ++ [Ref.live node])[store.nodes.length]? = some (.live node) := by
    simp
  have own : (store.insert logFile node).2.lookup logFile = some store.nodes.length := by
    rw [looked, if_pos rfl]
  have outside : ∀ name, store.lookup name ≠ some store.nodes.length := by
    intro name found
    rcases valid.live name _ found with ⟨other, cell⟩
    exact absurd (List.getElem?_eq_some_iff.mp cell).1 (lt_irrefl _)
  refine ⟨own, ⟨?_, ?_⟩, ?_, ?_⟩
  · intro name address found
    rw [nodes]
    rw [looked] at found
    split_ifs at found
    · cases found
      exact ⟨node, new⟩
    · rw [old name address found]
      exact valid.live name address found
  · intro first second address foundFirst foundSecond
    rw [looked] at foundFirst foundSecond
    split_ifs at foundFirst foundSecond with isFirst isSecond isSecond
    · exact isFirst.symm.trans isSecond
    · cases foundFirst
      exact absurd foundSecond (outside second)
    · cases foundSecond
      exact absurd foundFirst (outside first)
    · exact valid.apart first second address foundFirst foundSecond
  · exact find_of_lookup own (by rw [nodes, new])
  · intro other different
    rw [find, find, looked, if_neg different.symm, nodes]
    rcases found : store.lookup other with _ | address
    · rfl
    · simp only [old other address found]

theorem Updates.trans {first second : LogFileNode} (earlier : store.Updates logFile first next)
    (later : next.Updates logFile second last) : store.Updates logFile second last where
  wellFormed := later.wellFormed
  found := later.found
  others := by
    intro other different
    rw [later.others other different, earlier.others other different]

theorem Updates.refl (valid : store.WellFormed) {node : LogFileNode}
    (found : store.find logFile = some node) : store.Updates logFile node store :=
  ⟨valid, found, fun _ _ => rfl⟩

end NodeStore

/-! ## Writing to one node -/

/-- The node that `get_log_file_node` hands out. -/
def acquireNode (globalLogPath : List Char) (opening : Opening) (logFile : List Char)
    (info : SingleLogConfInfo) (id : ℕ) (found : Option LogFileNode) (world : World) :
    LogFileNode × World :=
  match found with
  | none => newLogFileNode globalLogPath opening info id (some logFile) world
  | some node =>
      if node.fd < 0 then createLogFileFd globalLogPath opening node world else (node, world)

/-- The node of a log name after a record was written to it. -/
def writeNode (globalLogPath : List Char) (logFile : List Char) (info : SingleLogConfInfo)
    (id : ℕ) (record : List Char) (answers : WriteAnswers) (found : Option LogFileNode)
    (world : World) : LogFileNode × World :=
  let (node, world) := acquireNode globalLogPath answers.opening logFile info id found world
  if node.fd ≤ 0 then (node, world)
  else appendRecord globalLogPath info record answers node world

section Refinement

variable {store : NodeStore} (valid : store.WellFormed) (globalLogPath : List Char)
  (opening : Opening) (logFile : List Char) (info : SingleLogConfInfo) (id : ℕ)
  (answers : WriteAnswers)

include valid

theorem getLogFileNode_spec (world : World)
    (fits : ¬256 ≤ globalLogPath.length + logFile.length) :
    ∃ address next, getLogFileNode globalLogPath opening logFile info id (.live store) world =
        .ok (some address, .live next,
          (acquireNode globalLogPath opening logFile info id (store.find logFile) world).2) ∧
      next.lookup logFile = some address ∧
      store.Updates logFile
        (acquireNode globalLogPath opening logFile info id (store.find logFile) world).1
        next := by
  rcases looked : store.lookup logFile with _ | address
  · have absent := (NodeStore.find_eq_none_iff valid).mpr looked
    rw [absent]
    rcases valid.insert looked (newLogFileNode globalLogPath opening info id (some logFile)
      world).1 with ⟨own, updates⟩
    refine ⟨_, _, ?_, own, updates⟩
    simp [getLogFileNode, Ref.isNull, fits, Ref.deref, Except.mapError, bind, Except.bind,
      looked, createAndInsert, acquireNode]
  · rcases valid.load looked with ⟨node, loaded, found⟩
    rw [found]
    by_cases closed : node.fd < 0
    · refine ⟨address, store.save address
        (createLogFileFd globalLogPath opening node world).1, ?_, looked, ?_⟩
      · simp [getLogFileNode, Ref.isNull, fits, Ref.deref, Except.mapError, bind, Except.bind,
          looked, loaded, acquireNode, closed]
      · rw [acquireNode, if_pos closed]
        exact valid.save looked _
    · refine ⟨address, store, ?_, looked, ?_⟩
      · simp [getLogFileNode, Ref.isNull, fits, Ref.deref, Except.mapError, bind, Except.bind,
          looked, loaded, acquireNode, closed]
      · rw [acquireNode, if_neg closed]
        exact .refl valid found

theorem writeFile_spec (record : List Char) {state : LogState}
    (nodes : state.logFileNodes = .live store)
    (fits : ¬256 ≤ state.globalLogPath.length + logFile.length) :
    ∃ ret next, writeFile info id (some logFile) record answers state = .ok (ret, { state with
        logFileNodes := .live next
        world := (writeNode state.globalLogPath logFile info id record answers
          (store.find logFile) state.world).2 }) ∧
      store.Updates logFile (writeNode state.globalLogPath logFile info id record answers
        (store.find logFile) state.world).1 next := by
  rcases getLogFileNode_spec valid state.globalLogPath answers.opening logFile info id
    state.world fits with ⟨address, next, computed, looked, updates⟩
  rcases updates.wellFormed.load looked with ⟨node, loaded, found⟩
  rw [updates.found] at found
  generalize acquired : acquireNode state.globalLogPath answers.opening logFile info id
    (store.find logFile) state.world = result at *
  rcases result with ⟨first, world⟩
  simp only [Option.some.injEq] at found computed updates
  rw [found] at acquired updates
  by_cases closed : node.fd ≤ 0
  · refine ⟨-1, next, ?_, ?_⟩
    · simp [writeFile, nodes, computed, bind, Except.bind, followGlobal, Ref.deref,
        Except.mapError, loaded, closed, writeNode, acquired]
    · simpa [writeNode, acquired, closed] using updates
  · refine ⟨0, next.save address (appendRecord state.globalLogPath info record answers node
      world).1, ?_, ?_⟩
    · simp [writeFile, nodes, computed, bind, Except.bind, followGlobal, Ref.deref,
        Except.mapError, loaded, closed, writeNode, acquired]
    · simp only [writeNode, acquired, closed, if_false]
      exact updates.trans (updates.wellFormed.save looked _)

end Refinement

/-! ## What a write does once the library is initialised -/

def recordOf (info : SingleLogConfInfo) (level : Loglevl) (request : Request)
    (reading : Reading) (world : World) : List Char :=
  fileRecord info.irilogSwitch level
    (fillTexts info.irilogSwitch level request reading world).1

/-- The world after the texts were made and the terminal got its copy. -/
def announce (info : SingleLogConfInfo) (level : Loglevl) (request : Request)
    (reading : Reading) (world : World) : World :=
  let (texts, world) := fillTexts info.irilogSwitch level request reading world
  if info.irilogSwitch.logTerminal then
    world.add (.printed (terminalText info.irilogSwitch texts))
  else
    world

theorem announce_events (world : World) (info : SingleLogConfInfo) (level : Loglevl)
    (request : Request) (reading : Reading) :
    (announce info level request reading world).events = world.events ∨
      ∃ record, (announce info level request reading world).events =
        .printed record :: world.events := by
  have same : (fillTexts info.irilogSwitch level request reading world).2.events =
      world.events := by
    simp only [fillTexts]
    split_ifs
    · rfl
    · rfl
  simp only [announce]
  split_ifs
  · exact .inr ⟨_, by rw [World.add_events, same]⟩
  · exact .inl same

/-- The settings and the file name that a log name, `none` for the null pointer,
is written with. -/
structure Chosen (infos : LogConfInfos) (names : Ref (List (List Char × ℕ)))
    (log : Option (List Char)) (id : ℕ) (info : SingleLogConfInfo) (logFile : List Char) :
    Prop where
  selected : selectInfoId infos names log = .ok id
  cell : getLogConfInfo infos id = some info
  named : realLogFile infos log = .ok (some logFile)

inductive WriteEffect (infos : LogConfInfos) (store : NodeStore) (request : Request)
    (answers : WriteAnswers) (state : LogState) : LogState → Prop
  | nothing : WriteEffect infos store request answers state state
  | terminal (info : SingleLogConfInfo) (level : Loglevl) :
      WriteEffect infos store request answers state
        { state with world := announce info level request answers.reading state.world }
  | file (id : ℕ) (info : SingleLogConfInfo) (logFile : List Char) (level : Loglevl)
      (next : NodeStore)
      (chosen : Chosen infos state.confLogFileNames request.logFile id info logFile)
      (updates : store.Updates logFile (writeNode state.globalLogPath logFile info id
        (recordOf info level request answers.reading state.world) answers (store.find logFile)
        (announce info level request answers.reading state.world)).1 next) :
      WriteEffect infos store request answers state
        { state with
          logFileNodes := .live next
          world := (writeNode state.globalLogPath logFile info id
            (recordOf info level request answers.reading state.world) answers
            (store.find logFile)
            (announce info level request answers.reading state.world)).2 }

section Effect

variable {infos : LogConfInfos} {names : List (List Char × ℕ)} {store : NodeStore}
  {state : LogState} (live : state.infos = .live infos)
  (named : state.confLogFileNames = .live names) (nodes : state.logFileNodes = .live store)
  (valid : store.WellFormed) (request : Request) (answers : WriteAnswers)

theorem selectInfoId_live (infos : LogConfInfos) (names : List (List Char × ℕ))
    (logFile : Option (List Char)) :
    selectInfoId infos (.live names) logFile = .error ⟨.cell, .nullDereference⟩ ∨
      ∃ id, selectInfoId infos (.live names) logFile = .ok id := by
  unfold selectInfoId
  rcases infos.sinfo.getD infosIdCtl none with _ | ctl
  · exact .inl rfl
  · right
    simp only [derefCell, bind, Except.bind]
    split_ifs
    · exact ⟨_, rfl⟩
    · cases logFile with
      | none => exact ⟨_, rfl⟩
      | some name => exact ⟨_, rfl⟩

theorem followCell_cases (cell : Option SingleLogConfInfo) :
    followCell cell = .error (.pointer ⟨.cell, .nullDereference⟩) ∧ cell = none ∨
      ∃ info, followCell cell = .ok info ∧ cell = some info := by
  cases cell with
  | none => exact .inl ⟨rfl, rfl⟩
  | some info => exact .inr ⟨info, rfl, rfl⟩

theorem realLogFile_cases (infos : LogConfInfos) (logFile : Option (List Char)) :
    realLogFile infos logFile = .error (.pointer ⟨.cell, .nullDereference⟩) ∨
      ∃ name, realLogFile infos logFile = .ok name := by
  cases logFile with
  | none =>
      rcases followCell_cases (infos.sinfo.getD infosIdDefault none) with ⟨failed, _⟩ |
        ⟨info, followed, _⟩
      · left
        rw [realLogFile, failed]
        rfl
      · right
        rw [realLogFile, followed]
        exact ⟨_, rfl⟩
  | some name => exact .inr ⟨_, rfl⟩

theorem writeOutputs_eq (info : SingleLogConfInfo) (id : ℕ) (name : Option (List Char))
    (level : Loglevl) (request : Request) (answers : WriteAnswers) (state : LogState) :
    writeOutputs info id name level request answers state =
      if info.irilogSwitch.logFile then
        writeFile info id name (recordOf info level request answers.reading state.world) answers
          { state with world := announce info level request answers.reading state.world }
      else
        .ok (0, { state with
          world := announce info level request answers.reading state.world }) := by
  rfl

include nodes in
theorem writeFile_outOfBounds {logFile : List Char}
    (long : 256 ≤ state.globalLogPath.length + logFile.length) (info : SingleLogConfInfo) (id : ℕ)
    (record : List Char) :
    writeFile info id (some logFile) record answers state = .error .outOfBounds := by
  simp [writeFile, nodes, getLogFileNode, Ref.isNull, long, bind, Except.bind]

include nodes valid in
theorem writeOutputs_effect {id : ℕ} {info : SingleLogConfInfo} {name : Option (List Char)}
    (selected : selectInfoId infos state.confLogFileNames request.logFile = .ok id)
    (cell : getLogConfInfo infos id = some info)
    (found : realLogFile infos request.logFile = .ok name) (level : Loglevl) :
    (∃ fault, writeOutputs info id name level request answers state = .error fault) ∨
      ∃ ret next, writeOutputs info id name level request answers state = .ok (ret, next) ∧
        WriteEffect infos store request answers state next := by
  rw [writeOutputs_eq]
  by_cases toFile : info.irilogSwitch.logFile = true
  · rw [if_pos toFile]
    cases name with
    | none => exact .inl ⟨.unterminated, rfl⟩
    | some logFile =>
        by_cases fits : 256 ≤ state.globalLogPath.length + logFile.length
        · left
          exact ⟨.outOfBounds, @writeFile_outOfBounds store
            { state with world := announce info level request answers.reading state.world } nodes
            answers logFile fits info id _⟩
        · right
          rcases @writeFile_spec store valid logFile info id answers
            (recordOf info level request answers.reading state.world)
            { state with world := announce info level request answers.reading state.world }
            nodes fits with ⟨ret, next, written, updates⟩
          exact ⟨ret, _, written, .file id info logFile level next ⟨selected, cell, found⟩ updates⟩
  · rw [if_neg toFile]
    exact .inr ⟨0, _, rfl, .terminal info level⟩

include live named nodes valid in
theorem writeSelected_effect :
    (∃ fault, writeSelected request answers state = .error fault) ∨
      ∃ ret next, writeSelected request answers state = .ok (ret, next) ∧
        WriteEffect infos store request answers state next := by
  rw [writeSelected, live]
  simp only [followGlobal, Ref.deref, Except.mapError, bind, Except.bind]
  rcases selectInfoId_live infos names request.logFile with failed | ⟨id, selected⟩
  · rw [named, failed]
    exact .inl ⟨_, rfl⟩
  rw [← named] at selected
  rcases realLogFile_cases infos request.logFile with failed | ⟨name, found⟩
  · simp only [selected, failed]
    exact .inl ⟨_, rfl⟩
  rcases followCell_cases (getLogConfInfo infos id) with ⟨failed, _⟩ | ⟨info, followed, cell⟩
  · simp only [selected, found, failed]
    exact .inl ⟨_, rfl⟩
  simp only [selected, found, followed]
  split_ifs
  · exact .inr ⟨_, _, rfl, .nothing⟩
  · cases Loglevl.ofInt request.level with
    | none => exact .inr ⟨_, _, rfl, .nothing⟩
    | some level =>
        simp only
        split_ifs
        · exact writeOutputs_effect nodes valid request answers selected cell found level
        · exact .inr ⟨_, _, rfl, .nothing⟩

end Effect

/-! ## Which messages fit -/

/-- The log name of a message; the null pointer stands for the default log. -/
def Request.logName (request : Request) : List Char :=
  request.logFile.getD defaultLogFileName

/-- The settings of the log name put a message of this level into a file. -/
def Request.goesToFile (request : Request) (infos : LogConfInfos)
    (names : Ref (List (List Char × ℕ))) : Bool :=
  match selectInfo infos names request.logFile with
  | .ok (_, info) =>
      info.irilogSwitch.logFile && (Loglevl.ofInt request.level).any info.irilogSwitch.admits
  | .error _ => false

/-- The log name has its NUL in `real_log_file`, and behind the directory it fits the
`logPath` of `get_log_file_node`. -/
def Request.nameFits (request : Request) (globalLogPath : List Char) : Bool :=
  request.logName.length < fileNameLen - 1 &&
    globalLogPath.length + request.logName.length < logpathMaxLen

section Complete

variable {infos : LogConfInfos} (complete : Complete infos) (log : Option (List Char))

include complete

theorem Complete.cell {id : ℕ} (inside : id < infos.len) :
    ∃ info, getLogConfInfo infos id = some info := by
  rw [getLogConfInfo, if_neg (Nat.not_le.mpr inside), List.getD_eq_getElem?_getD]
  have bound : id < infos.sinfo.length := by
    rw [complete.length]
    exact inside
  rcases present : infos.sinfo[id]? with _ | _ | info
  · exact absurd (List.getElem?_eq_none_iff.mp present) (Nat.not_le.mpr bound)
  · exact absurd (List.mem_of_getElem? present) complete.filled
  · exact ⟨info, rfl⟩

theorem Complete.selects :
    ∃ id info, selectInfoId infos (.live infos.names) log = .ok id ∧
      getLogConfInfo infos id = some info := by
  have special : ∀ id, id < infosIdStart → ∃ info, getLogConfInfo infos id = some info :=
    fun id small => complete.cell (Nat.lt_of_lt_of_le small complete.special)
  rcases special infosIdCtl (by decide) with ⟨ctl, found⟩
  have control : infos.sinfo.getD infosIdCtl none = some ctl := by
    rw [getLogConfInfo] at found
    split_ifs at found
    exact found
  have chosen : ∀ id, id < infos.len → selectInfoId infos (.live infos.names) log = .ok id →
      ∃ id info, selectInfoId infos (.live infos.names) log = .ok id ∧
        getLogConfInfo infos id = some info := by
    intro id inside selected
    rcases complete.cell inside with ⟨info, cell⟩
    exact ⟨id, info, selected, cell⟩
  have small : ∀ id, id < infosIdStart → id < infos.len :=
    fun id less => Nat.lt_of_lt_of_le less complete.special
  by_cases valid : ctl.isValid ≠ 0
  · refine chosen infosIdTotalSwitch (small _ (by decide)) ?_
    rw [selectInfoId.eq_def, control]
    exact if_pos valid
  cases log with
  | none =>
      refine chosen infosIdDefault (small _ (by decide)) ?_
      rw [selectInfoId, control]
      exact if_neg valid
  | some name =>
      have selected : selectInfoId infos (.live infos.names) (some name) =
          .ok ((HashTable.lookup (fun key => key) name infos.names).getD infosIdDefault) := by
        rw [selectInfoId, control]
        exact if_neg valid
      rcases looked : HashTable.lookup (fun key => key) name infos.names with _ | id
      · rw [looked] at selected
        exact chosen _ (small infosIdDefault (by decide)) selected
      · rw [looked] at selected
        exact chosen id (complete.leads name id looked) selected

theorem Complete.realLogFile_eq (request : Request) :
    realLogFile infos request.logFile =
      .ok (if request.logName.length < fileNameLen - 1 then some request.logName else none) := by
  rw [Request.logName]
  cases request.logFile with
  | some name => rfl
  | none =>
      rcases complete.default with ⟨default, cell, name⟩
      have short : defaultLogFileName.length < fileNameLen - 1 := by decide
      have followed : followCell (infos.sinfo.getD infosIdDefault none) = .ok default := by
        rw [List.getD_eq_getElem?_getD, cell]
        rfl
      rw [realLogFile, Option.getD_none, if_pos short, followed, ← name]
      rfl

/-- A write to the tables fails exactly for a message that goes to a file whose name or
path does not fit. -/
theorem writeSelected_fits {state : LogState} {store : NodeStore} (live : state.infos = .live infos)
    (named : state.confLogFileNames = .live infos.names) (nodes : state.logFileNodes = .live store)
    (valid : store.WellFormed) (request : Request) (answers : WriteAnswers) :
    (request.goesToFile infos state.confLogFileNames = true ∧
        request.nameFits state.globalLogPath = false ∧
        ∃ fault, writeSelected request answers state = .error fault ∧ fault ≠ .stop .exit) ∨
      ((request.goesToFile infos state.confLogFileNames = true →
          request.nameFits state.globalLogPath = true) ∧
        ∃ ret next, writeSelected request answers state = .ok (ret, next)) := by
  rcases complete.selects request.logFile with ⟨id, info, selected, cell⟩
  have followed : followGlobal .infos state.infos = .ok infos := by
    rw [live]
    rfl
  have found : followCell (getLogConfInfo infos id) = .ok info := by
    rw [cell]
    rfl
  have chosen : selectInfo infos state.confLogFileNames request.logFile = .ok (id, info) := by
    rw [selectInfo, named, Fallible.bind_ok selected, cell]
    rfl
  rw [writeSelected, Fallible.bind_ok followed, named,
    Fallible.bind_ok (Fallible.mapError_ok selected _),
    Fallible.bind_ok (complete.realLogFile_eq request), Fallible.bind_ok found]
  rw [Request.goesToFile, ← named, chosen]
  simp only
  by_cases closed : (!(info.irilogSwitch.logFile || info.irilogSwitch.logTerminal)) = true
  · have off : info.irilogSwitch.logFile = false := by
      simp at closed
      exact closed.1
    rw [if_pos closed, off]
    exact .inr ⟨by simp, _, _, rfl⟩
  rw [if_neg closed]
  rcases levelOf : Loglevl.ofInt request.level with _ | level
  · exact .inr ⟨by simp, _, _, rfl⟩
  simp only [Option.any_some]
  by_cases admitted : info.irilogSwitch.admits level = true
  swap
  · rw [if_neg admitted]
    exact .inr ⟨by simp [admitted], _, _, rfl⟩
  rw [if_pos admitted, writeOutputs_eq]
  by_cases toFile : info.irilogSwitch.logFile = true
  swap
  · rw [if_neg toFile]
    exact .inr ⟨by simp [toFile], _, _, rfl⟩
  rw [if_pos toFile, toFile, admitted, Request.nameFits]
  by_cases short : request.logName.length < fileNameLen - 1
  swap
  · rw [if_neg short]
    exact .inl ⟨rfl, by simp [short], .unterminated, rfl, by simp⟩
  rw [if_pos short]
  by_cases fits : 256 ≤ state.globalLogPath.length + request.logName.length
  · rw [@writeFile_outOfBounds store
      { state with world := announce info level request answers.reading state.world } nodes
      answers request.logName fits info id _]
    refine .inl ⟨rfl, ?_, .outOfBounds, rfl, by simp⟩
    rw [logpathMaxLen, decide_eq_false (Nat.not_lt.mpr fits), Bool.and_false]
  · rcases @writeFile_spec store valid request.logName info id answers
      (recordOf info level request answers.reading state.world)
      { state with world := announce info level request answers.reading state.world }
      nodes fits with ⟨ret, next, written, _⟩
    refine .inr ⟨fun _ => ?_, ret, _, written⟩
    simp [short, logpathMaxLen, Nat.not_le.mp fits]

end Complete

end Lctools.Log
