import Lctools.Log.Clock
import Lctools.Log.Select

/-! # Log files and the table of their nodes

The functions of `iridiumlog.c` between a log name and an open file: a node for
each name, in a hash table that owns the nodes.
-/

namespace Lctools.Log

open CString Numerals

/-! ## The outside -/

/-- What keeps a call of the log library from returning. -/
inductive LogFault where
  | pointer (fault : PointerFault)
  /-- `logPath` or the array of a parameter is accessed outside of its bounds. -/
  | outOfBounds
  /-- `real_log_file` is read without a terminating NUL. -/
  | unterminated
  | stop (stop : Stop)
  deriving DecidableEq, Repr

/-- `proc_name`, `host_name` and `proc_pid`. -/
structure Host where
  procName : List Char
  hostName : List Char
  procPid : ℤ
  procTerminated : procName.length < 64
  deriving DecidableEq, Repr

/-- What the log library does to files and to the terminal. Openings, the size
check and writes are labelled with the name of the node they are made for. -/
inductive Event where
  | opened (log path : List Char) (fd : ℤ)
  | closed (fd : ℤ)
  | locked (fd : ℤ)
  | unlocked (fd : ℤ)
  | fstat (log : List Char) (succeeded : Bool)
  | wrote (log path record : List Char) (written : ℤ)
  | printed (record : List Char)
  deriving DecidableEq, Repr

/-- The process and its clock, with the events so far, the newest first. -/
structure World where
  host : Host
  clock : Clock
  events : List Event
  deriving DecidableEq, Repr

def World.add (world : World) (event : Event) : World :=
  { world with events := event :: world.events }

@[simp] theorem World.add_events (world : World) (event : Event) :
    (world.add event).events = event :: world.events := rfl

/-- What `create_log_file_fd` meets: the clock, and what `open` returns. -/
structure Opening where
  reading : Reading
  fd : ℤ
  deriving DecidableEq, Repr

/-! ## Files -/

/-- `log_file_node_t`. The last field is no part of it: it remembers the path that
`fd` was opened with. -/
structure LogFileNode where
  name : List Char
  date : List Char
  fd : ℤ
  times : ℕ
  fileSize : ℕ
  id : ℕ
  path : List Char
  deriving DecidableEq, Repr

/-- `%s.%s.%s.%s.%d.log`. -/
def newFileName (host : Host) (name date : List Char) : List Char :=
  snprintf 256 (host.procName ++ ['.'] ++ name ++ ['.'] ++ date ++ ['.'] ++ host.hostName ++
    ['.'] ++ decimalInt host.procPid ++ ".log".toList)

/-- `create_log_file_fd`. Its path always fits: `global_log_path` and the file
name have at most 255 characters each. -/
def createLogFileFd (globalLogPath : List Char) (opening : Opening) (node : LogFileNode)
    (world : World) : LogFileNode × World :=
  let world := if 0 < node.fd then world.add (.closed node.fd) else world
  let (tmNow, clock) := getLocaltime opening.reading world.clock
  let date := dateText tmNow
  let path := globalLogPath ++ newFileName world.host node.name date
  ({ node with date := date, path := path, fd := if 0 < opening.fd then opening.fd else -1 },
    { world with clock := clock }.add (.opened node.name path opening.fd))

section CreateLogFileFd

variable (globalLogPath : List Char) (opening : Opening) (node : LogFileNode) (world : World)

@[simp] theorem createLogFileFd_name :
    (createLogFileFd globalLogPath opening node world).1.name = node.name := by
  rw [createLogFileFd]

@[simp] theorem createLogFileFd_fd :
    (createLogFileFd globalLogPath opening node world).1.fd =
      if 0 < opening.fd then opening.fd else -1 := by
  rw [createLogFileFd]

@[simp] theorem createLogFileFd_times :
    (createLogFileFd globalLogPath opening node world).1.times = node.times := by
  rw [createLogFileFd]

@[simp] theorem createLogFileFd_fileSize :
    (createLogFileFd globalLogPath opening node world).1.fileSize = node.fileSize := by
  rw [createLogFileFd]

end CreateLogFileFd

def newLogFileNode (globalLogPath : List Char) (opening : Opening) (info : SingleLogConfInfo)
    (id : ℕ) (logFile : Option (List Char)) (world : World) : LogFileNode × World :=
  let name :=
    match logFile with
    | some logFile => snprintf fileNameLen logFile
    | none => info.name
  createLogFileFd globalLogPath opening ⟨name, [], 0, 0, 0, id, []⟩ world

/-! ## The table -/

/-- `log_file_nodes`: the names with the addresses of their nodes, and the nodes
that were ever made. -/
structure NodeStore where
  table : List (List Char × ℕ)
  nodes : List (Ref LogFileNode)
  deriving DecidableEq, Repr

def NodeStore.empty : NodeStore := ⟨[], []⟩

/-- `g_hash_table_lookup(log_file_nodes, log_file)`. -/
def NodeStore.lookup (store : NodeStore) (logFile : List Char) : Option ℕ :=
  HashTable.lookup (fun key => key) logFile store.table

def NodeStore.load (store : NodeStore) (address : ℕ) : Except LogFault LogFileNode :=
  ((store.nodes.getD address .null).deref).mapError fun fault => .pointer ⟨.node, fault⟩

def NodeStore.save (store : NodeStore) (address : ℕ) (node : LogFileNode) : NodeStore :=
  { store with nodes := store.nodes.set address (.live node) }

/-- `g_hash_table_insert(log_file_nodes, key_name, new_node)`: the node that an
equal key had is freed. -/
def NodeStore.insert (store : NodeStore) (keyName : List Char) (node : LogFileNode) :
    ℕ × NodeStore :=
  let nodes :=
    match store.lookup keyName with
    | some old => store.nodes.set old .freed
    | none => store.nodes
  (store.nodes.length,
    { table := HashTable.insert (fun key => key) keyName store.nodes.length store.table
      nodes := nodes ++ [.live node] })

/-- The part of `get_log_file_node` that holds `hash_lock`. -/
def createAndInsert (globalLogPath : List Char) (opening : Opening) (logFile : List Char)
    (info : SingleLogConfInfo) (id : ℕ) (store : NodeStore) (world : World) :
    (ℕ × NodeStore) × World :=
  let (newNode, world) := newLogFileNode globalLogPath opening info id (some logFile) world
  (store.insert logFile newNode, world)

/-- `get_log_file_node`: the address of the node, `none` for a null pointer. -/
def getLogFileNode (globalLogPath : List Char) (opening : Opening) (logFile : List Char)
    (info : SingleLogConfInfo) (id : ℕ) (logFileNodes : Ref NodeStore) (world : World) :
    Except LogFault (Option ℕ × Ref NodeStore × World) := do
  if logFileNodes.isNull then .ok (none, logFileNodes, world)
  else if 256 ≤ globalLogPath.length + logFile.length then .error .outOfBounds
  else
    let store ← (logFileNodes.deref).mapError fun fault => .pointer ⟨.logFileNodes, fault⟩
    match store.lookup logFile with
    | some address =>
        let ret ← store.load address
        if ret.fd < 0 then
          let (ret, world) := createLogFileFd globalLogPath opening ret world
          .ok (some address, .live (store.save address ret), world)
        else
          .ok (some address, logFileNodes, world)
    | none =>
        let ((address, store), world) :=
          createAndInsert globalLogPath opening logFile info id store world
        .ok (some address, .live store, world)

end Lctools.Log
