import Lctools.Foundation.Scratch
import Lctools.Log.Terminal

/-! # The arrays in which paths are put together

Four functions of `iridiumlog.c` copy the log directory, the log name and the name
of the file into arrays of different sizes. Here every copy goes into cells of
memory, so that what does not fit is a fault, and the copies are made in the order of
the source, as far as a message gets.
-/

namespace Lctools.Log

open CString

/-! ## The program -/

/-- `global_log_path`, a zeroed array. The empty string has no last character. -/
def globalLogPathArray (logpath : Option (List Char)) :
    Except Scratch.Fault (List (Option Char)) := do
  let cells := List.replicate logpathMaxLen (some nul)
  match logpath with
  | none => Scratch.strcpy cells irilogPath
  | some logpath =>
      match (text logpath).getLast? with
      | none => .error (.outOfBounds (2 ^ 64 - 1))
      | some last =>
          Scratch.snprintf cells (logpathMaxLen - 1)
            (irilogPath ++ text logpath ++ if last ≠ '/' then ['/'] else [])

/-- `real_log_file`. -/
def realLogFileArray (logFile : Option (List Char)) :
    Except Scratch.Fault (List (Option Char)) :=
  match logFile with
  | none => Scratch.strcpy (Scratch.fresh fileNameLen) defaultLogFileName
  | some logFile => Scratch.strncpy (Scratch.fresh fileNameLen) logFile (fileNameLen - 1)

/-- `logPath` of the given size, with a name behind the log directory. -/
def joinPath (size : ℕ) (globalLogPath name : List Char) :
    Except Scratch.Fault (List Char) := do
  let cells ← Scratch.strcpy (Scratch.fresh size) globalLogPath
  let oriLen := (text globalLogPath).length
  let nameLen := (text name).length
  let cells ← Scratch.copy cells oriLen (text name)
  let cells ← Scratch.store cells (oriLen + nameLen) nul
  Scratch.readText cells

/-- `new_file_name`. -/
def newFileNameArray (host : Host) (name date : List Char) :
    Except Scratch.Fault (List (Option Char)) :=
  Scratch.snprintf (Scratch.fresh 256) 256
    (host.procName ++ ['.'] ++ name ++ ['.'] ++ date ++ ['.'] ++ host.hostName ++ ['.'] ++
      Numerals.decimalInt host.procPid ++ ".log".toList)

/-- The two arrays of `create_log_file_fd`. -/
def createPaths (host : Host) (globalLogPath name : List Char) (tm : Tm) :
    Except Scratch.Fault (List (List Char)) := do
  let newFileName ← newFileNameArray host name (dateText tm) >>= Scratch.readText
  let filePath ← joinPath (logpathMaxLen + 256) globalLogPath newFileName
  .ok [newFileName, filePath]

/-- The arrays of `get_log_file_node`; `found` is the node that the name has already. -/
def nodePaths (host : Host) (globalLogPath realLogFile : List Char) (opened : Tm)
    (found : Option LogFileNode) : Except Scratch.Fault (List (List Char)) := do
  let nodePath ← joinPath logpathMaxLen globalLogPath realLogFile
  match found with
  | none =>
      let created ← createPaths host globalLogPath (snprintf fileNameLen realLogFile) opened
      .ok (nodePath :: created)
  | some node =>
      if node.fd < 0 then
        let created ← createPaths host globalLogPath node.name opened
        .ok (nodePath :: created)
      else
        .ok [nodePath]

def rotationPaths (host : Host) (globalLogPath : List Char) (rotated : Tm)
    (info : SingleLogConfInfo) (answers : WriteAnswers) (node : LogFileNode) :
    Except Scratch.Fault (List (List Char)) :=
  if 0 < node.fd ∧ writeTimes < node.times ∧ info.singleMaxSize < node.fileSize ∧
      answers.fstatOk then
    createPaths host globalLogPath node.name rotated
  else
    .ok []

/-- The arrays that a write fills once its record is known. It returns before
`get_log_file_node` without an output, for an unknown or closed level, and without
`log_file`. -/
def outputPaths (host : Host) (globalLogPath realLogFile : List Char) (opened rotated : Tm)
    (info : SingleLogConfInfo) (id : ℕ) (request : Request) (answers : WriteAnswers)
    (store : NodeStore) (world : World) : Except Scratch.Fault (List (List Char)) := do
  let switch := info.irilogSwitch
  if !(switch.logFile || switch.logTerminal) then .ok []
  else
    match Loglevl.ofInt request.level with
    | none => .ok []
    | some level =>
        if !switch.admits level then .ok []
        else if !switch.logFile then .ok []
        else
          let found := store.find realLogFile
          let paths ← nodePaths host globalLogPath realLogFile opened found
          let (node, _) :=
            acquireNode globalLogPath answers.opening realLogFile info id found world
          let rotation ← rotationPaths host globalLogPath rotated info answers node
          .ok (paths ++ rotation)

/-- The arrays of `transparent_iridium_write_log` in an initialised library. Nothing is
put together when the log is closed or the timer discards the message. -/
def writePaths (host : Host) (globalLogPath : List Char) (opened rotated : Tm)
    (request : Request) (answers : WriteAnswers) (state : LogState) :
    Except Scratch.Fault (List (List Char)) := do
  if state.closeLogFlag = 1 then .ok []
  else if debugClosed request answers.now state then .ok []
  else
    match state.infos, state.logFileNodes with
    | .live infos, .live store =>
        match selectInfo infos state.confLogFileNames request.logFile with
        | .error _ => .ok []
        | .ok (id, info) =>
            let realLogFile ← realLogFileArray request.logFile >>= Scratch.readText
            let paths ← outputPaths host globalLogPath realLogFile opened rotated info id request
              answers store state.world
            .ok (realLogFile :: paths)
    | _, _ => .ok []

/-- The strings in all arrays of `iridium_init_log` and of a later write, each read up to
its NUL. The files are opened at the times `opened` and `rotated`. -/
def assemblePaths (host : Host) (opened rotated : Tm) (logpath : Option (List Char))
    (request : Request) (answers : WriteAnswers) (state : LogState) :
    Except Scratch.Fault (List (List Char)) := do
  let globalLogPath ← globalLogPathArray logpath >>= Scratch.readText
  let paths ← writePaths host globalLogPath opened rotated request answers state
  .ok (globalLogPath :: paths)

/-! ## What fits -/

/-- The log directory: cut off at 254 characters. -/
def directoryOf : (logpath : Option (List Char)) → List Char
  | none => irilogPath
  | some logpath =>
      snprintf (logpathMaxLen - 1) (irilogPath ++ text logpath ++
        if (text logpath).getLast? ≠ some '/' then ['/'] else [])

def nameOf : (logFile : Option (List Char)) → List Char
  | none => defaultLogFileName
  | some logFile => text logFile

/-- The message gets as far as `get_log_file_node`. -/
def reachesNode (request : Request) (state : LogState) : Bool :=
  match state.infos with
  | .live infos => request.goesToFile infos state.confLogFileNames
  | _ => false

/-- The directory has a last character. A message that no timer discards has a name that
leaves room for a NUL in `real_log_file`, and if it gets as far as `get_log_file_node`,
directory and name fit `logPath` there with a NUL. -/
def pathsFit (logpath : Option (List Char)) (request : Request) (now : ℤ) (state : LogState) :
    Bool :=
  logpath.map text ≠ some [] && (debugClosed request now state ||
    (nameOf request.logFile).length ≤ fileNameLen - 2 && (!reachesNode request state ||
      (directoryOf logpath).length + (nameOf request.logFile).length < logpathMaxLen))

theorem readText_snprintf {cells : List (Option Char)} {size : ℕ} (fits : size ≤ cells.length)
    (positive : 0 < size) (formatted : List Char) :
    (Scratch.snprintf cells size formatted >>= Scratch.readText) =
      .ok (text (snprintf size formatted)) := by
  have room : (formatted.take (size - 1) ++ [nul]).length ≤ cells.length := by
    rw [List.length_append, List.length_singleton, List.length_take]
    omega
  rw [Scratch.snprintf, Fallible.bind_ok (Scratch.copy_start room), Scratch.readText_terminated]
  rfl

theorem readText_strcpy {cells : List (Option Char)} {source : List Char}
    (fits : (text source).length < cells.length) :
    (Scratch.strcpy cells source >>= Scratch.readText) = .ok (text source) := by
  have room : (text source ++ [nul]).length ≤ cells.length := by
    rw [List.length_append, List.length_singleton]
    omega
  rw [Scratch.strcpy, Fallible.bind_ok (Scratch.copy_start room), Scratch.readText_terminated,
    text_text]

/-! ## The arrays one by one -/

theorem nul_not_mem_directoryOf (logpath : Option (List Char)) : nul ∉ directoryOf logpath := by
  cases logpath with
  | none => decide
  | some logpath =>
      intro member
      have inside := List.mem_of_mem_take member
      have slash : nul ∉ if (text logpath).getLast? ≠ some '/' then ['/'] else [] := by
        split <;> decide
      simp only [List.mem_append] at inside
      rcases inside with (root | given) | ending
      · exact absurd root (by decide)
      · exact nul_not_mem_text logpath given
      · exact slash ending

theorem globalLogPathArray_empty {logpath : Option (List Char)}
    (empty : logpath.map text = some []) :
    ∃ fault, globalLogPathArray logpath = .error fault := by
  rcases Option.map_eq_some_iff.mp empty with ⟨path, rfl, nothing⟩
  exact ⟨_, by rw [globalLogPathArray]; simp only [nothing]; rfl⟩

theorem readText_globalLogPathArray {logpath : Option (List Char)}
    (given : logpath.map text ≠ some []) :
    (globalLogPathArray logpath >>= Scratch.readText) = .ok (directoryOf logpath) := by
  have terminated := text_of_no_nul (nul_not_mem_directoryOf logpath)
  cases logpath with
  | none =>
      exact readText_strcpy (by
        rw [List.length_replicate]
        decide)
  | some path =>
      have nonempty : text path ≠ [] := by
        simpa using given
      rcases last : (text path).getLast? with _ | c
      · exact absurd (List.getLast?_eq_none_iff.mp last) nonempty
      · rw [directoryOf, last] at terminated ⊢
        rw [globalLogPathArray]
        simp only [last, ne_eq, Option.some.injEq] at terminated ⊢
        rw [readText_snprintf (by rw [List.length_replicate]; decide) (by decide), terminated]

theorem readText_realLogFileArray (logFile : Option (List Char)) :
    (realLogFileArray logFile >>= Scratch.readText) =
      if (nameOf logFile).length ≤ fileNameLen - 2 then .ok (nameOf logFile)
      else .error .uninitialised := by
  cases logFile with
  | none =>
      exact readText_strcpy (by
        rw [Scratch.length_fresh]
        decide)
  | some name =>
      rw [realLogFileArray, Scratch.strncpy, nameOf]
      generalize textEqual : text name = chars
      have clean : nul ∉ chars := by
        rw [← textEqual]
        exact nul_not_mem_text name
      have room : (chars.take (fileNameLen - 1) ++
          List.replicate (fileNameLen - 1 - chars.length) nul).length = fileNameLen - 1 := by
        rw [List.length_append, List.length_take, List.length_replicate]
        omega
      have rest : (Scratch.fresh fileNameLen : List (Option Char)).drop (fileNameLen - 1) =
          [none] := by
        rw [Scratch.fresh, List.drop_replicate]
        rfl
      rw [Fallible.bind_ok (Scratch.copy_start (by rw [room, Scratch.length_fresh]; decide)), room,
        rest]
      by_cases short : chars.length ≤ fileNameLen - 2
      · have padding : List.replicate (fileNameLen - 1 - chars.length) nul =
            nul :: List.replicate (fileNameLen - 2 - chars.length) nul := by
          rw [← List.replicate_succ]
          congr 1
          simp only [fileNameLen] at short ⊢
          omega
        rw [if_pos short, List.take_of_length_le (by omega), padding]
        have read := Scratch.readText_terminated chars
          ((List.replicate (fileNameLen - 2 - chars.length) nul).map some ++ [none])
        rw [text_of_no_nul clean] at read
        simpa using read
      · have full : fileNameLen - 1 - chars.length = 0 := by omega
        rw [if_neg short, full, List.replicate_zero, List.append_nil]
        exact Scratch.readText_unterminated (fun member => clean (List.mem_of_mem_take member)) []

theorem readText_newFileNameArray (host : Host) (name date : List Char) :
    (newFileNameArray host name date >>= Scratch.readText) =
      .ok (text (newFileName host name date)) :=
  readText_snprintf (by rw [Scratch.length_fresh]) (by decide) _

theorem joinPath_eq (size : ℕ) (globalLogPath name : List Char) :
    (text globalLogPath).length + (text name).length < size ∧
      joinPath size globalLogPath name = .ok (text globalLogPath ++ text name) ∨
    size ≤ (text globalLogPath).length + (text name).length ∧
      ∃ fault, joinPath size globalLogPath name = .error fault := by
  have cleanDirectory := nul_not_mem_text globalLogPath
  have cleanName := nul_not_mem_text name
  rw [joinPath, Scratch.strcpy]
  generalize text globalLogPath = directory at cleanDirectory ⊢
  generalize text name = chars at cleanName ⊢
  by_cases roomDirectory : size ≤ directory.length
  · refine .inr ⟨by omega, _, Fallible.bind_error (Scratch.copy_error ?_) _⟩
    rw [Scratch.length_fresh, List.length_append, List.length_singleton]
    omega
  · have room : (directory ++ [nul]).length ≤ (Scratch.fresh size : List (Option Char)).length := by
      rw [List.length_append, List.length_singleton, Scratch.length_fresh]
      omega
    rw [Fallible.bind_ok (Scratch.copy_start room), List.map_append, List.append_assoc]
    simp only
    generalize restEqual : [nul].map some ++
      (Scratch.fresh size : List (Option Char)).drop (directory ++ [nul]).length = rest
    have restLength : directory.length + rest.length = size := by
      rw [← restEqual]
      simp only [List.length_append, List.length_map, List.length_drop, Scratch.length_fresh,
        List.length_singleton] at room ⊢
      omega
    by_cases roomName : chars.length ≤ rest.length
    · rw [Fallible.bind_ok (Scratch.copy_behind directory roomName)]
      rcases behind : rest.drop chars.length with _ | ⟨cell, cells⟩
      · have full := List.drop_eq_nil_iff.mp behind
        refine .inr ⟨by omega, _, Fallible.bind_error (if_neg ?_) _⟩
        simp
      · have shorter := congrArg List.length behind
        rw [List.length_drop, List.length_cons] at shorter
        refine .inl ⟨by omega, ?_⟩
        have clean : nul ∉ directory ++ chars := by
          rw [List.mem_append, not_or]
          exact ⟨cleanDirectory, cleanName⟩
        have stored := Scratch.store_append (directory ++ chars) cell cells nul
        rw [List.length_append] at stored
        rw [Fallible.bind_ok stored, Scratch.readText_terminated, text_of_no_nul clean]
    · refine .inr ⟨by omega, _, Fallible.bind_error (Scratch.copy_error ?_) _⟩
      rw [List.length_append, List.length_map]
      omega

/-! ## All arrays -/

theorem directoryOf_length (logpath : Option (List Char)) :
    (directoryOf logpath).length ≤ logpathMaxLen - 2 := by
  cases logpath with
  | none => decide
  | some path =>
      rw [directoryOf, snprintf]
      exact List.length_take_le _ _

/-- The path of a file always fits: only the path that `get_log_file_node` puts
together and never uses can be too long. -/
theorem joinPath_file (host : Host) (name date : List Char) (logpath : Option (List Char)) :
    ∃ path, joinPath (logpathMaxLen + 256) (directoryOf logpath)
      (text (newFileName host name date)) = .ok path := by
  have directory := directoryOf_length logpath
  have file : (newFileName host name date).length ≤ 255 := List.length_take_le 255 _
  have shorter := text_length_le (newFileName host name date)
  have sameDirectory := text_length_le (directoryOf logpath)
  rcases joinPath_eq (logpathMaxLen + 256) (directoryOf logpath)
    (text (newFileName host name date)) with ⟨_, joined⟩ | ⟨long, _⟩
  · exact ⟨_, joined⟩
  · rw [text_text] at long
    simp only [logpathMaxLen] at long directory
    omega

theorem nul_not_mem_nameOf (logFile : Option (List Char)) : nul ∉ nameOf logFile := by
  cases logFile with
  | none => decide
  | some name => exact nul_not_mem_text name

/-! ## The strings of the model -/

section Strings

variable {logpath : Option (List Char)} (clean : ∀ path ∈ logpath, nul ∉ path)
  (accepted : ∀ path ∈ logpath, path.head? ≠ some '/')

include clean accepted

theorem initPath_toOption :
    (initPath logpath).toOption =
      (globalLogPathArray logpath >>= Scratch.readText).toOption := by
  by_cases empty : logpath.map text = some []
  · rcases globalLogPathArray_empty empty with ⟨fault, failed⟩
    rcases Option.map_eq_some_iff.mp empty with ⟨path, rfl, nothing⟩
    rw [text_of_no_nul (clean path rfl)] at nothing
    rw [Fallible.bind_error failed, nothing]
    rfl
  · rw [readText_globalLogPathArray empty]
    cases logpath with
    | none => rfl
    | some path =>
        have whole := text_of_no_nul (clean path rfl)
        rw [directoryOf]
        rw [Option.map_some, whole] at empty
        rw [whole]
        cases path with
        | nil => exact absurd rfl empty
        | cons first rest =>
            have relative : first ≠ '/' := by
              simpa using accepted _ rfl
            rw [initPath, if_neg relative]
            by_cases slash : (first :: rest).getLast? = some '/'
            · rw [if_pos slash, if_neg (not_not.mpr slash)]
              rfl
            · rw [if_neg slash, if_pos slash]
              rfl

end Strings

theorem realLogFile_array (infos : LogConfInfos) {name : List Char} (clean : nul ∉ name) :
    realLogFile infos (some name) =
      .ok (realLogFileArray (some name) >>= Scratch.readText).toOption := by
  rw [readText_realLogFileArray, nameOf, text_of_no_nul clean, realLogFile]
  by_cases short : name.length < fileNameLen - 1
  · have enough : name.length ≤ fileNameLen - 2 := Nat.le_sub_one_of_lt short
    rw [if_pos short, if_pos enough]
    rfl
  · have long : ¬name.length ≤ fileNameLen - 2 := by
      simp only [fileNameLen] at short ⊢
      omega
    rw [if_neg short, if_neg long]
    rfl

theorem getLogFileNode_joinPath {globalLogPath logFile : List Char}
    (cleanPath : nul ∉ globalLogPath) (cleanName : nul ∉ logFile) {store : NodeStore}
    (opening : Opening) (info : SingleLogConfInfo) (id : ℕ) (world : World)
    {fault : Scratch.Fault} (failed : joinPath logpathMaxLen globalLogPath logFile = .error fault) :
    getLogFileNode globalLogPath opening logFile info id (.live store) world =
      .error .outOfBounds := by
  rcases joinPath_eq logpathMaxLen globalLogPath logFile with ⟨_, joined⟩ | ⟨long, _⟩
  · rw [joined] at failed
    cases failed
  · rw [text_of_no_nul cleanPath, text_of_no_nul cleanName] at long
    rw [getLogFileNode]
    simp only [Ref.isNull, Bool.false_eq_true, if_false]
    exact if_pos long

section Assembled

variable (host : Host) (opened rotated : Tm) (logpath : Option (List Char))

theorem createPaths_ok (name : List Char) (tm : Tm) :
    ∃ paths, createPaths host (directoryOf logpath) name tm = .ok paths := by
  rcases joinPath_file host name (dateText tm) logpath with ⟨path, joined⟩
  exact ⟨_, (Fallible.bind_ok (readText_newFileNameArray ..) _).trans (Fallible.bind_ok joined _)⟩

theorem rotationPaths_ok (info : SingleLogConfInfo) (answers : WriteAnswers)
    (node : LogFileNode) :
    ∃ paths, rotationPaths host (directoryOf logpath) rotated info answers node = .ok paths := by
  rw [rotationPaths]
  split_ifs
  · exact createPaths_ok host logpath node.name rotated
  · exact ⟨_, rfl⟩

/-- Only the path that is never used can be too long. -/
theorem nodePaths_ok_iff (logFile : Option (List Char)) (found : Option LogFileNode) :
    (∃ paths, nodePaths host (directoryOf logpath) (nameOf logFile) opened found = .ok paths) ↔
      (directoryOf logpath).length + (nameOf logFile).length < logpathMaxLen := by
  have joined := joinPath_eq logpathMaxLen (directoryOf logpath) (nameOf logFile)
  rw [text_of_no_nul (nul_not_mem_directoryOf logpath),
    text_of_no_nul (nul_not_mem_nameOf logFile)] at joined
  rw [nodePaths]
  rcases joined with ⟨fits, joined⟩ | ⟨long, fault, failed⟩
  · rw [Fallible.bind_ok joined]
    apply iff_of_true _ fits
    cases found with
    | none =>
        rcases createPaths_ok host logpath (snprintf fileNameLen (nameOf logFile)) opened with
          ⟨created, computed⟩
        exact ⟨_, Fallible.bind_ok computed _⟩
    | some node =>
        simp only
        split_ifs
        · rcases createPaths_ok host logpath node.name opened with ⟨created, computed⟩
          exact ⟨_, Fallible.bind_ok computed _⟩
        · exact ⟨_, rfl⟩
  · rw [Fallible.bind_error failed]
    refine iff_of_false ?_ (Nat.not_lt.mpr long)
    rintro ⟨paths, assembled⟩
    cases assembled

theorem outputPaths_ok_iff (info : SingleLogConfInfo) (id : ℕ) (request : Request)
    (answers : WriteAnswers) (store : NodeStore) (world : World) :
    (∃ paths, outputPaths host (directoryOf logpath) (nameOf request.logFile) opened rotated info
        id request answers store world = .ok paths) ↔
      (info.irilogSwitch.logFile = true ∧
          (Loglevl.ofInt request.level).any info.irilogSwitch.admits = true →
        (directoryOf logpath).length + (nameOf request.logFile).length < logpathMaxLen) := by
  rw [outputPaths]
  by_cases closed : (!(info.irilogSwitch.logFile || info.irilogSwitch.logTerminal)) = true
  · have off : info.irilogSwitch.logFile = false := by
      simp at closed
      exact closed.1
    rw [if_pos closed, off]
    exact iff_of_true ⟨[], rfl⟩ (by simp)
  rw [if_neg closed]
  rcases Loglevl.ofInt request.level with _ | level
  · simp
  simp only [Option.any_some]
  rcases admitted : info.irilogSwitch.admits level with _ | _
  · simp
  rcases toFile : info.irilogSwitch.logFile with _ | _
  · simp
  simp only [Bool.not_true, Bool.false_eq_true, if_false, true_and, forall_const]
  rw [← nodePaths_ok_iff host opened logpath request.logFile
    (store.find (nameOf request.logFile))]
  rcases nodePaths host (directoryOf logpath) (nameOf request.logFile) opened
    (store.find (nameOf request.logFile)) with fault | paths
  · refine iff_of_false ?_ ?_
    · rintro ⟨paths, assembled⟩
      cases assembled
    · rintro ⟨paths, assembled⟩
      cases assembled
  · rcases rotationPaths_ok host rotated logpath info answers
      (acquireNode (directoryOf logpath) answers.opening (nameOf request.logFile) info id
        (store.find (nameOf request.logFile)) world).1 with ⟨rotation, computed⟩
    exact iff_of_true ⟨_, Fallible.bind_ok computed _⟩ ⟨paths, rfl⟩

theorem writePaths_ok_iff {state : LogState} (ready : InPhase .ready state) (request : Request)
    (answers : WriteAnswers) :
    (∃ paths, writePaths host (directoryOf logpath) opened rotated request answers state =
        .ok paths) ↔
      (debugClosed request answers.now state ||
        (nameOf request.logFile).length ≤ fileNameLen - 2 && (!reachesNode request state ||
          (directoryOf logpath).length + (nameOf request.logFile).length < logpathMaxLen)) =
        true := by
  rcases ready.pointers with ⟨infos, store, live, named, nodes, _, complete, _⟩
  rcases complete.selects request.logFile with ⟨id, info, selected, cell⟩
  have chosen : selectInfo infos state.confLogFileNames request.logFile = .ok (id, info) := by
    rw [selectInfo, named, Fallible.bind_ok selected, cell]
    rfl
  have opened' : state.closeLogFlag ≠ 1 := by
    rw [ready.opened]
    decide
  rw [writePaths, if_neg opened', reachesNode, live, nodes]
  rcases debugClosed request answers.now state with _ | _
  swap
  · exact iff_of_true ⟨[], rfl⟩ rfl
  simp only [Bool.false_eq_true, if_false, Bool.false_or, Request.goesToFile, chosen]
  rw [readText_realLogFileArray]
  by_cases short : (nameOf request.logFile).length ≤ fileNameLen - 2
  swap
  · rw [if_neg short, decide_eq_false short]
    refine iff_of_false ?_ (by simp)
    rintro ⟨paths, assembled⟩
    cases assembled
  rw [if_pos short, decide_eq_true short, Fallible.bind_ok rfl]
  have output := outputPaths_ok_iff host opened rotated logpath info id request answers store
    state.world
  simp only [Bool.true_and, Bool.or_eq_true, Bool.not_eq_true', decide_eq_true_eq,
    ← Bool.not_eq_true, Bool.and_eq_true, ← imp_iff_not_or]
  rw [← output]
  constructor
  · rintro ⟨paths, assembled⟩
    rcases Fallible.of_bind_ok assembled with ⟨rest, computed, _⟩
    exact ⟨rest, computed⟩
  · rintro ⟨rest, computed⟩
    exact ⟨_, Fallible.bind_ok computed _⟩

end Assembled

/-- All arrays that a message gets to hold a terminated string exactly if the directory is
not the empty string and, unless a timer discards the message, the log name has at most
126 characters, and for a message that goes to a file the directory and the name together
have at most 255. -/
theorem assemblePaths_ok_iff (host : Host) (opened rotated : Tm) (logpath : Option (List Char))
    (request : Request) (answers : WriteAnswers) {state : LogState}
    (ready : InPhase .ready state) :
    (∃ paths, assemblePaths host opened rotated logpath request answers state = .ok paths) ↔
      pathsFit logpath request answers.now state = true := by
  rw [assemblePaths, pathsFit, Bool.and_eq_true, decide_eq_true_eq,
    ← writePaths_ok_iff host opened rotated logpath ready request answers]
  by_cases empty : logpath.map text = some []
  · rcases globalLogPathArray_empty empty with ⟨fault, failed⟩
    rw [Fallible.bind_error failed]
    refine iff_of_false ?_ (fun fits => fits.1 empty)
    rintro ⟨paths, assembled⟩
    cases assembled
  · rw [Fallible.bind_ok (readText_globalLogPathArray empty)]
    constructor
    · rintro ⟨paths, assembled⟩
      rcases Fallible.of_bind_ok assembled with ⟨rest, computed, _⟩
      exact ⟨empty, rest, computed⟩
    · rintro ⟨_, rest, computed⟩
      exact ⟨_, Fallible.bind_ok computed _⟩

theorem initedState_ready : InPhase .ready (initedState defaultInfos) where
  initFlag := rfl
  opened := rfl
  timer := by
    intro early
    cases early with
    | inl fresh => cases fresh
    | inr failed => cases failed
  pointers := by
    have loading : getLogConfInfos nul id .missing = .ok defaultInfos := rfl
    exact ⟨defaultInfos, .empty, rfl, rfl, rfl, getLogConfInfos_loaded loading,
      getLogConfInfos_complete loading, NodeStore.wellFormed_empty⟩

def pathsHost : Host := ⟨"app".toList, "box".toList, 1, sampleProcName_short⟩

/-- A message of some level for a log, with the default settings. -/
def namedRequest (logFile : List Char) (level : ℤ) : Request :=
  { sampleRequest with logFile := some logFile, level := level }

/-- A debug message, which the default settings discard, never gets to the path that is
too long for an INFO message. -/
theorem assemblePaths_closed_level :
    ∃ paths, assemblePaths pathsHost .zero .zero (some (List.replicate 120 'a'))
      (namedRequest (List.replicate 120 'b') 1) (sampleAnswers withoutFile)
      (initedState defaultInfos) = .ok paths :=
  (assemblePaths_ok_iff pathsHost .zero .zero _ _ _ initedState_ready).mpr (by decide +kernel)

/-- INFO messages with an empty directory, with a log name of 127 characters, and with a
directory and a log name of 120 characters each. -/
theorem not_assemblePaths_long :
    (∀ paths, assemblePaths pathsHost .zero .zero (some []) sampleRequest
      (sampleAnswers withoutFile) (initedState defaultInfos) ≠ .ok paths) ∧
    (∀ paths, assemblePaths pathsHost .zero .zero none
      (namedRequest (List.replicate 127 'b') 2) (sampleAnswers withoutFile)
      (initedState defaultInfos) ≠ .ok paths) ∧
    ∀ paths, assemblePaths pathsHost .zero .zero (some (List.replicate 120 'a'))
      (namedRequest (List.replicate 120 'b') 2) (sampleAnswers withoutFile)
      (initedState defaultInfos) ≠ .ok paths := by
  have empty : assemblePaths pathsHost .zero .zero (some []) sampleRequest
      (sampleAnswers withoutFile) (initedState defaultInfos) =
      .error (.outOfBounds (2 ^ 64 - 1)) := by
    decide +kernel
  have name : assemblePaths pathsHost .zero .zero none
      (namedRequest (List.replicate 127 'b') 2) (sampleAnswers withoutFile)
      (initedState defaultInfos) = .error .uninitialised := by
    decide +kernel
  have both : assemblePaths pathsHost .zero .zero (some (List.replicate 120 'a'))
      (namedRequest (List.replicate 120 'b') 2) (sampleAnswers withoutFile)
      (initedState defaultInfos) = .error (.outOfBounds 256) := by
    decide +kernel
  rw [empty, name, both]
  exact ⟨nofun, nofun, nofun⟩

end Lctools.Log
