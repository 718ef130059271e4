import Lctools.Log.Appended

/-! # What a write does to the files

The events of the parts of a write to the node of a log, and when it goes over to
another file.
-/

namespace Lctools.Log

open CString

/-- The path of a file that is opened at a given time. -/
def pathAt (globalLogPath : List Char) (host : Host) (log : List Char) (tm : Tm) : List Char :=
  globalLogPath ++ newFileName host log (dateText tm)

/-- The size check would go over to another file, and the file can be opened. -/
def ChangesFile (info : SingleLogConfInfo) (answers : WriteAnswers) : Option LogFileNode → Prop
  | none => False
  | some node => writeTimes < node.times ∧ info.singleMaxSize < node.fileSize ∧
      answers.fstatOk = true ∧ 0 < answers.rotation.fd

/-! ## Opening -/

section Opening

variable {globalLogPath logFile : List Char} {opening : Opening} {info : SingleLogConfInfo} {id : ℕ}
  {answers : WriteAnswers} {node : LogFileNode} {world : World}

theorem createLogFileFd_path :
    (createLogFileFd globalLogPath opening node world).1.path =
      pathAt globalLogPath world.host node.name (getLocaltime opening.reading world.clock).1 := by
  by_cases opened : 0 < node.fd
  · rw [createLogFileFd, if_pos opened]
    rfl
  · rw [createLogFileFd, if_neg opened]
    rfl

theorem createLogFileFd_closed (closed : node.fd ≤ 0) :
    (createLogFileFd globalLogPath opening node world).2.events =
      .opened node.name (createLogFileFd globalLogPath opening node world).1.path opening.fd ::
        world.events := by
  rw [createLogFileFd, if_neg (Int.not_lt.mpr closed)]
  rfl

theorem createLogFileFd_open (opened : 0 < node.fd) :
    (createLogFileFd globalLogPath opening node world).2.events =
      .opened node.name (createLogFileFd globalLogPath opening node world).1.path opening.fd ::
        .closed node.fd :: world.events := by
  rw [createLogFileFd, if_pos opened]
  rfl

theorem acquireNode_spec (short : logFile.length < fileNameLen) (found : Option LogFileNode)
    (named : ∀ node, found = some node → node.name = logFile) :
    (∃ node, found = some node ∧ 0 ≤ node.fd ∧
      acquireNode globalLogPath opening logFile info id found world = (node, world)) ∨
      ∃ node, node.fd ≤ 0 ∧ node.name = logFile ∧ (node.times = 0 ∨ found = some node) ∧
        (∀ old, found = some old → old.fd < 0) ∧
        acquireNode globalLogPath opening logFile info id found world =
          createLogFileFd globalLogPath opening node world := by
  cases found with
  | none =>
      right
      have whole : snprintf fileNameLen logFile = logFile :=
        List.take_of_length_le (Nat.le_sub_one_of_lt short)
      refine ⟨⟨logFile, [], 0, 0, 0, id, []⟩, le_refl _, rfl, .inl rfl, nofun, ?_⟩
      simp only [acquireNode, newLogFileNode, whole]
  | some node =>
      rw [acquireNode]
      split
      · next closed =>
          right
          refine ⟨node, Int.le_of_lt closed, named node rfl, .inr rfl, ?_, rfl⟩
          intro old same
          cases same
          exact closed
      · next opened => exact .inl ⟨node, rfl, Int.not_lt.mp opened, rfl⟩

theorem acquireNode_changesFile (found : Option LogFileNode) :
    ChangesFile info answers
        (some (acquireNode globalLogPath answers.opening logFile info id found world).1) ↔
      ChangesFile info answers found := by
  cases found with
  | none =>
      constructor
      · rintro ⟨often, _⟩
        rw [acquireNode, newLogFileNode, createLogFileFd_times] at often
        exact absurd often (Nat.not_lt_zero _)
      · exact False.elim
  | some node =>
      rw [acquireNode]
      split
      · rw [ChangesFile, createLogFileFd_times, createLogFileFd_fileSize, ChangesFile]
      · exact Iff.rfl

end Opening

/-! ## The size check and the record -/

section Append

variable {globalLogPath : List Char} {info : SingleLogConfInfo} {answers : WriteAnswers}
  {node : LogFileNode} {world : World}

theorem rotate_stays
    (stays : ¬(writeTimes < node.times ∧ info.singleMaxSize < node.fileSize ∧
      answers.fstatOk = true)) :
    (rotate globalLogPath info answers node world).1 = node ∧
      ((rotate globalLogPath info answers node world).2 = world ∨
        (rotate globalLogPath info answers node world).2 =
          world.add (.fstat node.name false)) := by
  rw [rotate]
  split
  · next due =>
      cases answered : answers.fstatOk with
      | true => exact absurd ⟨due.1, due.2, answered⟩ stays
      | false => exact ⟨rfl, .inr rfl⟩
  · exact ⟨rfl, .inl rfl⟩

theorem rotate_changes (opened : 0 < node.fd) (often : writeTimes < node.times)
    (large : info.singleMaxSize < node.fileSize) (answered : answers.fstatOk = true) :
    (rotate globalLogPath info answers node world).1 =
        { node with
          date := dateText (getLocaltime answers.rotation.reading world.clock).1
          path := pathAt globalLogPath world.host node.name
            (getLocaltime answers.rotation.reading world.clock).1
          fd := if 0 < answers.rotation.fd then answers.rotation.fd else -1
          times := 0
          fileSize := 0 } ∧
      (rotate globalLogPath info answers node world).2.events =
        .opened node.name (pathAt globalLogPath world.host node.name
          (getLocaltime answers.rotation.reading world.clock).1) answers.rotation.fd ::
          .closed node.fd :: .fstat node.name true :: world.events := by
  rw [rotate, if_pos ⟨often, large⟩, answered]
  simp only [if_true]
  rw [createLogFileFd_open opened, createLogFileFd_path]
  constructor
  · rw [createLogFileFd, if_pos opened]
    rfl
  · rfl

theorem writeRecord_spec (record : List Char) :
    (writeRecord record answers node world).1.fd = node.fd ∧
      (writeRecord record answers node world).1.name = node.name ∧
      (writeRecord record answers node world).1.path = node.path ∧
      ∃ written, (writeRecord record answers node world).2.events =
          .wrote node.name node.path record written :: world.events ∧
        (node.fd ≤ 0 → written = -1 ∧
          (writeRecord record answers node world).1.times = node.times) := by
  rw [writeRecord]
  rcases Int.lt_or_le 0 node.fd with opened | closed
  · rw [if_pos opened]
    have notClosed := Int.not_le.mpr opened
    split
    · exact ⟨rfl, rfl, rfl, _, rfl, fun closed => absurd closed notClosed⟩
    · exact ⟨rfl, rfl, rfl, _, rfl, fun closed => absurd closed notClosed⟩
  · rw [if_neg (Int.not_lt.mpr closed)]
    exact ⟨rfl, rfl, rfl, -1, rfl, fun _ => ⟨rfl, rfl⟩⟩

end Append

end Lctools.Log
