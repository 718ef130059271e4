import Lctools.Log.Repeated

/-! # The lock between processes

With `IS_PROCESS_LOCK` a write takes the lock of the file of its node and releases the
lock of the file that the node has afterwards. `fcntl(F_SETLKW)` returns with the lock;
closing a file releases its lock, and a file that was just opened is not locked.
-/

namespace Lctools.Log

open CString

/-! ## The property -/

/-- The descriptor of the file that a log has open, `-1` after an `open` that failed. The
newest event comes first. -/
def openFile (log : List Char) : List Event → ℤ
  | [] => -1
  | .opened name _ fd :: events =>
      if name = log then if 0 < fd then fd else -1 else openFile log events
  | _ :: events => openFile log events

/-- The process holds the lock of the file with this descriptor. -/
def holdsLock (fd : ℤ) : List Event → Bool
  | [] => false
  | .locked other :: events => if other = fd then true else holdsLock fd events
  | .unlocked other :: events => if other = fd then false else holdsLock fd events
  | .closed other :: events => if other = fd then false else holdsLock fd events
  | .opened _ _ other :: events => if other = fd then false else holdsLock fd events
  | _ :: events => holdsLock fd events

/-- Every write to a log file happened while the lock of this file was held. -/
def LockedWrites : List Event → Prop
  | [] => True
  | .wrote log _ _ _ :: events =>
      (0 < openFile log events → holdsLock (openFile log events) events = true) ∧
        LockedWrites events
  | _ :: events => LockedWrites events

/-- Every lock that was taken was released. -/
def Unlocked (events : List Event) : Prop :=
  ∀ fd, holdsLock fd events = false

/-- The call writes a record to a log that has grown too large. -/
def ChangesLockedFile (state : LogState) (write : Write) : Prop :=
  ∃ infos store id info logFile, Usable state infos store ∧
    Chosen infos (.live infos.names) write.request.logFile id info logFile ∧
    info.irilogSwitch.logFile = true ∧ RecordDue info logFile store state write ∧
    ChangesFile info write.answers (store.find logFile)

/-! ## Opening -/

section Acquire

variable {globalLogPath logFile : List Char} {opening : Opening} {info : SingleLogConfInfo} {id : ℕ}
  {node : LogFileNode} {world : World}

/-- The node of a log and the file that the log has open. -/
structure Tracks (logFile : List Char) (node : LogFileNode) (events : List Event) : Prop where
  name : node.name = logFile
  opened : 0 < node.fd → openFile logFile events = node.fd

theorem Tracks.later {earlier later : List Event} (tracks : Tracks logFile node earlier)
    (same : openFile logFile later = openFile logFile earlier) : Tracks logFile node later where
  name := tracks.name
  opened := fun opened => same.trans (tracks.opened opened)

theorem acquireNode_tracks (short : logFile.length < fileNameLen) (found : Option LogFileNode)
    (tracked : ∀ node, found = some node → Tracks logFile node world.events) :
    Tracks logFile (acquireNode globalLogPath opening logFile info id found world).1
        (acquireNode globalLogPath opening logFile info id found world).2.events ∧
      ((acquireNode globalLogPath opening logFile info id found world).2.events = world.events ∨
        ∃ path, (acquireNode globalLogPath opening logFile info id found world).2.events =
          .opened logFile path opening.fd :: world.events) := by
  rcases acquireNode_spec short found (fun node same => (tracked node same).name) with
    ⟨node, same, _, acquired⟩ | ⟨node, closed, name, _, _, acquired⟩
  · rw [acquired]
    exact ⟨tracked node same, .inl rfl⟩
  · rw [acquired, createLogFileFd_closed closed, name]
    refine ⟨⟨(createLogFileFd_name ..).trans name, ?_⟩, .inr ⟨_, rfl⟩⟩
    intro _
    rw [createLogFileFd_fd, openFile, if_pos rfl]

end Acquire

/-! ## What a part of a call does to the locks -/

/-- What is known of the events after a part of a call. With `changes` a record was
written to a file that was just opened. -/
structure LockEffect (logFile : List Char) (changes : Prop) (before : List Event)
    (node : LogFileNode) (after : List Event) : Prop where
  tracks : Tracks logFile node after
  others : ∀ other, other ≠ logFile → openFile other after = openFile other before
  unlocked : Unlocked after
  writes : LockedWrites after ↔ LockedWrites before ∧ ¬changes

section Append

variable {globalLogPath logFile : List Char} {info : SingleLogConfInfo} {id : ℕ}
  {answers : WriteAnswers} {node : LogFileNode} {world : World}

theorem lockEffect_stays {before middle after : List Event} {path record : List Char}
    {written : ℤ} {changes : Prop} (unchanged : ¬changes)
    (name : node.name = logFile) (file : openFile logFile before = node.fd)
    (unlocked : Unlocked before)
    (checked : middle = .locked node.fd :: before ∨
      middle = .fstat logFile false :: .locked node.fd :: before)
    (events : after = .unlocked node.fd :: .wrote logFile path record written :: middle) :
    LockEffect logFile changes before node after := by
  have files : ∀ log, openFile log middle = openFile log before := by
    intro log
    cases checked with
    | inl same => rw [same, openFile]; nofun
    | inr more => rw [more, openFile, openFile]; all_goals nofun
  have locks : ∀ fd, holdsLock fd middle = if node.fd = fd then true else holdsLock fd before := by
    intro fd
    cases checked with
    | inl same => rw [same, holdsLock]
    | inr more => rw [more, holdsLock, holdsLock]; all_goals nofun
  have writes : LockedWrites middle ↔ LockedWrites before := by
    cases checked with
    | inl same => rw [same, LockedWrites]; nofun
    | inr more => rw [more, LockedWrites, LockedWrites]; all_goals nofun
  rw [events]
  refine ⟨⟨name, ?_⟩, ?_, ?_, ?_⟩
  · intro _
    simp only [openFile]
    rw [files, file]
  · intro other _
    simp only [openFile]
    exact files other
  · intro fd
    simp only [holdsLock]
    split
    · rfl
    · next other =>
        rw [locks, if_neg other]
        exact unlocked fd
  · simp only [LockedWrites]
    rw [files, file, locks, if_pos rfl, writes]
    constructor
    · intro locked
      exact ⟨locked.2, unchanged⟩
    · intro locked
      exact ⟨fun _ => rfl, locked.1⟩

/-- A record written after the locked file was closed and another one opened. -/
theorem lockEffect_changes {before after : List Event} {path target record : List Char}
    {written old fd : ℤ} {changes : Prop} (changed : changes ↔ 0 < fd)
    (name : node.name = logFile) (newFd : node.fd = if 0 < fd then fd else -1)
    (unlocked : Unlocked before)
    (events : after = .unlocked node.fd :: .wrote logFile path record written ::
      .opened logFile target fd :: .closed old :: .fstat logFile true :: .locked old :: before) :
    LockEffect logFile changes before node after := by
  rw [events]
  refine ⟨⟨name, ?_⟩, ?_, ?_, ?_⟩
  · intro _
    simp only [openFile, if_true]
    exact newFd.symm
  · intro other different
    simp only [openFile]
    rw [if_neg different.symm]
  · intro other
    simp only [holdsLock]
    split_ifs
    · rfl
    · rfl
    · rfl
    · exact unlocked other
  · rw [changed]
    simp only [LockedWrites, openFile, if_true]
    constructor
    · rintro ⟨locked, earlier⟩
      refine ⟨earlier, ?_⟩
      -- The lock went with the old file, and nothing locked the new one.
      intro opened
      rw [if_pos opened, holdsLock, if_pos rfl] at locked
      exact Bool.false_ne_true (locked opened)
    · rintro ⟨earlier, failed⟩
      refine ⟨?_, earlier⟩
      rw [if_neg failed]
      intro opened
      cases opened

/-- The lock is on the file that is written to, unless the file was changed. -/
theorem appendRecord_lockEffect (locking : info.isProcessLock ≠ 0) (opened : 0 < node.fd)
    (tracks : Tracks logFile node world.events) (unlocked : Unlocked world.events)
    (record : List Char) :
    LockEffect logFile (ChangesFile info answers (some node)) world.events
      (appendRecord globalLogPath info record answers node world).1
      (appendRecord globalLogPath info record answers node world).2.events := by
  have file := tracks.opened opened
  have name := tracks.name
  rw [appendRecord, processLock, if_pos locking]
  simp only
  rw [processLock, if_pos locking, World.add_events]
  generalize rotation : rotate globalLogPath info answers node (world.add (.locked node.fd)) =
    rotated
  rcases rotated with ⟨current, later⟩
  rcases @writeRecord_spec answers current later record with ⟨fd, kept, _, written, wrote, _⟩
  by_cases changing : writeTimes < node.times ∧ info.singleMaxSize < node.fileSize ∧
      answers.fstatOk = true
  · rcases @rotate_changes globalLogPath info answers node (world.add (.locked node.fd)) opened
      changing.1 changing.2.1 changing.2.2 with ⟨changed, events⟩
    rw [rotation] at changed events
    have newName : current.name = logFile := (congrArg LogFileNode.name changed).trans name
    have newFd := congrArg LogFileNode.fd changed
    rw [newName] at kept wrote
    simp only [name] at events
    rw [events] at wrote
    rw [wrote]
    exact lockEffect_changes ⟨fun changes => changes.2.2.2,
      fun opens => ⟨changing.1, changing.2.1, changing.2.2, opens⟩⟩ kept (fd.trans newFd)
      unlocked rfl
  · rcases @rotate_stays globalLogPath info answers node (world.add (.locked node.fd)) changing
      with ⟨same, checked⟩
    rw [rotation] at same checked
    simp only at same checked ⊢
    rw [same] at fd kept wrote ⊢
    rw [name] at checked wrote
    rw [wrote]
    apply lockEffect_stays (fun changes => changing ⟨changes.1, changes.2.1, changes.2.2.1⟩)
      (kept.trans name) (file.trans fd.symm) unlocked
    · rw [fd]
      cases checked with
      | inl unchecked => exact .inl (congrArg World.events unchecked)
      | inr failed => exact .inr (congrArg World.events failed)
    · rfl

end Append

/-! ## Whole calls -/

section Calls

variable {globalLogPath logFile : List Char} {info : SingleLogConfInfo} {id : ℕ}
  {answers : WriteAnswers} {world : World}

theorem lockEffect_opened {before after : List Event} {node : LogFileNode} {fd : ℤ}
    (tracks : Tracks logFile node after) (unlocked : Unlocked before)
    (events : after = before ∨ ∃ path, after = .opened logFile path fd :: before) :
    LockEffect logFile False before node after := by
  refine ⟨tracks, ?_, ?_, ?_⟩
  · intro other different
    rcases events with same | ⟨path, opened⟩
    · rw [same]
    · rw [opened, openFile, if_neg different.symm]
  · rcases events with same | ⟨path, opened⟩
    · rw [same]
      exact unlocked
    · rw [opened]
      intro other
      rw [holdsLock]
      split
      · rfl
      · exact unlocked other
  · rw [not_false_eq_true, and_true]
    rcases events with same | ⟨path, opened⟩
    · rw [same]
    · rw [opened, LockedWrites]
      nofun

theorem writeNode_lockEffect (locking : info.isProcessLock ≠ 0)
    (short : logFile.length < fileNameLen) (found : Option LogFileNode)
    (tracked : ∀ node, found = some node → Tracks logFile node world.events)
    (unlocked : Unlocked world.events) (record : List Char) :
    LockEffect logFile (0 < acquiredFd answers.opening found ∧ ChangesFile info answers found)
      world.events
      (writeNode globalLogPath logFile info id record answers found world).1
      (writeNode globalLogPath logFile info id record answers found world).2.events := by
  rcases @acquireNode_tracks globalLogPath logFile answers.opening info id world short found
    tracked with ⟨tracks, opens⟩
  have acquired := lockEffect_opened tracks unlocked opens
  have fd := (acquireNode_wrotes globalLogPath answers.opening logFile info id found world).1
  have changes := @acquireNode_changesFile globalLogPath logFile info id answers world found
  rw [writeNode]
  generalize acquireNode globalLogPath answers.opening logFile info id found world = result at *
  rcases result with ⟨node, later⟩
  simp only at acquired fd changes ⊢
  rw [← fd, ← changes]
  cases Int.lt_or_le 0 node.fd with
  | inl opened =>
      rw [if_neg (Int.not_le.mpr opened)]
      have appends := @appendRecord_lockEffect globalLogPath logFile info answers node later
        locking opened acquired.tracks acquired.unlocked record
      refine ⟨appends.tracks, ?_, appends.unlocked, ?_⟩
      · intro other different
        rw [appends.others other different, acquired.others other different]
      · rw [appends.writes, acquired.writes, not_false_eq_true, and_true, and_iff_right opened]
  | inr closed =>
      rw [if_pos closed]
      refine ⟨acquired.tracks, acquired.others, acquired.unlocked, ?_⟩
      rw [acquired.writes]
      constructor
      · intro earlier
        exact ⟨earlier.1, fun wrong => absurd wrong.1 (Int.not_lt.mpr closed)⟩
      · intro earlier
        exact ⟨earlier.1, not_false⟩

theorem announce_locks (info : SingleLogConfInfo) (level : Loglevl) (request : Request)
    (reading : Reading) (world : World) :
    (∀ log, openFile log (announce info level request reading world).events =
        openFile log world.events) ∧
      (∀ fd, holdsLock fd (announce info level request reading world).events =
        holdsLock fd world.events) ∧
      (LockedWrites (announce info level request reading world).events ↔
        LockedWrites world.events) := by
  rcases announce_events world info level request reading with same | ⟨record, printed⟩
  · rw [same]
    exact ⟨fun _ => rfl, fun _ => rfl, Iff.rfl⟩
  · rw [printed]
    exact ⟨fun _ => rfl, fun _ => rfl, Iff.rfl⟩

end Calls

/-- No lock is held, and every node tracks the file of its log. -/
structure LocksKept (infos : LogConfInfos) (state : LogState) (store : NodeStore) : Prop where
  usable : Usable state infos store
  unlocked : Unlocked state.world.events
  tracked : ∀ log node, store.find log = some node → Tracks log node state.world.events

section Steps

variable {infos : LogConfInfos} {state next : LogState} {store : NodeStore} {write : Write}
  {ret : ℤ}

theorem not_changesLockedFile (nothing : appended state write = []) :
    ¬ChangesLockedFile state write := by
  rintro ⟨infos, store, id, info, logFile, usable, chosen, toFile, due, _⟩
  rcases appended_due usable chosen toFile due with ⟨level, appends, _⟩
  rw [nothing] at appends
  cases appends

theorem changesLockedFile_iff {id : ℕ} {info : SingleLogConfInfo} {logFile : List Char}
    (usable : Usable state infos store)
    (chosen : Chosen infos (.live infos.names) write.request.logFile id info logFile)
    (appends : 0 < acquiredFd write.answers.opening (store.find logFile) →
      appended state write ≠ []) :
    ChangesLockedFile state write ↔ 0 < acquiredFd write.answers.opening (store.find logFile) ∧
      ChangesFile info write.answers (store.find logFile) := by
  constructor
  · rintro ⟨infos', store', id', info', logFile', usable', chosen', _, due, changes⟩
    rcases usable.unique usable' with ⟨rfl, rfl⟩
    rcases chosen.unique chosen' with ⟨rfl, rfl, rfl⟩
    exact ⟨due.opened, changes⟩
  · rintro ⟨opened, changes⟩
    rcases due_of_appended usable chosen (appends opened) with ⟨toFile, due⟩
    exact ⟨infos, store, id, info, logFile, usable, chosen, toFile, due, changes⟩

theorem LocksKept.announce (kept : LocksKept infos state store) (info : SingleLogConfInfo)
    (level : Loglevl) (request : Request) (reading : Reading) :
    LocksKept infos { state with world := announce info level request reading state.world }
      store := by
  rcases announce_locks info level request reading state.world with ⟨files, locks, _⟩
  refine ⟨kept.usable.withWorld _, ?_, ?_⟩
  · intro fd
    exact (locks fd).trans (kept.unlocked fd)
  · intro log node found
    exact (kept.tracked log node found).later (files log)

theorem LocksKept.writeNode {log : List Char} {last : NodeStore} {changes : Prop}
    {node : LogFileNode} {world : World} (kept : LocksKept infos state store)
    (effect : LockEffect log changes state.world.events node world.events)
    (updates : store.Updates log node last) :
    LocksKept infos { state with logFileNodes := .live last, world := world } last := by
  refine ⟨kept.usable.withNodes updates.wellFormed world, effect.unlocked, ?_⟩
  intro other found
  by_cases same : other = log
  · rw [same, updates.found]
    intro written
    cases written
    exact effect.tracks
  · rw [updates.others other same]
    intro unwritten
    exact (kept.tracked other found unwritten).later (effect.others other same)

/-- One call keeps the nodes and the locks in step, and writes under the lock of the file
unless it changes the file. -/
theorem writeStep_locks (kept : LocksKept infos state store)
    (locking : ∀ id info logFile,
      Chosen infos (.live infos.names) write.request.logFile id info logFile →
        info.isProcessLock ≠ 0)
    (written : writeStep state write = .ok (ret, next)) :
    (∃ last, LocksKept infos next last) ∧
      (LockedWrites next.world.events ↔
        LockedWrites state.world.events ∧ ¬ChangesLockedFile state write) := by
  have usable := kept.usable
  cases writeStep_effect usable written with
  | nothing =>
      refine ⟨⟨store, kept⟩, ?_⟩
      rw [iff_self_and]
      intro _
      exact not_changesLockedFile (appended_of_ok written rfl)
  | terminal info level =>
      have nothing : appended state write = [] := appended_of_ok written (announce_wrotes ..)
      have unchanged := not_changesLockedFile nothing
      have writes := (announce_locks info level write.request write.answers.reading
        state.world).2.2
      refine ⟨⟨store, kept.announce info level write.request write.answers.reading⟩, ?_⟩
      exact writes.trans (and_iff_left unchanged).symm
  | file id info logFile level last chosen updates =>
      rw [usable.named] at chosen
      have announced := kept.announce info level write.request write.answers.reading
      have writes := (announce_locks info level write.request write.answers.reading
        state.world).2.2
      have effect := @writeNode_lockEffect state.globalLogPath logFile info id write.answers
        (announce info level write.request write.answers.reading state.world)
        (locking id info logFile chosen) (chosen.short usable.loaded) (store.find logFile)
        (announced.tracked logFile) announced.unlocked
        (recordOf info level write.request write.answers.reading state.world)
      -- A record that was appended was due, so the condition applies to this call.
      have appends : 0 < acquiredFd write.answers.opening (store.find logFile) →
          appended state write ≠ [] := by
        intro opened
        have grown := writeNode_wrotes state.globalLogPath logFile info id
          (recordOf info level write.request write.answers.reading state.world) write.answers
          (store.find logFile)
          (announce info level write.request write.answers.reading state.world)
        rw [if_pos opened, announce_wrotes] at grown
        rw [appended_of_ok written grown]
        exact List.cons_ne_nil _ _
      refine ⟨⟨last, announced.writeNode effect updates⟩, ?_⟩
      rw [effect.writes, writes, changesLockedFile_iff usable chosen appends]

end Steps

/-! ## Runs -/

/-- Along a run, every record is written under the lock of its file as long as no call
changes a locked file, and no lock stays behind. -/
theorem run_locks {infos : LogConfInfos} {writes : List Write}
    (locking : ∀ write ∈ writes, ∀ id info logFile,
      Chosen infos (.live infos.names) write.request.logFile id info logFile →
        info.isProcessLock ≠ 0) :
    ∀ {start state : LogState} {store : NodeStore} {replies : List ℤ},
      LocksKept infos start store → run writeStep start writes = .ok (replies, state) →
      (∃ last, LocksKept infos state last) ∧
        (LockedWrites state.world.events ↔ LockedWrites start.world.events ∧
          Run.Along writeStep (fun state write => ¬ChangesLockedFile state write) start
            writes) := by
  induction writes with
  | nil =>
      intro start state store replies kept ran
      cases ran
      refine ⟨⟨store, kept⟩, ?_⟩
      rw [iff_self_and]
      intro _
      exact trivial
  | cons write writes induction =>
      intro start state store replies kept ran
      rcases Run.run_cons_inversion ran with ⟨ret, next, rest, written, ranRest, _⟩
      rcases writeStep_locks kept (locking write (List.mem_cons_self ..)) written with
        ⟨⟨last, keptNext⟩, step⟩
      rcases induction (fun other member => locking other (List.mem_cons_of_mem _ member))
        keptNext ranRest with ⟨keptLast, later⟩
      refine ⟨keptLast, ?_⟩
      rw [later, step, Run.along_cons_ok written, and_assoc]

theorem locksKept_of_init {host : Host} {logpath : Option (List Char)} {init : InitAnswers}
    {start : LogState} (inited : iridiumInitLog logpath init (.start host) = .ok (0, start))
    {infos : LogConfInfos} (live : start.infos = .live infos) :
    LocksKept infos start .empty ∧ start.world.events = [] := by
  rcases usable_of_init inited with ⟨loaded, usable, world⟩
  rw [usable.live] at live
  cases live
  refine ⟨⟨usable, ?_, ?_⟩, ?_⟩
  · rw [world]
    intro fd
    rfl
  · intro log node found
    cases found
  · rw [world]

/-- Every record is written under the lock of its file, and every lock is released,
exactly if no call goes over to another file. -/
theorem lockedWrites_iff_unchanged {host : Host} {logpath : Option (List Char)}
    {init : InitAnswers} {start : LogState}
    (inited : iridiumInitLog logpath init (.start host) = .ok (0, start)) {infos : LogConfInfos}
    (live : start.infos = .live infos) {writes : List Write}
    (locking : ∀ write ∈ writes, ∀ id info logFile,
      Chosen infos (.live infos.names) write.request.logFile id info logFile →
        info.isProcessLock ≠ 0)
    {replies : List ℤ} {state : LogState}
    (ran : run writeStep start writes = .ok (replies, state)) :
    LockedWrites state.world.events ∧ Unlocked state.world.events ↔
      Run.Along writeStep (fun state write => ¬ChangesLockedFile state write) start writes := by
  rcases locksKept_of_init inited live with ⟨before, none⟩
  rcases run_locks locking before ran with ⟨⟨last, kept⟩, writes⟩
  have locked : LockedWrites start.world.events := by
    rw [none]
    exact trivial
  rw [and_iff_left kept.unlocked, writes, and_iff_right locked]

/-! ## A log that is locked -/

section Sample

variable {infos : LogConfInfos}
  (chosen : Chosen infos (.live infos.names) (some "a".toList) 3 lockedInfo "a".toList)

include chosen

theorem lockedWrite_locking (write : Write) (same : write = lockedWrite) (id : ℕ)
    (info : SingleLogConfInfo) (logFile : List Char)
    (chosenOther : Chosen infos (.live infos.names) write.request.logFile id info logFile) :
    info.isProcessLock ≠ 0 := by
  rw [same] at chosenOther
  rcases chosen.unique chosenOther with ⟨_, rfl, _⟩
  decide

theorem MessagesIn.unchanged {count : ℕ} (few : count ≤ writeTimes) {state : LogState}
    (counted : MessagesIn infos count state) : ¬ChangesLockedFile state lockedWrite := by
  rcases counted.node with ⟨store, usable, found⟩
  rintro ⟨infos', store', id, info, logFile, usable', chosen', _, _, changes⟩
  rcases usable.unique usable' with ⟨rfl, rfl⟩
  rcases chosen.unique chosen' with ⟨rfl, rfl, rfl⟩
  rw [found] at changes
  cases count with
  | zero => exact changes
  | succ count => exact absurd changes.1 (Nat.not_lt.mpr few)

theorem MessagesIn.change {state : LogState} (counted : MessagesIn infos (writeTimes + 1) state) :
    ChangesLockedFile state lockedWrite := by
  rcases counted.node with ⟨store, usable, found⟩
  refine ⟨infos, store, 3, lockedInfo, "a".toList, usable, chosen, rfl, counted.due found, ?_⟩
  rw [found]
  exact ⟨Nat.lt_succ_self _, by decide, rfl, by decide⟩

end Sample

/-- The messages for the log up to the one that changes the file. -/
theorem lockedWrites_many :
    ∃ start replies state, iridiumInitLog none lockedInit (.start lockedHost) = .ok (0, start) ∧
      run writeStep start (List.replicate 501 lockedWrite) = .ok (replies, state) ∧
      LockedWrites state.world.events ∧ Unlocked state.world.events := by
  rcases lockedInit_ok with ⟨start, infos, inited, live, directory, chosen⟩
  rcases MessagesIn.runs chosen (fun state write => ¬ChangesLockedFile state write)
    (fun few counted => counted.unchanged chosen few) 501 (Nat.zero_add _)
    (messagesIn_of_init inited live directory) with ⟨replies, state, ran, _, along⟩
  refine ⟨start, replies, state, inited, ran, ?_⟩
  exact (lockedWrites_iff_unchanged inited live (fun write member =>
    lockedWrite_locking chosen write (List.eq_of_mem_replicate member)) ran).mpr along

/-- The message that finds 501 messages in the file closes the file with its lock, and is
written to a file that is not locked. -/
theorem not_lockedWrites_change :
    ∃ start infos replies state,
      iridiumInitLog none lockedInit (.start lockedHost) = .ok (0, start) ∧
      start.infos = .live infos ∧
      Chosen infos (.live infos.names) lockedWrite.request.logFile 3 lockedInfo "a".toList ∧
      lockedInfo.isProcessLock = 1 ∧
      run writeStep start (List.replicate 501 lockedWrite ++ [lockedWrite]) =
        .ok (replies, state) ∧
      ¬LockedWrites state.world.events := by
  rcases lockedInit_ok with ⟨start, infos, inited, live, directory, chosen⟩
  have before := (locksKept_of_init inited live).1
  rcases MessagesIn.runs chosen (fun _ _ => True) (fun _ _ => trivial) 501 (Nat.zero_add _)
    (messagesIn_of_init inited live directory) with ⟨replies, full, ran, counted, _⟩
  rcases counted.node with ⟨nodes, usable, _⟩
  rcases @MessagesIn.step infos _ full lockedWrite.answers chosen counted nodes usable with
    ⟨ret, next, written, _⟩
  rcases run_locks (fun write member => lockedWrite_locking chosen write
    (List.eq_of_mem_replicate member)) before ran with ⟨⟨store, kept⟩, _⟩
  have step := (writeStep_locks kept (lockedWrite_locking chosen lockedWrite rfl) written).2
  refine ⟨start, infos, replies ++ [ret], _, inited, live, chosen, rfl,
    Run.run_append_ok full ran (Run.run_cons_ok _ written rfl), ?_⟩
  intro locked
  exact (step.mp locked).2 (counted.change chosen)

end Lctools.Log
