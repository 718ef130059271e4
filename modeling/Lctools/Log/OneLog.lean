import Lctools.Foundation.Fallible
import Lctools.Log.Lifecycle

/-! # Writing to one log

Runs of `transparent_iridium_write_log` for one log name, after the library was
initialised. The settings are chosen once and for all, and only the node of this
name changes.
-/

namespace Lctools.Log

open CString

/-- One call of `transparent_iridium_write_log`. -/
structure Write where
  request : Request
  answers : WriteAnswers

def writeStep (state : LogState) (write : Write) : Except LogFault (ℤ × LogState) :=
  transparentIridiumWriteLog write.request write.answers state

/-- A message for the log `a`, and a system that does what it is asked. -/
def sampleRequest : Request :=
  ⟨"app.c".toList, "main".toList, 1, some "a".toList, 2, "up".toList⟩

def sampleAnswers (init : InitAnswers) : WriteAnswers where
  init := init
  now := 0
  reading := ⟨.zero, true⟩
  opening := ⟨⟨.zero, true⟩, 3⟩
  fstatOk := true
  rotation := ⟨⟨.zero, true⟩, 3⟩
  write := fun length => length

/-- The library was initialised and can be used. -/
structure Usable (state : LogState) (infos : LogConfInfos) (store : NodeStore) : Prop where
  inited : state.initFlag = hasInited
  opened : state.closeLogFlag = 0
  live : state.infos = .live infos
  named : state.confLogFileNames = .live infos.names
  nodes : state.logFileNodes = .live store
  loaded : Loaded infos
  valid : store.WellFormed

section Usable

variable {state : LogState} {infos : LogConfInfos} {store last : NodeStore}

theorem Usable.withWorld (usable : Usable state infos store) (world : World) :
    Usable { state with world := world } infos store :=
  ⟨usable.inited, usable.opened, usable.live, usable.named, usable.nodes, usable.loaded,
    usable.valid⟩

theorem Usable.withNodes (usable : Usable state infos store) (valid : last.WellFormed)
    (world : World) : Usable { state with logFileNodes := .live last, world := world } infos last :=
  ⟨usable.inited, usable.opened, usable.live, usable.named, rfl, usable.loaded, valid⟩

theorem Usable.unique {record : LogConfInfos} (first : Usable state infos store)
    (second : Usable state record last) : infos = record ∧ store = last := by
  have sameInfos := first.live.symm.trans second.live
  cases sameInfos
  have sameStore := first.nodes.symm.trans second.nodes
  cases sameStore
  exact ⟨rfl, rfl⟩

theorem Usable.started (usable : Usable state infos store) :
    state.initFlag ≠ noInit ∧ state.closeLogFlag ≠ 1 := by
  rw [usable.inited, usable.opened]
  decide

end Usable

section Chosen

variable {infos : LogConfInfos} {names : Ref (List (List Char × ℕ))} {log : Option (List Char)}
  {id other : ℕ} {info record : SingleLogConfInfo} {logFile name : List Char}

theorem Chosen.unique (first : Chosen infos names log id info logFile)
    (second : Chosen infos names log other record name) :
    id = other ∧ info = record ∧ logFile = name := by
  have sameId := first.selected.symm.trans second.selected
  cases sameId
  have sameCell := first.cell.symm.trans second.cell
  cases sameCell
  have sameName := first.named.symm.trans second.named
  cases sameName
  exact ⟨rfl, rfl, rfl⟩

theorem Chosen.fits (loaded : Loaded infos) (chosen : Chosen infos names log id info logFile) :
    Fits info := by
  apply loaded.fits
  have cell := chosen.cell
  rw [getLogConfInfo] at cell
  split_ifs at cell
  rw [List.getD_eq_getElem?_getD] at cell
  rcases found : infos.sinfo[id]? with _ | content
  · simp [found] at cell
  · rw [found] at cell
    rw [← cell]
    exact List.mem_of_getElem? found

theorem Chosen.short (loaded : Loaded infos) (chosen : Chosen infos names log id info logFile) :
    logFile.length < fileNameLen := by
  have named := chosen.named
  cases log with
  | some name =>
      rw [realLogFile] at named
      split_ifs at named with short
      · cases named
        exact Nat.lt_of_lt_of_le short (Nat.sub_le _ _)
      · cases named
  | none =>
      rcases followCell_cases (infos.sinfo.getD infosIdDefault none) with ⟨failed, _⟩ |
        ⟨default, followed, cell⟩
      · simp only [realLogFile, failed, bind, Except.bind] at named
        cases named
      · simp only [realLogFile, followed, bind, Except.bind, Except.ok.injEq,
          Option.some.injEq] at named
        rw [← named]
        rw [List.getD_eq_getElem?_getD] at cell
        rcases found : infos.sinfo[infosIdDefault]? with _ | content
        · simp [found] at cell
        · rw [found] at cell
          exact (loaded.fits default (cell ▸ List.mem_of_getElem? found)).2

end Chosen

theorem usable_of_init {host : Host} {logpath : Option (List Char)} {init : InitAnswers}
    {state : LogState} (inited : iridiumInitLog logpath init (.start host) = .ok (0, state)) :
    ∃ infos, Usable state infos .empty ∧
      state.world = ⟨host, ⟨init.tmNow, init.tmNow⟩, []⟩ := by
  rcases @iridiumInitLog_cases (.start host) rfl logpath init with ⟨fault, failed, _⟩ |
    ⟨path, _, _, failed⟩ | ⟨path, infos, deadTime, _, _, _, loading, done⟩
  · rw [failed] at inited
    cases inited
  · rw [failed] at inited
    cases inited
  · rw [done] at inited
    cases inited
    exact ⟨infos, ⟨rfl, rfl, rfl, rfl, rfl, getLogConfInfos_loaded loading,
      NodeStore.wellFormed_empty⟩, rfl⟩

theorem writeStep_effect {state next : LogState} {infos : LogConfInfos} {store : NodeStore}
    {write : Write} {ret : ℤ} (usable : Usable state infos store)
    (written : writeStep state write = .ok (ret, next)) :
    WriteEffect infos store write.request write.answers state next := by
  rcases usable.started with ⟨inited, opened⟩
  simp only [writeStep, transparentIridiumWriteLog, openIridiumlog, if_neg inited, bind,
    Except.bind] at written
  rw [if_neg (Int.lt_irrefl 0), if_neg opened] at written
  split_ifs at written
  · cases written
    exact .nothing
  · rcases writeSelected_effect usable.live usable.named usable.nodes usable.valid write.request
      write.answers with ⟨fault, failed⟩ | ⟨other, last, computed, effect⟩
    · rw [failed] at written
      cases written
    · rw [computed] at written
      cases written
      exact effect

theorem writeStep_chosen {state : LogState} {infos : LogConfInfos} {store : NodeStore}
    {write : Write} {id : ℕ} {info : SingleLogConfInfo} {logFile : List Char}
    (usable : Usable state infos store)
    (chosen : Chosen infos (.live infos.names) write.request.logFile id info logFile) :
    writeStep state write =
      if debugClosed write.request write.answers.now state then .ok (0, state)
      else if !(info.irilogSwitch.logFile || info.irilogSwitch.logTerminal) then .ok (-1, state)
      else
        match Loglevl.ofInt write.request.level with
        | none => .ok (0, state)
        | some level =>
            if info.irilogSwitch.admits level then
              writeOutputs info id (some logFile) level write.request write.answers state
            else
              .ok (0, state) := by
  rcases usable.started with ⟨inited, opened⟩
  have initialised : openIridiumlog write.answers.init state = .ok (0, state) := if_neg inited
  have followed : followGlobal .infos state.infos = .ok infos := by
    rw [usable.live]
    rfl
  have cell : followCell (getLogConfInfo infos id) = .ok info := by
    rw [chosen.cell]
    rfl
  rw [writeStep, transparentIridiumWriteLog, Fallible.bind_ok initialised]
  simp only
  rw [if_neg (Int.lt_irrefl 0), if_neg opened, writeSelected, Fallible.bind_ok followed,
    usable.named, Fallible.bind_ok (Fallible.mapError_ok chosen.selected _),
    Fallible.bind_ok chosen.named]
  exact if_congr Iff.rfl rfl (Fallible.bind_ok cell _)

theorem writeStep_file {state : LogState} {infos : LogConfInfos} {store : NodeStore}
    {write : Write} {id : ℕ} {info : SingleLogConfInfo} {logFile : List Char} {level : Loglevl}
    (usable : Usable state infos store)
    (chosen : Chosen infos (.live infos.names) write.request.logFile id info logFile)
    (levelOf : Loglevl.ofInt write.request.level = some level)
    (admitted : info.irilogSwitch.admits level = true)
    (toFile : info.irilogSwitch.logFile = true)
    (unmuted : debugClosed write.request write.answers.now state = false)
    (fits : ¬256 ≤ state.globalLogPath.length + logFile.length) :
    ∃ ret next, writeStep state write = .ok (ret, { state with
        logFileNodes := .live next
        world := (writeNode state.globalLogPath logFile info id
          (recordOf info level write.request write.answers.reading state.world) write.answers
          (store.find logFile)
          (announce info level write.request write.answers.reading state.world)).2 }) ∧
      store.Updates logFile (writeNode state.globalLogPath logFile info id
        (recordOf info level write.request write.answers.reading state.world) write.answers
        (store.find logFile)
        (announce info level write.request write.answers.reading state.world)).1 next := by
  rw [writeStep_chosen usable chosen, unmuted, levelOf, if_neg Bool.false_ne_true, toFile]
  simp only [Bool.true_or, Bool.not_true, Bool.false_eq_true, if_false, admitted, if_true]
  rw [writeOutputs_eq, if_pos toFile]
  exact @writeFile_spec store usable.valid logFile info id write.answers _
    { state with world := announce info level write.request write.answers.reading state.world }
    usable.nodes fits

/-- A run of writes keeps what the announcement of a message and a write to the
node keep. -/
theorem writeStep_keeps {log : Option (List Char)} {id : ℕ} {info : SingleLogConfInfo}
    {logFile : List Char} {infos : LogConfInfos} {state next : LogState} {write : Write}
    {store : NodeStore} {ret : ℤ} (usable : Usable state infos store)
    (chosen : Chosen infos (.live infos.names) log id info logFile)
    (toLog : write.request.logFile = log)
    {holds : Option LogFileNode → World → Prop} (holding : holds (store.find logFile) state.world)
    (announces : ∀ info level, holds (store.find logFile)
      (announce info level write.request write.answers.reading state.world))
    (writes : ∀ level, holds
      (some (writeNode state.globalLogPath logFile info id
        (recordOf info level write.request write.answers.reading state.world) write.answers
        (store.find logFile)
        (announce info level write.request write.answers.reading state.world)).1)
      (writeNode state.globalLogPath logFile info id
        (recordOf info level write.request write.answers.reading state.world) write.answers
        (store.find logFile)
        (announce info level write.request write.answers.reading state.world)).2)
    (written : writeStep state write = .ok (ret, next)) :
    ∃ last, Usable next infos last ∧ next.globalLogPath = state.globalLogPath ∧
      holds (last.find logFile) next.world := by
  cases writeStep_effect usable written with
  | nothing => exact ⟨store, usable, rfl, holding⟩
  | terminal info level =>
      exact ⟨store, usable.withWorld _, rfl, announces info level⟩
  | file other record name level last same updates =>
      rw [toLog, usable.named] at same
      rcases chosen.unique same with ⟨rfl, rfl, rfl⟩
      refine ⟨last, usable.withNodes updates.wellFormed _, rfl, ?_⟩
      rw [updates.found]
      exact writes level

end Lctools.Log
