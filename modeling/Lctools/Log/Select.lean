import Lctools.Log.Conf

/-! # Which settings a log name gets

The choice of a record in `transparent_iridium_write_log`, and what it comes to:
the settings of a log name are a function of the set of sections, whatever the
order in which the hash table hands them out.
-/

namespace Lctools.Log

open Conf CString Numerals

/-! ## The program -/

/-- The pointers that the log library follows: three globals, the cells of
`sinfo`, and the nodes of log files. -/
inductive Pointer where
  | infos
  | confLogFileNames
  | logFileNodes
  | cell
  | node
  deriving DecidableEq, Repr

structure PointerFault where
  pointer : Pointer
  fault : RefFault
  deriving DecidableEq, Repr

/-- Following a pointer stored in a cell of `sinfo`. -/
def derefCell : Option SingleLogConfInfo → Except PointerFault SingleLogConfInfo
  | none => .error ⟨.cell, .nullDereference⟩
  | some info => .ok info

/-- The id that `transparent_iridium_write_log` finds for `log_file`, `none` for a
null name; `names` is the table `conf_log_file_names`. -/
def selectInfoId (infos : LogConfInfos) (names : Ref (List (List Char × ℕ)))
    (logFile : Option (List Char)) : Except PointerFault ℕ := do
  let ctl ← derefCell (infos.sinfo.getD infosIdCtl none)
  if ctl.isValid ≠ 0 then .ok infosIdTotalSwitch
  else
    match logFile with
    | none => .ok infosIdDefault
    | some name =>
        let table ← (names.deref).mapError (.mk .confLogFileNames)
        .ok ((HashTable.lookup (fun key => key) name table).getD infosIdDefault)

/-- The id and the record for `log_file`. -/
def selectInfo (infos : LogConfInfos) (names : Ref (List (List Char × ℕ)))
    (logFile : Option (List Char)) : Except PointerFault (ℕ × SingleLogConfInfo) := do
  let id ← selectInfoId infos names logFile
  let info ← derefCell (getLogConfInfo infos id)
  .ok (id, info)

/-! ## Settings of a log name -/

/-- The part of a record that decides how a message is logged. -/
structure Settings where
  switches : IrilogSwitch
  singleMaxSize : ℤ
  isProcessLock : ℤ
  deriving DecidableEq, Repr

def SingleLogConfInfo.settings (info : SingleLogConfInfo) : Settings :=
  ⟨info.irilogSwitch, info.singleMaxSize, info.isProcessLock⟩

/-- The rows of a section, applied in order to a record of zeros. -/
def sectionSettings (confPairs : ConfPairs) : Settings :=
  (getInfoFromConfPairs confPairs .zero).settings

def defaultSettings : Settings :=
  (setDefaultSingleLogConfInfo .zero).settings

def findSection (sections : List ConfPairs) (name : List Char) : Option ConfPairs :=
  sections.find? fun confPairs => confPairs.modeName = name

/-- `IS_VALID` of a section says 1. -/
def saysValid (confPairs : ConfPairs) : Bool :=
  match getValue confPairs totalSwitchIsValid with
  | none => false
  | some value => value.head? = some '1'

/-- The settings that a set of sections gives to a log name: those of a valid
`TOTAL_SWITCH`, else those of the section with this name, else the defaults. -/
def effectiveSettings (sections : List ConfPairs) (name : List Char) : Settings :=
  match (findSection sections totalSwitchModeName).filter saysValid with
  | some total => sectionSettings total
  | none =>
      match findSection sections name with
      | some confPairs => sectionSettings confPairs
      | none => defaultSettings

/-- What is demanded of a `TOTAL_SWITCH` section. -/
structure TotalSwitchValid (confPairs : ConfPairs) : Prop where
  isValid : ∃ value, getValue confPairs totalSwitchIsValid = some value ∧
    (value.head? = some '0' ∨ value.head? = some '1')
  timer : ∃ value, getValue confPairs totalSwitchTimer = some value ∧ 0 ≤ atoi value

/-- Sections as the parser gives them: names of their own, none too long. -/
structure SectionSet (sections : List ConfPairs) : Prop where
  distinct : sections.Pairwise fun first second => first.modeName ≠ second.modeName
  short : ∀ confPairs ∈ sections, confPairs.modeName.length ≤ 126
  total : ∀ confPairs ∈ sections, confPairs.modeName = totalSwitchModeName →
    TotalSwitchValid confPairs

/-! ## Rows leave the name alone -/

theorem irilogConfLineHandle_name (info : SingleLogConfInfo) (label name value : List Char) :
    (irilogConfLineHandle { info with name := label } name value).2 =
      { (irilogConfLineHandle info name value).2 with name := label } := by
  unfold irilogConfLineHandle
  split_ifs <;> rfl

theorem getInfoFromConfPairs_name (confPairs : ConfPairs) (info : SingleLogConfInfo)
    (label : List Char) :
    getInfoFromConfPairs confPairs { info with name := label } =
      { getInfoFromConfPairs confPairs info with name := label } := by
  unfold getInfoFromConfPairs
  induction confPairs.pairs generalizing info with
  | nil => rfl
  | cons pair pairs induction =>
      simp only [List.foldl_cons]
      rw [irilogConfLineHandle_name, induction]

theorem sectionSettings_eq (confPairs : ConfPairs) (label : List Char) :
    (getInfoFromConfPairs confPairs { SingleLogConfInfo.zero with name := label }).settings =
      sectionSettings confPairs := by
  rw [getInfoFromConfPairs_name]
  rfl

/-! ## Filling the table -/

/-- The cells of the table: three special ones and those of the sections. -/
structure Built (infos : LogConfInfos) : Prop where
  length : infos.sinfo.length = infos.len
  special : infosIdStart ≤ infos.len

theorem Built.present {infos : LogConfInfos} (built : Built infos) : infos.sinfo ≠ [] := by
  intro empty
  have length := built.length
  have special := built.special
  simp only [empty, List.length_nil, infosIdStart] at length special
  omega

theorem lciAddInfo_start {infos : LogConfInfos} (built : Built infos)
    (info : SingleLogConfInfo) :
    (lciAddInfo infos info infosIdStart).1 = infos.len ∧
      (lciAddInfo infos info infosIdStart).2.len = infos.len + 1 ∧
      (lciAddInfo infos info infosIdStart).2.sinfo = infos.sinfo ++ [some info] ∧
      (lciAddInfo infos info infosIdStart).2.names = infos.names := by
  have present := built.present
  unfold lciAddInfo
  by_cases grow : infos.allocatedLen ≤ infos.len
  · simp [grow, present]
  · simp [grow]

theorem lciAddInfo_special {infos : LogConfInfos} (built : Built infos)
    (info : SingleLogConfInfo) {id : ℕ} (special : id < infosIdStart) :
    (lciAddInfo infos info id).1 = id ∧
      (lciAddInfo infos info id).2.len = infos.len ∧
      (lciAddInfo infos info id).2.sinfo = infos.sinfo.set id (some info) ∧
      (lciAddInfo infos info id).2.names = infos.names := by
  have present := built.present
  unfold lciAddInfo
  by_cases grow : infos.allocatedLen ≤ infos.len
  · simp [grow, present, not_le.mpr special]
  · simp [grow, not_le.mpr special]

theorem totalSwitchInfo_changes {confPairs : ConfPairs} {info complete : SingleLogConfInfo}
    (computed : totalSwitchInfo confPairs info = .ok complete) :
    ∃ isValid timer, complete = { info with isValid := isValid, timer := timer } := by
  unfold totalSwitchInfo at computed
  split at computed
  · cases computed
  · simp only at computed
    split at computed
    · cases computed
    · split at computed
      · cases computed
      · split at computed
        · cases computed
        · cases computed
          exact ⟨_, _, rfl⟩

theorem totalSwitchInfo_ok {confPairs : ConfPairs} (valid : TotalSwitchValid confPairs)
    (info : SingleLogConfInfo) :
    ∃ complete, totalSwitchInfo confPairs info = .ok complete ∧
      complete.name = info.name ∧ complete.settings = info.settings ∧
      (complete.isValid ≠ 0 ↔ saysValid confPairs = true) := by
  rcases valid.isValid with ⟨value, found, digit⟩
  rcases valid.timer with ⟨timer, timerFound, timerValid⟩
  have first : (text value).headD nul = '0' ∧ saysValid confPairs = false ∨
      (text value).headD nul = '1' ∧ saysValid confPairs = true := by
    rw [saysValid, found]
    cases value with
    | nil => simp at digit
    | cons c rest =>
        simp only [List.head?_cons, Option.some.injEq] at digit
        cases digit with
        | inl zero => simp [text, zero, nul]
        | inr one => simp [text, one, nul]
  have notNegative : ¬atoi timer < 0 := by omega
  rw [totalSwitchInfo, found]
  simp only [timerFound]
  generalize (text value).headD nul = c at first ⊢
  rcases first with ⟨rfl, off⟩ | ⟨rfl, on⟩
  · refine ⟨{ info with isValid := 0, timer := atoi timer }, ?_, rfl, rfl, ?_⟩
    · simp [show isLevelTrueInner '0' = 0 by decide, notNegative]
    · simp [off]
  · refine ⟨{ info with isValid := 1, timer := atoi timer }, ?_, rfl, rfl, ?_⟩
    · simp [show isLevelTrueInner '1' = 1 by decide, notNegative]
    · simp [on]

/-- Where a log name leads in a table that was filled from the sections `seen`. -/
def Leads (infos : LogConfInfos) (name : List Char) : Option ConfPairs → Prop
  | none =>
      (HashTable.lookup (fun key => key) name infos.names).getD infosIdDefault = infosIdDefault
  | some confPairs => ∃ id info,
      HashTable.lookup (fun key => key) name infos.names = some id ∧
      (id = infosIdTotalSwitch ∧ name = totalSwitchModeName ∨ infosIdStart ≤ id) ∧
      infos.sinfo[id]? = some (some info) ∧ info.settings = sectionSettings confPairs

/-- The total switch of a table that was filled from sections with this
`TOTAL_SWITCH` section. -/
def Totals (total : SingleLogConfInfo) : Option ConfPairs → Prop
  | none => total.isValid = 0
  | some confPairs => total.settings = sectionSettings confPairs ∧
      (total.isValid ≠ 0 ↔ saysValid confPairs = true)

structure FilledFrom (seen : List ConfPairs) (infos : LogConfInfos) : Prop
    extends Built infos where
  ctl : ∃ info, infos.sinfo[infosIdCtl]? = some (some info)
  total : ∃ info, infos.sinfo[infosIdTotalSwitch]? = some (some info) ∧
    Totals info (findSection seen totalSwitchModeName)
  default : ∃ info, infos.sinfo[infosIdDefault]? = some (some info) ∧
    info.settings = defaultSettings
  names : ∀ name, Leads infos name (findSection seen name)

theorem findSection_append_self {seen : List ConfPairs} {confPairs : ConfPairs}
    (fresh : ∀ other ∈ seen, other.modeName ≠ confPairs.modeName) :
    findSection (seen ++ [confPairs]) confPairs.modeName = some confPairs := by
  have absent : seen.find? (fun other => decide (other.modeName = confPairs.modeName)) =
      none := by
    simpa using fresh
  rw [findSection, List.find?_append, absent]
  simp

theorem findSection_append_other {seen : List ConfPairs} {confPairs : ConfPairs}
    {name : List Char} (different : confPairs.modeName ≠ name) :
    findSection (seen ++ [confPairs]) name = findSection seen name := by
  rw [findSection, List.find?_append]
  simp [different, findSection]

section AddSection

variable {seen : List ConfPairs} {infos grown : LogConfInfos} {confPairs : ConfPairs}

private theorem leads_insertName (filled : FilledFrom seen infos)
    (fresh : ∀ other ∈ seen, other.modeName ≠ confPairs.modeName)
    (sameNames : grown.names = infos.names)
    (kept : ∀ (id : ℕ) info, infosIdStart ≤ id ∨ confPairs.modeName ≠ totalSwitchModeName →
      infos.sinfo[id]? = some (some info) → grown.sinfo[id]? = some (some info))
    {id : ℕ} {info : SingleLogConfInfo}
    (place : id = infosIdTotalSwitch ∧ confPairs.modeName = totalSwitchModeName ∨
      infosIdStart ≤ id)
    (cell : grown.sinfo[id]? = some (some info))
    (settings : info.settings = sectionSettings confPairs) (name : List Char) :
    Leads (insertName confPairs.modeName id grown) name
      (findSection (seen ++ [confPairs]) name) := by
  have looked := HashTable.lookup_insert (fun key : List Char => key) confPairs.modeName id
    name infos.names
  by_cases wanted : confPairs.modeName = name
  · rw [if_pos wanted] at looked
    rw [← wanted, findSection_append_self fresh]
    refine ⟨id, info, ?_, place, cell, settings⟩
    rw [insertName, sameNames, wanted]
    rw [wanted] at looked
    exact looked
  · rw [if_neg wanted] at looked
    rw [findSection_append_other wanted]
    have leads := filled.names name
    cases found : findSection seen name with
    | none =>
        rw [found] at leads
        rw [Leads, insertName, sameNames, looked]
        exact leads
    | some other =>
        rw [found] at leads
        rcases leads with ⟨oldId, oldInfo, oldLookup, oldPlace, oldCell, oldSettings⟩
        refine ⟨oldId, oldInfo, ?_, oldPlace, ?_, oldSettings⟩
        · rw [insertName, sameNames, looked]
          exact oldLookup
        · apply kept oldId oldInfo _ oldCell
          cases oldPlace with
          | inl total =>
              right
              rw [← total.2]
              exact wanted
          | inr ordinary =>
              left
              exact ordinary

variable (filled : FilledFrom seen infos) (short : confPairs.modeName.length ≤ 126)
  (fresh : ∀ other ∈ seen, other.modeName ≠ confPairs.modeName)

include short in
private theorem fillLogConfInfos_info (infos : LogConfInfos) :
    ∃ info : SingleLogConfInfo, info.name = confPairs.modeName ∧
      info.settings = sectionSettings confPairs ∧
      fillLogConfInfos infos (confPairs.modeName, confPairs) =
        if confPairs.modeName ≠ totalSwitchModeName then
          .ok (insertName confPairs.modeName (lciAddInfo infos info infosIdStart).1
            (lciAddInfo infos info infosIdStart).2)
        else
          totalSwitchInfo confPairs info >>= fun complete =>
            .ok (insertName complete.name (lciAddInfo infos complete infosIdTotalSwitch).1
              (lciAddInfo infos complete infosIdTotalSwitch).2) := by
  have label : confPairs.modeName.take (fileNameLen - 1) = confPairs.modeName :=
    List.take_of_length_le (by simp only [fileNameLen]; omega)
  have infoName : (getInfoFromConfPairs confPairs
      { SingleLogConfInfo.zero with name := confPairs.modeName }).name = confPairs.modeName := by
    rw [getInfoFromConfPairs_name]
  refine ⟨_, infoName, sectionSettings_eq .., ?_⟩
  simp only [fillLogConfInfos, label, infoName]

include filled short fresh

theorem FilledFrom.ordinary (ordinary : confPairs.modeName ≠ totalSwitchModeName) :
    ∃ next, fillLogConfInfos infos (confPairs.modeName, confPairs) = .ok next ∧
      FilledFrom (seen ++ [confPairs]) next := by
  rcases fillLogConfInfos_info short infos with ⟨info, _, infoSettings, filling⟩
  rcases lciAddInfo_start filled.toBuilt info with ⟨idEqual, lenEqual, cells, namesEqual⟩
  generalize added : lciAddInfo infos info infosIdStart = result at *
  rcases result with ⟨id, grown⟩
  simp only at idEqual lenEqual cells namesEqual
  have kept : ∀ (index : ℕ) cell, infos.sinfo[index]? = some (some cell) →
      grown.sinfo[index]? = some (some cell) := by
    intro index cell found
    have inside := (List.getElem?_eq_some_iff.mp found).1
    rw [cells, List.getElem?_append_left inside, found]
  have newCell : grown.sinfo[id]? = some (some info) := by
    rw [idEqual, cells, ← filled.length]
    simp
  have atLeast := filled.special
  refine ⟨insertName confPairs.modeName id grown, ?_, ?_⟩
  · rw [filling, if_pos ordinary]
  · constructor
    · constructor
      · simp [insertName, cells, lenEqual, filled.length]
      · simp only [insertName, lenEqual]
        omega
    · rcases filled.ctl with ⟨ctl, found⟩
      exact ⟨ctl, kept _ _ found⟩
    · rcases filled.total with ⟨total, found, totals⟩
      rw [findSection_append_other ordinary]
      exact ⟨total, kept _ _ found, totals⟩
    · rcases filled.default with ⟨default, found, settings⟩
      exact ⟨default, kept _ _ found, settings⟩
    · intro name
      apply leads_insertName filled fresh namesEqual _ _ newCell infoSettings
      · intro index cell _ found
        exact kept index cell found
      · right
        rw [idEqual]
        exact atLeast

theorem FilledFrom.totalSwitch (total : confPairs.modeName = totalSwitchModeName)
    (valid : TotalSwitchValid confPairs) :
    ∃ next, fillLogConfInfos infos (confPairs.modeName, confPairs) = .ok next ∧
      FilledFrom (seen ++ [confPairs]) next := by
  rcases fillLogConfInfos_info short infos with ⟨info, infoName, infoSettings, filling⟩
  rcases totalSwitchInfo_ok valid info with ⟨complete, computed, sameName, sameSettings,
    validity⟩
  rcases lciAddInfo_special filled.toBuilt complete
    (show infosIdTotalSwitch < infosIdStart by decide) with ⟨idEqual, lenEqual, cells,
    namesEqual⟩
  generalize added : lciAddInfo infos complete infosIdTotalSwitch = result at *
  rcases result with ⟨id, grown⟩
  simp only at idEqual lenEqual cells namesEqual
  have atLeast := filled.special
  have inside : infosIdTotalSwitch < infos.sinfo.length := by
    rw [filled.length]
    exact lt_of_lt_of_le (by decide) atLeast
  have kept : ∀ (index : ℕ) cell, index ≠ infosIdTotalSwitch →
      infos.sinfo[index]? = some (some cell) → grown.sinfo[index]? = some (some cell) := by
    intro index cell different found
    rw [cells, List.getElem?_set_ne different.symm, found]
  have newCell : grown.sinfo[infosIdTotalSwitch]? = some (some complete) := by
    rw [cells, List.getElem?_set_self inside]
  refine ⟨insertName confPairs.modeName id grown, ?_, ?_⟩
  · rw [filling, if_neg (not_not.mpr total), computed]
    simp only [bind, Except.bind, added, sameName, infoName]
  · constructor
    · constructor
      · simp [insertName, cells, lenEqual, filled.length]
      · simp only [insertName, lenEqual]
        exact atLeast
    · rcases filled.ctl with ⟨ctl, found⟩
      exact ⟨ctl, kept _ _ (by decide) found⟩
    · rw [← total, findSection_append_self fresh]
      exact ⟨complete, newCell, sameSettings.trans infoSettings, validity⟩
    · rcases filled.default with ⟨default, found, settings⟩
      exact ⟨default, kept _ _ (by decide) found, settings⟩
    · intro name
      rw [idEqual]
      apply leads_insertName filled fresh namesEqual _ _ newCell
        (sameSettings.trans infoSettings)
      · intro index cell place found
        apply kept index cell _ found
        cases place with
        | inl ordinary =>
            intro equal
            rw [equal] at ordinary
            exact absurd ordinary (by decide)
        | inr other => exact absurd total other
      · exact .inl ⟨rfl, total⟩

end AddSection

private theorem filledFrom_start (logSwitch : ℤ) :
    FilledFrom [] (modifyInfo logConfInfosInit infosIdCtl fun info =>
      { info with logSwitch := logSwitch }) where
  length := by rfl
  special := le_of_eq rfl
  ctl := ⟨_, rfl⟩
  total := ⟨_, rfl, rfl⟩
  default := ⟨_, rfl, rfl⟩
  names := by
    intro name
    have names : (modifyInfo logConfInfosInit infosIdCtl fun info =>
        { info with logSwitch := logSwitch }).names =
          [(defaultLogFileName, infosIdDefault)] := by
      rfl
    simp only [findSection, List.find?_nil, Leads, names, HashTable.lookup]
    split_ifs
    · rfl
    · rfl

theorem foldlM_fillLogConfInfos : ∀ (sections seen : List ConfPairs) (infos : LogConfInfos),
    SectionSet (seen ++ sections) → FilledFrom seen infos →
    ∃ last, (sections.map fun confPairs => (confPairs.modeName, confPairs)).foldlM
      fillLogConfInfos infos = .ok last ∧ FilledFrom (seen ++ sections) last
  | [], seen, infos, _, filled => ⟨infos, rfl, by simpa using filled⟩
  | confPairs :: sections, seen, infos, valid, filled => by
      have member : confPairs ∈ seen ++ confPairs :: sections := by simp
      have fresh : ∀ other ∈ seen, other.modeName ≠ confPairs.modeName := by
        intro other inside
        have split := List.pairwise_append.mp valid.distinct
        exact split.2.2 other inside confPairs (List.mem_cons_self ..)
      have added : ∃ next, fillLogConfInfos infos (confPairs.modeName, confPairs) = .ok next ∧
          FilledFrom (seen ++ [confPairs]) next := by
        by_cases total : confPairs.modeName = totalSwitchModeName
        · exact filled.totalSwitch (valid.short _ member) fresh total
            (valid.total _ member total)
        · exact filled.ordinary (valid.short _ member) fresh total
      rcases added with ⟨next, computed, nextFilled⟩
      have regroup : seen ++ confPairs :: sections = (seen ++ [confPairs]) ++ sections := by
        simp
      rcases foldlM_fillLogConfInfos sections (seen ++ [confPairs]) next (regroup ▸ valid)
        nextFilled with ⟨last, folded, lastFilled⟩
      refine ⟨last, ?_, regroup ▸ lastFilled⟩
      rw [List.map_cons, List.foldlM_cons, computed]
      exact folded

/-! ## The selected record -/

theorem selectInfo_eq {infos : LogConfInfos} {names : Ref (List (List Char × ℕ))}
    {logFile : Option (List Char)} {id : ℕ} {info : SingleLogConfInfo}
    (found : selectInfoId infos names logFile = .ok id)
    (cell : getLogConfInfo infos id = some info) :
    selectInfo infos names logFile = .ok (id, info) := by
  rw [selectInfo, found]
  simp only [bind, Except.bind, cell, derefCell]

section Copied

variable {sections : List ConfPairs} {infos : LogConfInfos} (filled : FilledFrom sections infos)
  {total : SingleLogConfInfo} (totalCell : infos.sinfo[infosIdTotalSwitch]? = some (some total))

include totalCell

private theorem copyIsValid_eq : copyIsValid infos =
    modifyInfo infos infosIdCtl fun info => { info with isValid := total.isValid } := by
  rw [copyIsValid, List.getD_eq_getElem?_getD, totalCell]
  rfl

include filled

private theorem getLogConfInfo_copied {id : ℕ} {info : SingleLogConfInfo} (other : id ≠ infosIdCtl)
    (found : infos.sinfo[id]? = some (some info)) :
    getLogConfInfo (copyIsValid infos) id = some info := by
  have inside : id < infos.len := by
    rw [← filled.length]
    exact (List.getElem?_eq_some_iff.mp found).1
  rw [copyIsValid_eq totalCell, getLogConfInfo, modifyInfo_len, if_neg (not_le.mpr inside),
    List.getD_eq_getElem?_getD]
  simp only [modifyInfo]
  rw [List.getElem?_modify_ne _ _ other.symm, found]
  rfl

/-- The total switch is taken if it is valid, and else the record that the name leads to. -/
private theorem selectInfoId_copied (name : List Char) :
    selectInfoId (copyIsValid infos) (.live (copyIsValid infos).names) (some name) =
      if total.isValid ≠ 0 then .ok infosIdTotalSwitch
      else .ok ((HashTable.lookup (fun key => key) name infos.names).getD infosIdDefault) := by
  rcases filled.ctl with ⟨ctl, ctlCell⟩
  have newCtl : (copyIsValid infos).sinfo.getD infosIdCtl none =
      some { ctl with isValid := total.isValid } := by
    rw [copyIsValid_eq totalCell, modifyInfo, List.getD_eq_getElem?_getD,
      List.getElem?_modify_eq, ctlCell]
    rfl
  rw [selectInfoId, newCtl, copyIsValid_names]
  rfl

end Copied

theorem selectInfo_filled {sections : List ConfPairs} {infos : LogConfInfos}
    (filled : FilledFrom sections infos) (name : List Char) :
    ∃ id info, selectInfo (copyIsValid infos) (.live (copyIsValid infos).names) (some name) =
        .ok (id, info) ∧
      info.settings = effectiveSettings sections name := by
  rcases filled.total with ⟨total, totalCell, totals⟩
  rcases filled.default with ⟨default, defaultCell, defaults⟩
  have chosenId := selectInfoId_copied filled totalCell name
  by_cases valid : total.isValid = 0
  · have noTotal : (findSection sections totalSwitchModeName).filter saysValid = none := by
      rcases present : findSection sections totalSwitchModeName with _ | confPairs
      · rfl
      · rw [present] at totals
        have reading : saysValid confPairs = false := by
          rw [← Bool.not_eq_true, ← totals.2]
          simpa using valid
        simp [reading]
    rw [if_neg (not_not.mpr valid)] at chosenId
    rw [effectiveSettings, noTotal]
    have leads := filled.names name
    cases found : findSection sections name with
    | none =>
        rw [found, Leads] at leads
        rw [leads] at chosenId
        have cell := getLogConfInfo_copied filled totalCell (by decide) defaultCell
        exact ⟨_, default, selectInfo_eq chosenId cell, defaults⟩
    | some confPairs =>
        rw [found] at leads
        rcases leads with ⟨id, info, looked, place, cell, settings⟩
        have notCtl : id ≠ infosIdCtl := by
          intro equal
          rw [equal] at place
          exact absurd place (by simp [infosIdCtl, infosIdTotalSwitch, infosIdStart])
        rw [looked, Option.getD_some] at chosenId
        exact ⟨_, info, selectInfo_eq chosenId
          (getLogConfInfo_copied filled totalCell notCtl cell), settings⟩
  · rcases present : findSection sections totalSwitchModeName with _ | confPairs
    · rw [present] at totals
      exact absurd totals valid
    · rw [present] at totals
      have reading : saysValid confPairs = true := totals.2.mp valid
      have chosen : (some confPairs).filter saysValid = some confPairs := by simp [reading]
      have cell := getLogConfInfo_copied filled totalCell (by decide) totalCell
      rw [if_pos valid] at chosenId
      rw [effectiveSettings, present, chosen]
      exact ⟨_, total, selectInfo_eq chosenId cell, totals.1⟩

theorem findSection_eq_some_iff {sections : List ConfPairs}
    (distinct : sections.Pairwise fun first second => first.modeName ≠ second.modeName)
    (name : List Char) (confPairs : ConfPairs) :
    findSection sections name = some confPairs ↔
      confPairs ∈ sections ∧ confPairs.modeName = name := by
  induction sections with
  | nil => simp [findSection]
  | cons first sections induction =>
      rw [List.pairwise_cons] at distinct
      have rest := induction distinct.2
      rw [findSection] at rest ⊢
      by_cases wanted : first.modeName = name
      · rw [List.find?_cons_of_pos (by simpa using wanted)]
        constructor
        · intro equal
          cases equal
          exact ⟨List.mem_cons_self .., wanted⟩
        · intro found
          cases List.mem_cons.mp found.1 with
          | inl same => rw [same]
          | inr later => exact absurd (wanted.trans found.2.symm) (distinct.1 _ later)
      · rw [List.find?_cons_of_neg (by simpa using wanted), rest, List.mem_cons]
        constructor
        · intro found
          exact ⟨.inr found.1, found.2⟩
        · intro found
          cases found.1 with
          | inl same => exact absurd (same ▸ found.2) wanted
          | inr later => exact ⟨later, found.2⟩

theorem effectiveSettings_perm {sections order : List ConfPairs}
    (distinct : sections.Pairwise fun first second => first.modeName ≠ second.modeName)
    (handedOut : order.Perm sections) (name : List Char) :
    effectiveSettings order name = effectiveSettings sections name := by
  have distinctOrder : order.Pairwise fun first second => first.modeName ≠ second.modeName :=
    (handedOut.pairwise_iff fun different => different.symm).mpr distinct
  have same : ∀ wanted, findSection order wanted = findSection sections wanted := by
    intro wanted
    apply Option.ext
    intro confPairs
    rw [findSection_eq_some_iff distinctOrder, findSection_eq_some_iff distinct,
      handedOut.mem_iff]
  rw [effectiveSettings, effectiveSettings, same, same]

theorem SectionSet.perm {sections order : List ConfPairs} (valid : SectionSet sections)
    (handedOut : order.Perm sections) : SectionSet order where
  distinct := (handedOut.pairwise_iff fun different => different.symm).mpr valid.distinct
  short := fun confPairs member => valid.short confPairs (handedOut.mem_iff.mp member)
  total := fun confPairs member => valid.total confPairs (handedOut.mem_iff.mp member)

/-! ## From the file to the settings -/

def tableSections (table : SectionTable) : List ConfPairs :=
  table.map fun entry => entry.2.confPairs

theorem logGetConfInfoFromFile_table {previous : Char} {file : ConfFile} {ret : ℤ}
    {manager : LogManager}
    (read : logGetConfInfoFromFile previous file .cleared = .ok (ret, manager)) :
    ∃ table, manager.iriConf = .live table ∧ TableValid table := by
  have empty : TableValid [] := ⟨by simp, by simp, by simp⟩
  have fresh : LogManager.cleared.initFlag ≠ iriConfFinishInit := by decide
  unfold logGetConfInfoFromFile at read
  rw [if_neg fresh] at read
  cases file with
  | missing =>
      cases read
      exact ⟨[], rfl, empty⟩
  | noMemory =>
      cases read
      exact ⟨[], rfl, empty⟩
  | readable content =>
      simp only at read
      rcases parsed : parseFileUsing dialect (getStringFlat previous) content noSections with
        fault | ⟨exit, sections⟩
      · simp [parsed] at read
      · have valid : TableValid sections.table := by
          have inserts : ∀ (sections : LogSections) lines confPairs,
              handleLinesUsing (getStringFlat previous) lines none = .ok (some confPairs) →
              TableValid sections.table →
              TableValid (dialect.insertPairs sections confPairs).table := by
            intro sections lines confPairs handled valid
            have read := handleLinesUsing_flat_ok previous handled
            exact valid.insertNewNode sections.modeCount
              (sectionOf_modeName lines none (by simp) read)
          have kept := parseFileUsing_preserves (fun sections => TableValid sections.table)
            (fun sections => TableValid sections.table) inserts
            (fun _ _ _ valid => valid) (fun _ valid => valid) empty parsed
          split_ifs at kept
          · exact kept
          · exact kept
        rw [parsed] at read
        cases exit with
        | finished =>
            cases read
            exact ⟨sections.table, rfl, valid⟩
        | closeAll =>
            cases read
            exact ⟨sections.table, rfl, valid⟩
        | endError => simp at read

theorem tableEntries_eq {table : SectionTable} (valid : TableValid table) :
    tableEntries table =
      (tableSections table).map fun confPairs => (confPairs.modeName, confPairs) := by
  rw [tableEntries, tableSections, List.map_map]
  apply List.map_congr_left
  intro entry member
  simp [valid.named entry member]

theorem sectionSet_of_table {table : SectionTable} (valid : TableValid table)
    (total : ∀ confPairs ∈ tableSections table, confPairs.modeName = totalSwitchModeName →
      TotalSwitchValid confPairs) : SectionSet (tableSections table) where
  distinct := by
    have names : (table.map fun entry => entry.1.text) =
        (tableSections table).map ConfPairs.modeName := by
      rw [tableSections, List.map_map]
      apply List.map_congr_left
      intro entry member
      exact valid.named entry member
    have distinct := valid.distinct
    rw [names] at distinct
    exact List.pairwise_map.mp distinct
  short := by
    intro confPairs member
    rcases List.mem_map.mp member with ⟨entry, inside, rfl⟩
    exact Nat.le_of_lt_succ (valid.short entry inside)
  total := total

/-- In whatever order the hash table hands out the sections of a file, every log
name gets the settings that the set of sections gives to it. -/
theorem getLogConfInfos_settings {previous : Char} {file : ConfFile}
    {order : SectionTable → SectionTable} {manager : LogManager} {table : SectionTable}
    (shuffles : ∀ table, (order table).Perm table)
    (read : logGetConfInfoFromFile previous file .cleared = .ok (0, manager))
    (loaded : manager.iriConf = .live table)
    (total : ∀ confPairs ∈ tableSections table, confPairs.modeName = totalSwitchModeName →
      TotalSwitchValid confPairs) (name : List Char) :
    ∃ infos id info, getLogConfInfos previous order file = .ok infos ∧
      selectInfo infos (.live infos.names) (some name) = .ok (id, info) ∧
      info.settings = effectiveSettings (tableSections table) name := by
  rcases logGetConfInfoFromFile_table read with ⟨parsed, same, valid⟩
  rw [loaded] at same
  cases same
  have handedOut : (tableSections (order table)).Perm (tableSections table) :=
    (shuffles table).map _
  have sectionSet := sectionSet_of_table valid total
  rcases foldlM_fillLogConfInfos (tableSections (order table)) [] _
    (sectionSet.perm handedOut) (filledFrom_start manager.logSwitch) with
    ⟨infos, folded, filled⟩
  rcases selectInfo_filled filled name with ⟨id, info, selected, settings⟩
  refine ⟨copyIsValid infos, id, info, ?_, selected, ?_⟩
  · rw [getLogConfInfos, read]
    simp only [bind, Except.bind, loaded, fillFromSections,
      tableEntries_eq (valid.perm (shuffles table))]
    rw [folded]
  · rw [settings, List.nil_append, effectiveSettings_perm sectionSet.distinct handedOut]

/-- Two sections handed out in the reverse order; the total switch is off, and a row of
the other section has an empty value. -/
theorem getLogConfInfos_settings_reverse :
    ∃ infos id info, getLogConfInfos nul List.reverse (.readable
        "-TOTAL_SWITCH\nIS_VALID=0\nTIMMER=9\n-end\n-a\nSINGLE_MAX_SIZE=\n-end\n".toList) =
          .ok infos ∧
      selectInfo infos (.live infos.names) (some "a".toList) = .ok (id, info) ∧
      info.settings = effectiveSettings
        [⟨"TOTAL_SWITCH".toList, [⟨"IS_VALID".toList, "0".toList⟩, ⟨"TIMMER".toList, "9".toList⟩]⟩,
          ⟨"a".toList, [⟨"SINGLE_MAX_SIZE".toList, []⟩]⟩] "a".toList := by
  have read : logGetConfInfoFromFile nul (.readable
      "-TOTAL_SWITCH\nIS_VALID=0\nTIMMER=9\n-end\n-a\nSINGLE_MAX_SIZE=\n-end\n".toList) .cleared =
      .ok (0, filled ⟨[(⟨0, "TOTAL_SWITCH".toList⟩, ⟨0, ⟨"TOTAL_SWITCH".toList,
          [⟨"IS_VALID".toList, "0".toList⟩, ⟨"TIMMER".toList, "9".toList⟩]⟩⟩),
        (⟨1, "a".toList⟩, ⟨1, ⟨"a".toList, [⟨"SINGLE_MAX_SIZE".toList, []⟩]⟩⟩)],
        2, 1⟩) := by
    rfl
  refine getLogConfInfos_settings (fun table => List.reverse_perm table) read rfl ?_ "a".toList
  intro confPairs member total
  cases List.mem_cons.mp member with
  | inl first =>
      rw [first]
      exact ⟨⟨"0".toList, rfl, .inl rfl⟩, ⟨"9".toList, rfl, by decide⟩⟩
  | inr rest =>
      rw [List.mem_singleton.mp rest] at total
      exact absurd total (by decide)

end Lctools.Log
