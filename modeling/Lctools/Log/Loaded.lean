import Lctools.Foundation.Fallible
import Lctools.Log.Select

/-! # What every table of settings satisfies

Whatever the configuration file holds, the table that `get_log_conf_infos` returns
has its control record, this record never has the switch off, the values of all
records fit their C types, and no cell that a name leads to is empty.
-/

namespace Lctools.Log

open Conf Numerals

/-- A record whose values fit their C types. -/
def Fits (info : SingleLogConfInfo) : Prop :=
  (0 ≤ info.singleMaxSize ∧ info.singleMaxSize < 2 ^ 32) ∧ info.name.length < fileNameLen

structure Loaded (infos : LogConfInfos) : Prop extends Built infos where
  ctl : ∃ info, infos.sinfo[infosIdCtl]? = some (some info) ∧ info.logSwitch ≠ 0
  fits : ∀ info, some info ∈ infos.sinfo → Fits info

/-- No cell of the table is empty, and the names lead into it. -/
structure Complete (infos : LogConfInfos) : Prop extends Built infos where
  filled : none ∉ infos.sinfo
  leads : ∀ name id, HashTable.lookup (fun key => key) name infos.names = some id →
    id < infos.len
  default : ∃ info, infos.sinfo[infosIdDefault]? = some (some info) ∧
    info.name = defaultLogFileName

/-! ## The values of a record -/

theorem sscanfUnsigned_bounded {value : List Char} {result : ℤ}
    (scanned : sscanfUnsigned value = some result) : 0 ≤ result ∧ result < 2 ^ 32 := by
  rw [sscanfUnsigned, Option.map_eq_some_iff] at scanned
  rcases scanned with ⟨number, _, rfl⟩
  exact ⟨Int.emod_nonneg _ (by decide), Int.emod_lt_of_pos _ (by decide)⟩

theorem irilogConfLineHandle_fits {info : SingleLogConfInfo} (fits : Fits info)
    (name value : List Char) : Fits (irilogConfLineHandle info name value).2 := by
  unfold irilogConfLineHandle
  split_ifs
  · exact fits
  · exact fits
  · exact fits
  · exact fits
  · rcases scanned : sscanfUnsigned value with _ | result
    · exact fits
    · exact ⟨sscanfUnsigned_bounded scanned, fits.2⟩
  · exact fits
  · exact fits

theorem getInfoFromConfPairs_fits (confPairs : ConfPairs) {info : SingleLogConfInfo}
    (fits : Fits info) : Fits (getInfoFromConfPairs confPairs info) := by
  unfold getInfoFromConfPairs
  induction confPairs.pairs generalizing info with
  | nil => exact fits
  | cons pair pairs induction =>
      exact induction (irilogConfLineHandle_fits fits pair.name pair.value)

theorem totalSwitchInfo_fits {confPairs : ConfPairs} {info complete : SingleLogConfInfo}
    (fits : Fits info) (computed : totalSwitchInfo confPairs info = .ok complete) :
    Fits complete := by
  rcases totalSwitchInfo_changes computed with ⟨isValid, timer, rfl⟩
  exact fits

/-! ## Filling the table -/

section Fill

variable {infos next : LogConfInfos}

theorem Loaded.insertName (loaded : Loaded infos) (name : List Char) (id : ℕ) :
    Loaded (insertName name id infos) :=
  ⟨⟨loaded.length, loaded.special⟩, loaded.ctl, loaded.fits⟩

theorem Loaded.addStart (loaded : Loaded infos) {info : SingleLogConfInfo}
    (fits : Fits info) : Loaded (lciAddInfo infos info infosIdStart).2 := by
  rcases lciAddInfo_start loaded.toBuilt info with ⟨_, lenEqual, cells, _⟩
  refine ⟨⟨?_, ?_⟩, ?_, ?_⟩
  · rw [cells, lenEqual, List.length_append, loaded.length]
    rfl
  · rw [lenEqual]
    exact Nat.le_succ_of_le loaded.special
  · rcases loaded.ctl with ⟨ctl, found, on⟩
    refine ⟨ctl, ?_, on⟩
    rw [cells, List.getElem?_append_left (List.getElem?_eq_some_iff.mp found).1, found]
  · intro other member
    rw [cells, List.mem_append, List.mem_singleton] at member
    cases member with
    | inl old => exact loaded.fits other old
    | inr new =>
        cases new
        exact fits

theorem Loaded.addTotal (loaded : Loaded infos) {info : SingleLogConfInfo}
    (fits : Fits info) : Loaded (lciAddInfo infos info infosIdTotalSwitch).2 := by
  rcases lciAddInfo_special loaded.toBuilt info
    (show infosIdTotalSwitch < infosIdStart by decide) with ⟨_, lenEqual, cells, _⟩
  refine ⟨⟨?_, ?_⟩, ?_, ?_⟩
  · rw [cells, lenEqual, List.length_set, loaded.length]
  · rw [lenEqual]
    exact loaded.special
  · rcases loaded.ctl with ⟨ctl, found, on⟩
    refine ⟨ctl, ?_, on⟩
    rw [cells, List.getElem?_set_ne (by decide), found]
  · intro other member
    rw [cells] at member
    cases List.mem_or_eq_of_mem_set member with
    | inl old => exact loaded.fits other old
    | inr new =>
        cases new
        exact fits

theorem fillLogConfInfos_loaded {entry : List Char × ConfPairs} (loaded : Loaded infos)
    (computed : fillLogConfInfos infos entry = .ok next) : Loaded next := by
  rcases entry with ⟨key, confPairs⟩
  have short : (key.take (fileNameLen - 1)).length < fileNameLen :=
    Nat.lt_of_le_of_lt (List.length_take_le _ _) (by decide)
  have fits : Fits (getInfoFromConfPairs confPairs
      { SingleLogConfInfo.zero with name := key.take (fileNameLen - 1) }) :=
    getInfoFromConfPairs_fits confPairs ⟨⟨Int.le_refl 0, show (0 : ℤ) < 2 ^ 32 by decide⟩, short⟩
  simp only [fillLogConfInfos] at computed
  generalize getInfoFromConfPairs confPairs
    { SingleLogConfInfo.zero with name := key.take (fileNameLen - 1) } = info at computed fits
  split_ifs at computed
  · cases computed
    exact (loaded.addStart fits).insertName _ _
  · rcases checked : totalSwitchInfo confPairs info with stop | complete
    · simp [checked, bind, Except.bind] at computed
    · rw [checked] at computed
      cases computed
      exact (loaded.addTotal (totalSwitchInfo_fits fits checked)).insertName _ _

theorem loaded_start {logSwitch : ℤ} (on : logSwitch ≠ 0) :
    Loaded (modifyInfo logConfInfosInit infosIdCtl fun info =>
      { info with logSwitch := logSwitch }) where
  length := by rfl
  special := le_of_eq rfl
  ctl := ⟨_, rfl, on⟩
  fits := by
    intro info member
    have zero : Fits .zero := ⟨⟨by decide, by decide⟩, by decide⟩
    have total : Fits (setDefaultSingleLogConfInfo .zero) := ⟨⟨by decide, by decide⟩, by decide⟩
    have default : Fits { setDefaultSingleLogConfInfo .zero with name := defaultLogFileName } :=
      ⟨total.1, by decide⟩
    have cells : (modifyInfo logConfInfosInit infosIdCtl fun info =>
        { info with logSwitch := logSwitch }).sinfo =
        [some { SingleLogConfInfo.zero with logSwitch := logSwitch },
          some (setDefaultSingleLogConfInfo .zero),
          some { setDefaultSingleLogConfInfo .zero with name := defaultLogFileName }] := by
      rfl
    rw [cells] at member
    simp only [List.mem_cons, Option.some.injEq, List.not_mem_nil, or_false] at member
    rcases member with rfl | rfl | rfl
    · exact zero
    · exact total
    · exact default

theorem Loaded.copyIsValid (loaded : Loaded infos) : Loaded (copyIsValid infos) := by
  unfold Log.copyIsValid
  split
  · exact loaded
  · refine ⟨⟨?_, loaded.special⟩, ?_, ?_⟩
    · rw [modifyInfo, List.length_modify]
      exact loaded.length
    · rename_i total _
      rcases loaded.ctl with ⟨ctl, found, on⟩
      refine ⟨{ ctl with isValid := total.isValid }, ?_, on⟩
      rw [modifyInfo, List.getElem?_modify_eq, found]
      rfl
    · intro info member
      rcases List.mem_iff_getElem?.mp member with ⟨index, found⟩
      rw [modifyInfo, List.getElem?_modify] at found
      rcases cell : infos.sinfo[index]? with _ | old
      · simp [cell] at found
      · rw [cell] at found
        have present := List.mem_of_getElem? cell
        cases old with
        | none =>
            split_ifs at found
            · cases found
            · cases found
        | some old =>
            have fits := loaded.fits old present
            split_ifs at found
            · cases found
              exact fits
            · cases found
              exact fits

theorem Complete.insertName (complete : Complete infos) (name : List Char) {id : ℕ}
    (inside : id < infos.len) : Complete (insertName name id infos) := by
  refine ⟨⟨complete.length, complete.special⟩, complete.filled, ?_, complete.default⟩
  intro other found looked
  rw [Log.insertName, HashTable.lookup_insert] at looked
  split_ifs at looked
  · cases looked
    exact inside
  · exact complete.leads other found looked

theorem Complete.addStart (complete : Complete infos) (info : SingleLogConfInfo) :
    Complete (lciAddInfo infos info infosIdStart).2 := by
  rcases lciAddInfo_start complete.toBuilt info with ⟨_, len, cells, names⟩
  refine ⟨⟨?_, ?_⟩, ?_, ?_, ?_⟩
  · rw [cells, len, List.length_append, complete.length]
    rfl
  · rw [len]
    exact Nat.le_succ_of_le complete.special
  · rw [cells, List.mem_append, List.mem_singleton]
    rintro (old | new)
    · exact complete.filled old
    · cases new
  · rw [names, len]
    intro name id looked
    exact Nat.lt_succ_of_lt (complete.leads name id looked)
  · rcases complete.default with ⟨default, cell, name⟩
    refine ⟨default, ?_, name⟩
    rw [cells, List.getElem?_append_left (List.getElem?_eq_some_iff.mp cell).1, cell]

theorem Complete.addTotal (complete : Complete infos) (info : SingleLogConfInfo) :
    Complete (lciAddInfo infos info infosIdTotalSwitch).2 := by
  rcases lciAddInfo_special complete.toBuilt info
    (show infosIdTotalSwitch < infosIdStart by decide) with ⟨_, len, cells, names⟩
  refine ⟨⟨?_, ?_⟩, ?_, ?_, ?_⟩
  · rw [cells, len, List.length_set, complete.length]
  · rw [len]
    exact complete.special
  · intro member
    rw [cells] at member
    cases List.mem_or_eq_of_mem_set member with
    | inl old => exact complete.filled old
    | inr new => cases new
  · rw [names, len]
    exact complete.leads
  · rcases complete.default with ⟨default, cell, name⟩
    refine ⟨default, ?_, name⟩
    rw [cells, List.getElem?_set_ne (by decide), cell]

theorem fillLogConfInfos_complete {entry : List Char × ConfPairs} (complete : Complete infos)
    (computed : fillLogConfInfos infos entry = .ok next) : Complete next := by
  rcases entry with ⟨key, confPairs⟩
  simp only [fillLogConfInfos] at computed
  generalize getInfoFromConfPairs confPairs
    { SingleLogConfInfo.zero with name := key.take (fileNameLen - 1) } = info at computed
  split_ifs at computed
  · cases computed
    rcases lciAddInfo_start complete.toBuilt info with ⟨id, len, _⟩
    exact (complete.addStart info).insertName _ (by rw [id, len]; exact Nat.lt_succ_self _)
  · rcases checked : totalSwitchInfo confPairs info with stop | whole
    · simp [checked, bind, Except.bind] at computed
    · rw [checked] at computed
      cases computed
      rcases lciAddInfo_special complete.toBuilt whole
        (show infosIdTotalSwitch < infosIdStart by decide) with ⟨id, len, _⟩
      have inside : infosIdTotalSwitch < infos.len :=
        Nat.lt_of_lt_of_le (by decide) complete.special
      exact (complete.addTotal whole).insertName _ (by rw [id, len]; exact inside)

theorem complete_start (logSwitch : ℤ) :
    Complete (modifyInfo logConfInfosInit infosIdCtl fun info =>
      { info with logSwitch := logSwitch }) where
  length := rfl
  special := le_of_eq rfl
  filled := by
    have cells : (modifyInfo logConfInfosInit infosIdCtl fun info =>
        { info with logSwitch := logSwitch }).sinfo =
        [some { SingleLogConfInfo.zero with logSwitch := logSwitch },
          some (setDefaultSingleLogConfInfo .zero),
          some { setDefaultSingleLogConfInfo .zero with name := defaultLogFileName }] := by
      rfl
    rw [cells]
    simp
  leads := by
    intro name id looked
    have names : (modifyInfo logConfInfosInit infosIdCtl fun info =>
        { info with logSwitch := logSwitch }).names = [(defaultLogFileName, infosIdDefault)] := by
      rfl
    rw [names] at looked
    simp only [HashTable.lookup] at looked
    split_ifs at looked
    cases looked
    exact Nat.lt_succ_self 2
  default := ⟨_, rfl, rfl⟩

theorem Complete.copyIsValid (complete : Complete infos) : Complete (copyIsValid infos) := by
  unfold Log.copyIsValid
  split
  · exact complete
  · refine ⟨⟨?_, complete.special⟩, ?_, complete.leads, ?_⟩
    · rw [modifyInfo, List.length_modify]
      exact complete.length
    · intro member
      rcases List.mem_iff_getElem?.mp member with ⟨index, found⟩
      rw [modifyInfo, List.getElem?_modify] at found
      rcases cell : infos.sinfo[index]? with _ | _ | info
      · simp [cell] at found
      · exact complete.filled (List.mem_of_getElem? cell)
      · rw [cell] at found
        simp only [Option.map_eq_map, Option.map_some, Option.some.injEq] at found
        split_ifs at found
    · rcases complete.default with ⟨default, cell, name⟩
      refine ⟨default, ?_, name⟩
      simp [modifyInfo, infosIdCtl, infosIdDefault] at cell ⊢
      exact cell

end Fill

/-! ## From the file to the table -/

theorem logGetConfInfoFromFile_logSwitch {previous : Char} {file : ConfFile}
    {manager : LogManager}
    (read : logGetConfInfoFromFile previous file .cleared = .ok (0, manager)) :
    manager.logSwitch ≠ 0 := by
  have fresh : LogManager.cleared.initFlag ≠ iriConfFinishInit := by decide
  unfold logGetConfInfoFromFile at read
  rw [if_neg fresh] at read
  cases file with
  | missing => cases read
  | noMemory => cases read
  | readable content =>
      simp only at read
      rcases parsed : parseFileUsing dialect (getStringFlat previous) content noSections with
        fault | ⟨exit, sections⟩
      · simp [parsed] at read
      · have kept := parseFileUsing_preserves (fun sections => sections.logSwitch ≠ 0)
          (fun _ => True) (fun _ _ _ _ on => on) (fun _ _ nonzero _ => nonzero)
          (fun _ _ => trivial) (show noSections.logSwitch ≠ 0 by decide) parsed
        rw [parsed] at read
        cases exit with
        | finished =>
            cases read
            exact kept
        | closeAll => cases read
        | endError => cases read

section Table

variable {previous : Char} {order : SectionTable → SectionTable} {file : ConfFile}
  {infos : LogConfInfos}

/-- What holds of the initial table and is kept by every section and by the last step
holds of the table that is returned. -/
theorem getLogConfInfos_keeps {property : LogConfInfos → Prop}
    (starts : ∀ logSwitch, logSwitch ≠ 0 → property (modifyInfo logConfInfosInit infosIdCtl
      fun info => { info with logSwitch := logSwitch }))
    (fills : ∀ infos entry next, property infos → fillLogConfInfos infos entry = .ok next →
      property next)
    (copies : ∀ infos, property infos → property (copyIsValid infos))
    (computed : getLogConfInfos previous order file = .ok infos) : property infos := by
  have defaults : property logConfInfosInit := starts 1 (by decide)
  have folds : ∀ (entries : List (List Char × ConfPairs)) (first last : LogConfInfos),
      property first → entries.foldlM fillLogConfInfos first = .ok last → property last := by
    intro entries
    induction entries with
    | nil =>
        intro first last kept folded
        cases folded
        exact kept
    | cons entry entries induction =>
        intro first last kept folded
        rw [List.foldlM_cons] at folded
        rcases Fallible.of_bind_ok folded with ⟨middle, added, rest⟩
        exact induction middle last (fills first entry middle kept added) rest
  unfold getLogConfInfos at computed
  rcases read : logGetConfInfoFromFile previous file .cleared with stop | ⟨ret, manager⟩
  · simp [read, bind, Except.bind] at computed
  · rcases logGetConfInfoFromFile_table read with ⟨table, live, _⟩
    simp only [read, bind, Except.bind, live] at computed
    split at computed
    · rename_i same
      cases same
      rcases filling : fillFromSections manager.logSwitch (tableEntries (order table)) with
        stop | filled
      · simp [filling] at computed
      · simp only [filling, Except.ok.injEq] at computed
        rw [← computed]
        have on := logGetConfInfoFromFile_logSwitch read
        exact copies filled (folds _ _ _ (starts _ on) filling)
    · cases computed
      exact copies _ defaults

theorem totalSwitchInfo_error {confPairs : ConfPairs} {info : SingleLogConfInfo} {stop : Stop}
    (failed : totalSwitchInfo confPairs info = .error stop) : stop = .exit := by
  unfold totalSwitchInfo at failed
  split at failed
  · cases failed
    rfl
  · simp only at failed
    split at failed
    · cases failed
      rfl
    · split at failed
      · cases failed
        rfl
      · split at failed
        · cases failed
          rfl
        · cases failed

theorem fillLogConfInfos_error {entry : List Char × ConfPairs} {stop : Stop}
    (failed : fillLogConfInfos infos entry = .error stop) : stop = .exit := by
  rcases entry with ⟨key, confPairs⟩
  simp only [fillLogConfInfos] at failed
  generalize getInfoFromConfPairs confPairs
    { SingleLogConfInfo.zero with name := key.take (fileNameLen - 1) } = info at failed
  split_ifs at failed
  rcases checked : totalSwitchInfo confPairs info with stopped | whole
  · have exits : stopped = .exit := totalSwitchInfo_error checked
    rw [checked, exits] at failed
    cases failed
    rfl
  · rw [checked] at failed
    cases failed

theorem foldlM_fillLogConfInfos_error : ∀ (entries : List (List Char × ConfPairs))
    (infos : LogConfInfos) {stop : Stop},
    entries.foldlM fillLogConfInfos infos = .error stop → stop = .exit
  | [], infos, stop, failed => by cases failed
  | entry :: entries, infos, stop, failed => by
      rw [List.foldlM_cons] at failed
      rcases added : fillLogConfInfos infos entry with stopped | next
      · rw [Fallible.bind_error added] at failed
        cases failed
        exact fillLogConfInfos_error added
      · rw [Fallible.bind_ok added] at failed
        exact foldlM_fillLogConfInfos_error entries next failed

/-- A file that fits the parser's buffers gives a table, unless something in it ends the
process. -/
theorem getLogConfInfos_cases (previous : Char) (order : SectionTable → SectionTable)
    (file : ConfFile) :
    (file.fitsFlat dialect = false ∧
      ∃ fault, getLogConfInfos previous order file = .error (.access fault)) ∨
    (file.fitsFlat dialect = true ∧ (getLogConfInfos previous order file = .error .exit ∨
      ∃ infos, getLogConfInfos previous order file = .ok infos)) := by
  have fresh : LogManager.cleared.initFlag ≠ iriConfFinishInit := by decide
  cases file with
  | missing => exact .inr ⟨rfl, .inr ⟨_, rfl⟩⟩
  | noMemory => exact .inr ⟨rfl, .inr ⟨_, rfl⟩⟩
  | readable content =>
      have bounds := parseFileUsing_flat_inBounds previous dialect content noSections
      rw [ConfFile.fitsFlat, getLogConfInfos, logGetConfInfoFromFile, if_neg fresh]
      simp only
      rcases parsed : parseFileUsing dialect (getStringFlat previous) content noSections with
        fault | ⟨exit, sections⟩
      · refine .inl ⟨?_, fault, rfl⟩
        rw [← Bool.not_eq_true, ← bounds, parsed]
        exact not_inBounds_error fault
      · have fits : fileFitsUsing dialect nameShort content = true := by
          rw [← bounds, parsed]
          exact inBounds_ok _
        refine .inr ⟨fits, ?_⟩
        cases exit with
        | closeAll => exact .inr ⟨_, rfl⟩
        | endError => exact .inl rfl
        | finished =>
            simp only [bind, Except.bind, filled]
            rcases filling : fillFromSections sections.logSwitch
              (tableEntries (order sections.table)) with stop | infos
            · rw [foldlM_fillLogConfInfos_error _ _ filling]
              exact .inl rfl
            · exact .inr ⟨_, rfl⟩

theorem getLogConfInfos_complete (computed : getLogConfInfos previous order file = .ok infos) :
    Complete infos :=
  getLogConfInfos_keeps (fun logSwitch _ => complete_start logSwitch)
    (fun _ _ _ complete added => fillLogConfInfos_complete complete added)
    (fun _ complete => complete.copyIsValid) computed

theorem getLogConfInfos_loaded (computed : getLogConfInfos previous order file = .ok infos) :
    Loaded infos :=
  getLogConfInfos_keeps (fun _ on => loaded_start on)
    (fun _ _ _ loaded added => fillLogConfInfos_loaded loaded added)
    (fun _ loaded => loaded.copyIsValid) computed

end Table

end Lctools.Log
