import Lctools.Foundation.Fallible
import Lctools.Log.Select

/-! # The table of settings while it is filled

`lci_add_info` and `fill_log_conf_infos` in `iridiumlog_conf.c`: the cells and the
names of the table after each section, and what a later section leaves alone.
-/

namespace Lctools.Log

open Conf CString

/-! ## What the table should satisfy -/

/-- The id that the table `names` holds for a name. -/
def idOf (infos : LogConfInfos) (name : List Char) : Option ℕ :=
  HashTable.lookup (fun key => key) name infos.names

structure TableInvariant (infos : LogConfInfos) : Prop where
  special : infosIdStart ≤ infos.len
  allocated : infos.len ≤ infos.allocatedLen
  present : ∀ id < infos.len, ∃ info, infos.sinfo[id]? = some (some info)
  named : ∀ name id, idOf infos name = some id →
    id < infos.len ∧ ∃ info, infos.sinfo[id]? = some (some info) ∧ info.name = name
  separate : ∀ first second id, first ≠ second → idOf infos first = some id →
    idOf infos second ≠ some id

/-- What was entered before the sections with the names `added` is still there,
apart from the cell of the total switch when it got its section. -/
structure Kept (added : List (List Char)) (infos later : LogConfInfos) : Prop where
  ids : ∀ name id, idOf infos name = some id → idOf later name = some id
  cells : ∀ id info, infos.sinfo[id]? = some (some info) →
    later.sinfo[id]? = some (some info) ∨
      id = infosIdTotalSwitch ∧ totalSwitchModeName ∈ added

def startInfos (logSwitch : ℤ) : LogConfInfos :=
  modifyInfo logConfInfosInit infosIdCtl fun info => { info with logSwitch := logSwitch }

/-- The table is in order after each section, and later sections keep what earlier
ones entered. -/
def TableKept (logSwitch : ℤ) (order : List (List Char × ConfPairs)) : Prop :=
  ∀ (before middle after : List (List Char × ConfPairs)) (infos later : LogConfInfos),
    order = before ++ middle ++ after →
    before.foldlM fillLogConfInfos (startInfos logSwitch) = .ok infos →
    middle.foldlM fillLogConfInfos infos = .ok later →
    TableInvariant infos ∧ Kept (middle.map Prod.fst) infos later

/-- A section that does not end the process: any but a `TOTAL_SWITCH` without the
values that it must have. -/
def accepted (entry : List Char × ConfPairs) : Bool :=
  entry.1 ≠ totalSwitchModeName || (totalSwitchInfo entry.2 .zero).isOk

/-! ## One section -/

/-- A section with the name `key` was entered under `id`. -/
structure Entered (infos next : LogConfInfos) (key : List Char) (id : ℕ)
    (info : SingleLogConfInfo) : Prop extends Built next where
  name : info.name = key
  names : next.names = HashTable.insert (fun key => key) key id infos.names
  allocated : infos.len ≤ infos.allocatedLen → next.len ≤ next.allocatedLen
  grows : infos.len ≤ next.len
  cell : next.sinfo[id]? = some (some info)
  others : ∀ other, other ≠ id → other < next.len →
    other < infos.len ∧ next.sinfo[other]? = infos.sinfo[other]?

theorem lciAddInfo_allocated {infos : LogConfInfos} (built : Built infos)
    (info : SingleLogConfInfo) (id : ℕ) (allocated : infos.len ≤ infos.allocatedLen) :
    (lciAddInfo infos info id).2.len ≤ (lciAddInfo infos info id).2.allocatedLen := by
  have present := built.present
  unfold lciAddInfo
  by_cases grow : infos.allocatedLen ≤ infos.len
  · simp only [grow, present, if_true, if_false]
    split_ifs <;> simp <;> omega
  · simp only [grow, if_false]
    split_ifs <;> simp <;> omega

theorem entered_start {infos : LogConfInfos} (built : Built infos) (info : SingleLogConfInfo) :
    Entered infos (insertName info.name (lciAddInfo infos info infosIdStart).1
      (lciAddInfo infos info infosIdStart).2) info.name infos.len info := by
  rcases lciAddInfo_start built info with ⟨id, len, cells, names⟩
  refine ⟨⟨?_, ?_⟩, rfl, ?_, lciAddInfo_allocated built info infosIdStart, ?_, ?_, ?_⟩
  · rw [insertName, cells, len, List.length_append, built.length]
    rfl
  · rw [insertName, len]
    exact Nat.le_succ_of_le built.special
  · rw [insertName, names, id]
  · rw [insertName, len]
    exact Nat.le_succ _
  · rw [insertName, cells, ← built.length]
    simp
  · intro other different inside
    rw [insertName, len] at inside
    have old : other < infos.len := by omega
    rw [insertName, cells, List.getElem?_append_left (by rw [built.length]; exact old)]
    exact ⟨old, rfl⟩

theorem entered_total {infos : LogConfInfos} (built : Built infos) (info : SingleLogConfInfo) :
    Entered infos (insertName info.name (lciAddInfo infos info infosIdTotalSwitch).1
      (lciAddInfo infos info infosIdTotalSwitch).2) info.name infosIdTotalSwitch info := by
  rcases lciAddInfo_special built info
    (show infosIdTotalSwitch < infosIdStart by decide) with ⟨id, len, cells, names⟩
  have place : infosIdTotalSwitch < infos.sinfo.length := by
    rw [built.length]
    exact Nat.lt_of_lt_of_le (by decide) built.special
  refine ⟨⟨?_, ?_⟩, rfl, ?_, lciAddInfo_allocated built info infosIdTotalSwitch, ?_, ?_, ?_⟩
  · rw [insertName, cells, len, List.length_set, built.length]
  · rw [insertName, len]
    exact built.special
  · rw [insertName, names, id]
  · rw [insertName, len]
  · rw [insertName, cells]
    simp [place]
  · intro other different inside
    rw [insertName, len] at inside
    rw [insertName, cells, List.getElem?_set_ne different.symm]
    exact ⟨inside, rfl⟩

theorem totalSwitchInfo_isOk (confPairs : ConfPairs) (info : SingleLogConfInfo) :
    (totalSwitchInfo confPairs info).isOk = (totalSwitchInfo confPairs .zero).isOk := by
  simp only [totalSwitchInfo]
  rcases getValue confPairs totalSwitchIsValid with _ | value
  · rfl
  · simp only
    split_ifs
    · rfl
    · rcases getValue confPairs totalSwitchTimer with _ | timer
      · rfl
      · simp only
        split_ifs <;> rfl

theorem fillLogConfInfos_cases {infos : LogConfInfos} (built : Built infos)
    {entry : List Char × ConfPairs} (short : entry.1.length < fileNameLen) :
    (accepted entry = true ∧ ∃ next id info, fillLogConfInfos infos entry = .ok next ∧
      Entered infos next entry.1 id info ∧
      (entry.1 ≠ totalSwitchModeName ∧ id = infos.len ∨
        entry.1 = totalSwitchModeName ∧ id = infosIdTotalSwitch)) ∨
    (accepted entry = false ∧ ∃ stop, fillLogConfInfos infos entry = .error stop) := by
  rcases entry with ⟨key, confPairs⟩
  have label : key.take (fileNameLen - 1) = key :=
    List.take_of_length_le (Nat.le_sub_one_of_lt short)
  have name : (getInfoFromConfPairs confPairs
      { SingleLogConfInfo.zero with name := key }).name = key := by
    rw [getInfoFromConfPairs_name]
  have allows := totalSwitchInfo_isOk confPairs
    (getInfoFromConfPairs confPairs { SingleLogConfInfo.zero with name := key })
  simp only [fillLogConfInfos, label, accepted]
  generalize getInfoFromConfPairs confPairs { SingleLogConfInfo.zero with name := key } = info
    at name allows
  subst name
  by_cases total : info.name = totalSwitchModeName
  · rw [← allows]
    have special : ¬info.name ≠ totalSwitchModeName := not_not.mpr total
    rcases checked : totalSwitchInfo confPairs info with stop | complete
    · refine .inr ⟨?_, stop, ?_⟩
      · rw [decide_eq_false special]
        rfl
      · rw [if_neg special]
        rfl
    · rcases totalSwitchInfo_changes checked with ⟨isValid, timer, rfl⟩
      refine .inl ⟨?_, _, _, _, ?_,
        entered_total built { info with isValid := isValid, timer := timer }, .inr ⟨total, rfl⟩⟩
      · rw [decide_eq_false special]
        rfl
      · rw [if_neg special]
        rfl
  · refine .inl ⟨by simp [total], _, _, info, ?_, entered_start built info, .inl ⟨total, rfl⟩⟩
    simp [total]

theorem idOf_entered {infos next : LogConfInfos} {key : List Char} {id : ℕ}
    {info : SingleLogConfInfo} (entered : Entered infos next key id info) (name : List Char) :
    idOf next name = if key = name then some id else idOf infos name := by
  rw [idOf, entered.names, HashTable.lookup_insert]
  rfl

/-! ## All sections -/

/-- The table after the sections with the names `seen`. Only the section of the
total switch is entered under its special id. -/
structure FilledWith (seen : List (List Char)) (infos : LogConfInfos) : Prop
    extends Built infos where
  allocated : infos.len ≤ infos.allocatedLen
  present : ∀ id < infos.len, ∃ info, infos.sinfo[id]? = some (some info)
  named : ∀ name id, idOf infos name = some id →
    id < infos.len ∧ ∃ info, infos.sinfo[id]? = some (some info) ∧ info.name = name
  total : ∀ name, idOf infos name = some infosIdTotalSwitch → name = totalSwitchModeName
  known : ∀ name, name ∉ seen → name ≠ defaultLogFileName → idOf infos name = none

theorem FilledWith.tableInvariant {seen : List (List Char)} {infos : LogConfInfos}
    (filled : FilledWith seen infos) : TableInvariant infos where
  special := filled.special
  allocated := filled.allocated
  present := filled.present
  named := filled.named
  separate := by
    intro first second id different firstId secondId
    rcases filled.named first id firstId with ⟨_, info, cell, firstName⟩
    rcases filled.named second id secondId with ⟨_, other, otherCell, secondName⟩
    rw [cell] at otherCell
    cases otherCell
    exact different (firstName.symm.trans secondName)

theorem filledWith_start (logSwitch : ℤ) : FilledWith [] (startInfos logSwitch) where
  length := rfl
  special := le_of_eq rfl
  allocated := show 3 ≤ 50 by decide
  present := by
    intro id inside
    have cases : id = 0 ∨ id = 1 ∨ id = 2 := by
      have bound : id < 3 := inside
      omega
    rcases cases with rfl | rfl | rfl
    · exact ⟨_, rfl⟩
    · exact ⟨_, rfl⟩
    · exact ⟨_, rfl⟩
  named := by
    intro name id found
    change (if defaultLogFileName = name then some infosIdDefault else none) = some id at found
    split_ifs at found with same
    cases found
    exact ⟨show 2 < 3 by decide, _, rfl, same⟩
  total := by
    intro name found
    change (if defaultLogFileName = name then some infosIdDefault else none) =
      some infosIdTotalSwitch at found
    split_ifs at found
    cases found
  known := by
    intro name _ other
    exact if_neg other.symm

section Step

variable {seen : List (List Char)} {infos next : LogConfInfos}
  {entry : List Char × ConfPairs}

theorem fillLogConfInfos_entered (built : Built infos) (short : entry.1.length < fileNameLen)
    (computed : fillLogConfInfos infos entry = .ok next) :
    accepted entry = true ∧ ∃ id info, Entered infos next entry.1 id info ∧
      (entry.1 ≠ totalSwitchModeName ∧ id = infos.len ∨
        entry.1 = totalSwitchModeName ∧ id = infosIdTotalSwitch) := by
  rcases fillLogConfInfos_cases built short with
    ⟨good, other, id, info, ran, entered, place⟩ | ⟨_, stop, stopped⟩
  · rw [ran] at computed
    cases computed
    exact ⟨good, id, info, entered, place⟩
  · rw [stopped] at computed
    cases computed

theorem FilledWith.apart (filled : FilledWith seen infos) {key name : List Char} {id old : ℕ}
    (place : key ≠ totalSwitchModeName ∧ id = infos.len ∨
      key = totalSwitchModeName ∧ id = infosIdTotalSwitch)
    (different : key ≠ name) (found : idOf infos name = some old) : old ≠ id := by
  rintro rfl
  rcases place with ⟨_, rfl⟩ | ⟨total, rfl⟩
  · exact absurd (filled.named name _ found).1 (Nat.lt_irrefl _)
  · exact different (total.trans (filled.total name found).symm)

variable (filled : FilledWith seen infos) (short : entry.1.length < fileNameLen)
  (computed : fillLogConfInfos infos entry = .ok next)

include filled short computed

theorem FilledWith.step : FilledWith (seen ++ [entry.1]) next := by
  rcases fillLogConfInfos_entered filled.toBuilt short computed with
    ⟨_, id, info, entered, place⟩
  have looked := idOf_entered entered
  have inside : id < next.len := by
    rw [← entered.length]
    exact (List.getElem?_eq_some_iff.mp entered.cell).1
  refine ⟨entered.toBuilt, entered.allocated filled.allocated, ?_, ?_, ?_, ?_⟩
  · intro other bound
    by_cases same : other = id
    · exact ⟨info, same ▸ entered.cell⟩
    · rcases entered.others other same bound with ⟨old, unchanged⟩
      rw [unchanged]
      exact filled.present other old
  · intro name old found
    rw [looked] at found
    split_ifs at found with same
    · cases found
      exact ⟨inside, info, entered.cell, entered.name.trans same⟩
    · rcases filled.named name old found with ⟨bound, oldInfo, cell, label⟩
      have stillInside := Nat.lt_of_lt_of_le bound entered.grows
      have unchanged := (entered.others old (filled.apart place same found) stillInside).2
      exact ⟨stillInside, oldInfo, unchanged.trans cell, label⟩
  · intro name found
    rw [looked] at found
    split_ifs at found with same
    · cases found
      rcases place with ⟨_, last⟩ | ⟨total, _⟩
      · have special := filled.special
        rw [← last] at special
        exact absurd special (by decide)
      · exact same.symm.trans total
    · exact filled.total name found
  · intro name unseen other
    rw [List.mem_append, List.mem_singleton, not_or] at unseen
    rw [looked, if_neg (Ne.symm unseen.2)]
    exact filled.known name unseen.1 other

theorem FilledWith.kept (fresh : entry.1 ∉ seen) (notDefault : entry.1 ≠ defaultLogFileName) :
    Kept [entry.1] infos next := by
  rcases fillLogConfInfos_entered filled.toBuilt short computed with
    ⟨_, id, info, entered, place⟩
  refine ⟨?_, ?_⟩
  · intro name old found
    rw [idOf_entered entered, if_neg]
    · exact found
    · intro same
      rw [← same, filled.known entry.1 fresh notDefault] at found
      cases found
  · intro old oldInfo cell
    have bound : old < infos.len := by
      rw [← filled.length]
      exact (List.getElem?_eq_some_iff.mp cell).1
    by_cases same : old = id
    · rcases place with ⟨_, last⟩ | ⟨total, special⟩
      · omega
      · exact .inr ⟨same.trans special, List.mem_singleton.mpr total.symm⟩
    · have unchanged := (entered.others old same (Nat.lt_of_lt_of_le bound entered.grows)).2
      exact .inl (unchanged.trans cell)

end Step

theorem Kept.refl (infos : LogConfInfos) : Kept [] infos infos :=
  ⟨fun _ _ found => found, fun _ _ cell => .inl cell⟩

theorem Kept.trans {first second : List (List Char)} {infos middle later : LogConfInfos}
    (before : Kept first infos middle) (after : Kept second middle later) :
    Kept (first ++ second) infos later := by
  refine ⟨fun name id found => after.ids name id (before.ids name id found), ?_⟩
  intro id info cell
  rw [List.mem_append]
  rcases before.cells id info cell with same | ⟨total, added⟩
  · rcases after.cells id info same with same | ⟨total, added⟩
    · exact .inl same
    · exact .inr ⟨total, .inr added⟩
  · exact .inr ⟨total, .inl added⟩

theorem foldlM_filledWith : ∀ {order : List (List Char × ConfPairs)} {seen : List (List Char)}
    {infos last : LogConfInfos}, FilledWith seen infos →
    (∀ entry ∈ order, entry.1.length < fileNameLen) →
    order.foldlM fillLogConfInfos infos = .ok last →
    FilledWith (seen ++ order.map Prod.fst) last ∧ ∀ entry ∈ order, accepted entry = true
  | [], seen, infos, last, filled, _, folded => by
      cases folded
      rw [List.map_nil, List.append_nil]
      exact ⟨filled, nofun⟩
  | entry :: order, seen, infos, last, filled, short, folded => by
      rw [List.foldlM_cons] at folded
      rcases Fallible.of_bind_ok folded with ⟨middle, added, rest⟩
      have first := short entry (List.mem_cons_self ..)
      have good := (fillLogConfInfos_entered filled.toBuilt first added).1
      rcases foldlM_filledWith (filled.step first added)
        (fun other member => short other (List.mem_cons_of_mem _ member)) rest with
        ⟨filledLast, goodRest⟩
      rw [List.append_assoc] at filledLast
      exact ⟨filledLast, List.forall_mem_cons.mpr ⟨good, goodRest⟩⟩

theorem foldlM_kept : ∀ {order : List (List Char × ConfPairs)} {seen : List (List Char)}
    {infos last : LogConfInfos}, FilledWith seen infos →
    (∀ entry ∈ order, entry.1.length < fileNameLen ∧ entry.1 ≠ defaultLogFileName) →
    (seen ++ order.map Prod.fst).Nodup →
    order.foldlM fillLogConfInfos infos = .ok last → Kept (order.map Prod.fst) infos last
  | [], seen, infos, last, _, _, _, folded => by
      cases folded
      exact .refl infos
  | entry :: order, seen, infos, last, filled, allowed, distinct, folded => by
      rw [List.foldlM_cons] at folded
      rcases Fallible.of_bind_ok folded with ⟨middle, added, rest⟩
      have first := allowed entry (List.mem_cons_self ..)
      have fresh : entry.1 ∉ seen := by
        rw [List.map_cons, List.nodup_append] at distinct
        intro member
        exact distinct.2.2 _ member _ (List.mem_cons_self ..) rfl
      have laterKept := foldlM_kept (filled.step first.1 added)
        (fun other member => allowed other (List.mem_cons_of_mem _ member))
        (by simpa using distinct) rest
      exact (filled.kept first.1 added fresh first.2).trans laterKept

theorem foldlM_accepted : ∀ {order : List (List Char × ConfPairs)} {seen : List (List Char)}
    {infos : LogConfInfos}, FilledWith seen infos →
    (∀ entry ∈ order, entry.1.length < fileNameLen) →
    (∀ entry ∈ order, accepted entry = true) →
    ∃ last, order.foldlM fillLogConfInfos infos = .ok last
  | [], _, infos, _, _, _ => ⟨infos, rfl⟩
  | entry :: order, seen, infos, filled, short, good => by
      have first := short entry (List.mem_cons_self ..)
      rcases fillLogConfInfos_cases filled.toBuilt first with
        ⟨_, next, _, _, added, _⟩ | ⟨bad, _⟩
      · rcases foldlM_accepted (filled.step first added)
          (fun other member => short other (List.mem_cons_of_mem _ member))
          (fun other member => good other (List.mem_cons_of_mem _ member)) with ⟨last, rest⟩
        refine ⟨last, ?_⟩
        rw [List.foldlM_cons]
        exact (Fallible.bind_ok added _).trans rest
      · rw [good entry (List.mem_cons_self ..)] at bad
        cases bad

/-- A section with the default name gets an id of its own, so that its name leaves
the default record. -/
theorem not_kept_default {seen : List (List Char)} {infos next : LogConfInfos}
    {entry : List Char × ConfPairs} (filled : FilledWith seen infos)
    (default : entry.1 = defaultLogFileName)
    (known : idOf infos defaultLogFileName = some infosIdDefault)
    (computed : fillLogConfInfos infos entry = .ok next) : ¬Kept [entry.1] infos next := by
  intro kept
  have short : entry.1.length < fileNameLen := by
    rw [default]
    decide
  rcases fillLogConfInfos_entered filled.toBuilt short computed with
    ⟨_, id, info, entered, place⟩
  have stays := kept.ids _ _ known
  rw [idOf_entered entered, if_pos default] at stays
  cases stays
  rcases place with ⟨_, last⟩ | ⟨total, _⟩
  · have special := filled.special
    rw [← last] at special
    exact absurd special (by decide)
  · rw [default] at total
    exact absurd total (by decide)

section Whole

variable {logSwitch : ℤ} {order : List (List Char × ConfPairs)}

/-- A section that is entered stands behind sections that are entered too. -/
theorem exists_before_of_mem_takeWhile {entry : List Char × ConfPairs}
    (member : entry ∈ order.takeWhile accepted) :
    ∃ before after, order = before ++ [entry] ++ after ∧
      ∀ other ∈ before ++ [entry], accepted other = true := by
  rcases List.append_of_mem member with ⟨before, rest, split⟩
  refine ⟨before, rest ++ order.dropWhile accepted, ?_, ?_⟩
  · calc order = order.takeWhile accepted ++ order.dropWhile accepted :=
          (List.takeWhile_append_dropWhile ..).symm
      _ = before ++ [entry] ++ (rest ++ order.dropWhile accepted) := by
          rw [split]
          simp
  · intro other inside
    apply List.mem_takeWhile_imp (l := order)
    rw [split]
    rcases List.mem_append.mp inside with earlier | last
    · exact List.mem_append_left _ earlier
    · rw [List.mem_singleton.mp last]
      exact List.mem_append_right _ (List.mem_cons_self ..)

theorem not_tableKept_of_default (short : ∀ entry ∈ order, entry.1.length < fileNameLen)
    {entry : List Char × ConfPairs} (member : entry ∈ order.takeWhile accepted)
    (default : entry.1 = defaultLogFileName) : ¬TableKept logSwitch order := by
  intro kept
  rcases exists_before_of_mem_takeWhile member with ⟨before, after, whole, good⟩
  have shortAll : ∀ other ∈ before ++ [entry], other.1.length < fileNameLen := by
    intro other inside
    exact short other (whole ▸ List.mem_append_left _ inside)
  have start := filledWith_start logSwitch
  rcases foldlM_accepted start
    (fun other inside => shortAll other (List.mem_append_left _ inside))
    (fun other inside => good other (List.mem_append_left _ inside)) with ⟨infos, folded⟩
  have filled := (foldlM_filledWith start
    (fun other inside => shortAll other (List.mem_append_left _ inside)) folded).1
  rcases foldlM_accepted filled
    (fun other inside => shortAll other (List.mem_append_right _ inside))
    (fun other inside => good other (List.mem_append_right _ inside)) with ⟨next, added⟩
  have known : idOf infos defaultLogFileName = some infosIdDefault :=
    (kept [] before ([entry] ++ after) _ _ (by simpa using whole) rfl folded).2.ids _ _ rfl
  have computed : fillLogConfInfos infos entry = .ok next := by
    rcases Fallible.of_bind_ok added with ⟨last, filledEntry, same⟩
    cases same
    exact filledEntry
  exact not_kept_default filled default known computed
    (kept before [entry] after _ _ whole folded added).2

/-- While the table is filled, it is in order after each section and keeps what it
holds, exactly if no section that is entered has the name of the default log. -/
theorem tableKept_iff_default_unused (logSwitch : ℤ) (order : List (List Char × ConfPairs))
    (distinct : (order.map Prod.fst).Nodup)
    (short : ∀ entry ∈ order, entry.1.length < fileNameLen) :
    TableKept logSwitch order ↔
      ∀ entry ∈ order.takeWhile accepted, entry.1 ≠ defaultLogFileName := by
  constructor
  · intro kept entry member default
    exact not_tableKept_of_default short member default kept
  · intro unused before middle after infos later split foldedBefore foldedMiddle
    have shortAll : ∀ other ∈ before ++ middle, other.1.length < fileNameLen := by
      intro other inside
      exact short other (split ▸ List.mem_append_left _ inside)
    rcases foldlM_filledWith (filledWith_start logSwitch)
      (fun other inside => shortAll other (List.mem_append_left _ inside)) foldedBefore with
      ⟨filled, goodBefore⟩
    rcases foldlM_filledWith filled
      (fun other inside => shortAll other (List.mem_append_right _ inside)) foldedMiddle with
      ⟨_, goodMiddle⟩
    have notDefault : ∀ other ∈ before ++ middle, other.1 ≠ defaultLogFileName := by
      intro other inside
      apply unused
      rw [split, List.takeWhile_append_of_pos]
      · exact List.mem_append_left _ inside
      · intro entry entered
        exact (List.mem_append.mp entered).elim (goodBefore entry) (goodMiddle entry)
    rw [split, List.map_append, List.map_append] at distinct
    refine ⟨filled.tableInvariant, foldlM_kept filled ?_ ?_ foldedMiddle⟩
    · intro other inside
      exact ⟨shortAll other (List.mem_append_right _ inside),
        notDefault other (List.mem_append_right _ inside)⟩
    · rw [List.nil_append]
      exact (List.nodup_append.mp distinct).1

end Whole

/-- The sections `-a.log` and `-TOTAL_SWITCH`. -/
def twoSections : List (List Char × ConfPairs) :=
  [("a.log".toList, ⟨"a.log".toList, []⟩),
    (totalSwitchModeName, ⟨totalSwitchModeName,
      [⟨totalSwitchIsValid, "0".toList⟩, ⟨totalSwitchTimer, "10".toList⟩]⟩)]

theorem tableKept_twoSections : TableKept 1 twoSections :=
  (tableKept_iff_default_unused 1 twoSections (by decide) (by decide)).mpr (by decide)

/-- A section of the default log moves the name `iridium_default` from the id 2 to
the id 3. -/
theorem not_tableKept_default :
    ¬TableKept 1 [(defaultLogFileName, ⟨defaultLogFileName, []⟩)] := by
  intro kept
  have moved := (kept [] [(defaultLogFileName, ⟨defaultLogFileName, []⟩)] [] _ _ rfl rfl rfl).2.ids
    defaultLogFileName infosIdDefault rfl
  exact absurd moved (by decide)

end Lctools.Log
