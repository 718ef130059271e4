import Lctools.Foundation.Flags
import Lctools.Log.Conf

/-! # The rows of switches

`irilog_conf_line_handle` in `iridiumlog_conf.c` on the three rows that hold one
digit for each switch: what an accepted row stores, and what a row that it rejects
leaves behind.
-/

namespace Lctools.Log

open Conf CString Numerals

/-! ## What a row assigns -/

def isSwitchChar (c : Char) : Bool :=
  c == '0' || c == '1'

def levelFlags : List (Flag IrilogSwitch) :=
  [⟨IrilogSwitch.debug, fun on switch => { switch with debug := on },
      fun _ _ => rfl, fun _ => rfl⟩,
    ⟨IrilogSwitch.info, fun on switch => { switch with info := on },
      fun _ _ => rfl, fun _ => rfl⟩,
    ⟨IrilogSwitch.err, fun on switch => { switch with err := on },
      fun _ _ => rfl, fun _ => rfl⟩,
    ⟨IrilogSwitch.fatal, fun on switch => { switch with fatal := on },
      fun _ _ => rfl, fun _ => rfl⟩]

def fileFlags : List (Flag IrilogSwitch) :=
  [⟨IrilogSwitch.logFile, fun on switch => { switch with logFile := on },
      fun _ _ => rfl, fun _ => rfl⟩,
    ⟨IrilogSwitch.fFile, fun on switch => { switch with fFile := on },
      fun _ _ => rfl, fun _ => rfl⟩,
    ⟨IrilogSwitch.fFunc, fun on switch => { switch with fFunc := on },
      fun _ _ => rfl, fun _ => rfl⟩,
    ⟨IrilogSwitch.fLine, fun on switch => { switch with fLine := on },
      fun _ _ => rfl, fun _ => rfl⟩,
    ⟨IrilogSwitch.fDate, fun on switch => { switch with fDate := on },
      fun _ _ => rfl, fun _ => rfl⟩]

def terminalFlags : List (Flag IrilogSwitch) :=
  [⟨IrilogSwitch.logTerminal, fun on switch => { switch with logTerminal := on },
      fun _ _ => rfl, fun _ => rfl⟩,
    ⟨IrilogSwitch.pFile, fun on switch => { switch with pFile := on },
      fun _ _ => rfl, fun _ => rfl⟩,
    ⟨IrilogSwitch.pFunc, fun on switch => { switch with pFunc := on },
      fun _ _ => rfl, fun _ => rfl⟩,
    ⟨IrilogSwitch.pLine, fun on switch => { switch with pLine := on },
      fun _ _ => rfl, fun _ => rfl⟩,
    ⟨IrilogSwitch.pDate, fun on switch => { switch with pDate := on },
      fun _ _ => rfl, fun _ => rfl⟩]

/-- The switches that a row with the given name holds. -/
def rowFlags (name : List Char) : List (Flag IrilogSwitch) :=
  if name = "DEBUG.INFO.ERR.FATAL".toList then levelFlags
  else if name = "LOG_FILE.FILE.FUNC.LINE.DATE".toList then fileFlags
  else if name = "LOG_TERMINAL.FILE.FUNC.LINE.DATE".toList then terminalFlags
  else []

def rowChars (name value : List Char) : List Char :=
  ((text value).filter (· ≠ '.')).take (rowFlags name).length

theorem rowFlags_independent (name : List Char) : Flag.Independent (rowFlags name) := by
  rw [rowFlags]
  split_ifs <;> simp [Flag.Independent, levelFlags, fileFlags, terminalFlags]

theorem isLevelTrueInner_switchChar (c : Char) :
    (isSwitchChar c = true ∧ ¬isLevelTrueInner c < 0 ∧
      decide (isLevelTrueInner c = 1) = (c == '1')) ∨
    (isSwitchChar c = false ∧ isLevelTrueInner c < 0) := by
  by_cases zero : c = '0'
  · subst zero
    exact .inl (by decide)
  · by_cases one : c = '1'
    · subst one
      exact .inl (by decide)
    · refine .inr ⟨by simp [isSwitchChar, zero, one], ?_⟩
      by_cases digit : c.isDigit = true
      · have value := atoi_digit digit
        have lower : 48 ≤ c.toNat := (Char.isDigit_iff_toNat.mp digit).1
        have notOne : ¬atoi [c] = 1 := by
          intro equal
          exact one (Char.toNat_inj.mp (show c.toNat = 49 by omega))
        have notZero : ¬atoi [c] = 0 := by
          intro equal
          exact zero (Char.toNat_inj.mp (show c.toNat = 48 by omega))
        simp [isLevelTrueInner, digit, notOne, notZero]
      · simp [isLevelTrueInner, digit]

theorem switchRow_eq : ∀ (value : List Char) (flags : List (Flag IrilogSwitch))
    (switch : IrilogSwitch),
    switchRow value (flags.map Flag.set) switch =
      (if ((value.filter (· ≠ '.')).take flags.length).all isSwitchChar then 0 else -1,
        Flag.assign flags
          ((((value.filter (· ≠ '.')).take flags.length).takeWhile isSwitchChar).map (· == '1'))
          switch)
  | [], flags, switch => by simp [switchRow]
  | c :: value, flags, switch => by
      by_cases dot : c = '.'
      · simp [switchRow, dot, switchRow_eq value flags switch]
      · cases flags with
        | nil => simp [switchRow, dot, Flag.assign]
        | cons flag flags =>
            rcases isLevelTrueInner_switchChar c with ⟨good, level, on⟩ | ⟨bad, level⟩
            · simp [switchRow, dot, level, good, on, switchRow_eq value flags, Flag.assign]
            · simp [switchRow, dot, level, bad]

/-- The switches that are given in front of the first bad character. -/
def rowValues (name value : List Char) : List Bool :=
  ((rowChars name value).takeWhile isSwitchChar).map (· == '1')

/-- A row of switches either is good or stops at its first bad character; what
stands in front of that is stored in both cases. -/
theorem irilogConfLineHandle_row (info : SingleLogConfInfo) {name : List Char}
    (switches : rowFlags name ≠ []) (value : List Char) :
    irilogConfLineHandle info name value =
      (if (rowChars name value).all isSwitchChar then 0 else -1,
        { info with
          irilogSwitch := Flag.assign (rowFlags name) (rowValues name value)
            info.irilogSwitch }) := by
  have assigned := switchRow_eq (text value) (rowFlags name) info.irilogSwitch
  have handled : irilogConfLineHandle info name value =
      ((switchRow (text value) ((rowFlags name).map Flag.set) info.irilogSwitch).1,
        { info with irilogSwitch :=
          (switchRow (text value) ((rowFlags name).map Flag.set) info.irilogSwitch).2 }) := by
    by_cases level : name = "DEBUG.INFO.ERR.FATAL".toList
    · rw [irilogConfLineHandle, if_pos level, rowFlags, if_pos level]
      rfl
    · by_cases file : name = "LOG_FILE.FILE.FUNC.LINE.DATE".toList
      · rw [irilogConfLineHandle, if_neg level, if_pos file, rowFlags, if_neg level,
          if_pos file]
        rfl
      · by_cases terminal : name = "LOG_TERMINAL.FILE.FUNC.LINE.DATE".toList
        · rw [irilogConfLineHandle, if_neg level, if_neg file, if_pos terminal, rowFlags,
            if_neg level, if_neg file, if_pos terminal]
          rfl
        · rw [rowFlags, if_neg level, if_neg file, if_neg terminal] at switches
          exact absurd rfl switches
  rw [handled, assigned]
  rfl

theorem irilogConfLineHandle_other (info : SingleLogConfInfo) {name : List Char}
    (other : rowFlags name = []) (value : List Char) :
    (irilogConfLineHandle info name value).1 = 0 := by
  have level : name ≠ "DEBUG.INFO.ERR.FATAL".toList := by
    rintro rfl
    exact absurd other (by decide)
  have file : name ≠ "LOG_FILE.FILE.FUNC.LINE.DATE".toList := by
    rintro rfl
    exact absurd other (by decide)
  have terminal : name ≠ "LOG_TERMINAL.FILE.FUNC.LINE.DATE".toList := by
    rintro rfl
    exact absurd other (by decide)
  rw [irilogConfLineHandle, if_neg level, if_neg file, if_neg terminal]
  repeat' split
  all_goals rfl

/-! ## Accepted rows -/

inductive SwitchRow where
  | level
  | file
  | terminal
  deriving DecidableEq, Repr

namespace SwitchRow

/-- The name in `info_head`. -/
def name : SwitchRow → List Char
  | level => "DEBUG.INFO.ERR.FATAL".toList
  | file => "LOG_FILE.FILE.FUNC.LINE.DATE".toList
  | terminal => "LOG_TERMINAL.FILE.FUNC.LINE.DATE".toList

def size : SwitchRow → ℕ
  | level => 4
  | file => 5
  | terminal => 5

def flags : SwitchRow → List (Flag IrilogSwitch)
  | level => levelFlags
  | file => fileFlags
  | terminal => terminalFlags

/-- The row's switches have the `digits` as far as these go, and nothing else
has changed. -/
structure Stored (row : SwitchRow) (digits : List Char) (before after : SingleLogConfInfo) :
    Prop where
  given : ∀ (i : ℕ) (inRow : i < row.flags.length) (inText : i < digits.length),
    row.flags[i].get after.irilogSwitch = (digits[i] == '1')
  remaining : ∀ (i : ℕ) (inRow : i < row.flags.length), digits.length ≤ i →
    row.flags[i].get after.irilogSwitch = row.flags[i].get before.irilogSwitch
  otherRows : ∀ other : SwitchRow, other ≠ row → ∀ flag ∈ other.flags,
    flag.get after.irilogSwitch = flag.get before.irilogSwitch
  otherFields : { after with irilogSwitch := before.irilogSwitch } = before

theorem length_flags (row : SwitchRow) : row.flags.length = row.size := by
  cases row <;> rfl

theorem rowFlags_name (row : SwitchRow) : rowFlags row.name = row.flags := by
  cases row with
  | level => exact if_pos rfl
  | file => exact (if_neg (by decide)).trans (if_pos rfl)
  | terminal =>
      exact (if_neg (by decide)).trans ((if_neg (by decide)).trans (if_pos rfl))

theorem flags_independent (row : SwitchRow) : Flag.Independent row.flags := by
  rw [← rowFlags_name]
  exact rowFlags_independent row.name

theorem flags_reverse_independent (row : SwitchRow) : Flag.Independent row.flags.reverse := by
  apply List.pairwise_reverse.mpr
  cases row <;> simp [flags, levelFlags, fileFlags, terminalFlags]

theorem flags_apart {row other : SwitchRow} (different : other ≠ row) :
    ∀ flag ∈ other.flags, ∀ written ∈ row.flags, ∀ on switch,
      flag.get (written.set on switch) = flag.get switch := by
  cases row <;> cases other <;>
    simp [flags, levelFlags, fileFlags, terminalFlags] at different ⊢

theorem get_assign_digits (row : SwitchRow) (digits : List Char) (switch : IrilogSwitch) {i : ℕ}
    (inRow : i < row.flags.length) :
    row.flags[i].get
        (Flag.assign row.flags ((digits.take row.flags.length).map (· == '1')) switch) =
      if inText : i < digits.length then digits[i] == '1' else row.flags[i].get switch := by
  rw [Flag.get_assign _ switch row.flags_independent row.flags_reverse_independent inRow,
    List.getD_eq_getElem?_getD, List.getElem?_map, List.getElem?_take_of_lt inRow]
  split_ifs with inText
  · simp [inText]
  · simp [inText]

theorem stored_assign (row : SwitchRow) (digits : List Char) (info : SingleLogConfInfo) :
    row.Stored digits info { info with
      irilogSwitch := Flag.assign row.flags ((digits.take row.flags.length).map (· == '1'))
        info.irilogSwitch } where
  given _ inRow inText :=
    (row.get_assign_digits digits info.irilogSwitch inRow).trans (dif_pos inText)
  remaining _ inRow short :=
    (row.get_assign_digits digits info.irilogSwitch inRow).trans (dif_neg (Nat.not_lt.mpr short))
  otherRows other different flag member := by
    apply Flag.get_assign_of_later
    exact flags_apart different flag member
  otherFields := rfl

end SwitchRow

/-- The rule that all three rows follow: the digits that are left without the dots
are given to the switches in turn, and surplus characters are not looked at. -/
theorem irilogConfLineHandle_switchRow (row : SwitchRow) (info : SingleLogConfInfo)
    (value : List Char) :
    row.flags.length = row.size ∧
      if (((text value).filter (· ≠ '.')).take row.size).all isSwitchChar then
        (irilogConfLineHandle info row.name value).1 = 0 ∧
          row.Stored ((text value).filter (· ≠ '.')) info
            (irilogConfLineHandle info row.name value).2
      else
        (irilogConfLineHandle info row.name value).1 = -1 := by
  apply And.intro row.length_flags
  have switches : rowFlags row.name ≠ [] := by
    rw [row.rowFlags_name]
    cases row <;> exact List.cons_ne_nil _ _
  have handled := irilogConfLineHandle_row info switches value
  rw [← row.length_flags]
  rw [rowValues, rowChars, row.rowFlags_name] at handled
  rw [handled]
  split_ifs with good
  · apply And.intro rfl
    have whole : (((text value).filter (· ≠ '.')).take row.flags.length).takeWhile
        isSwitchChar = ((text value).filter (· ≠ '.')).take row.flags.length :=
      List.takeWhile_eq_self_iff.mpr (List.all_eq_true.mp good)
    rw [whole]
    exact row.stored_assign ((text value).filter (· ≠ '.')) info
  · rfl

/-! ## Rejected rows -/

/-- A row that is rejected leaves the record alone, and a section ends with the
settings it has without the row. -/
def RejectedIsSkipped (info : SingleLogConfInfo) (name value : List Char) : Prop :=
  (irilogConfLineHandle info name value).1 = -1 →
    (irilogConfLineHandle info name value).2 = info ∧
    ∀ (modeName : List Char) (before after : List ConfPair) (start : SingleLogConfInfo),
      getInfoFromConfPairs ⟨modeName, before⟩ start = info →
      getInfoFromConfPairs ⟨modeName, before ++ ⟨name, value⟩ :: after⟩ start =
        getInfoFromConfPairs ⟨modeName, before ++ after⟩ start

/-- The row has no bad character, or repeats what the record says already up to
the first one. -/
def restates (info : SingleLogConfInfo) (name value : List Char) : Bool :=
  (rowChars name value).all isSwitchChar ||
    rowValues name value =
      ((rowFlags name).take (rowValues name value).length).map fun flag =>
        flag.get info.irilogSwitch

theorem length_rowValues_le (name value : List Char) :
    (rowValues name value).length ≤ (rowFlags name).length := by
  have shorter := ((rowChars name value).takeWhile_sublist isSwitchChar).length_le
  have looked : (rowChars name value).length ≤ (rowFlags name).length := by
    rw [rowChars, List.length_take]
    exact min_le_left _ _
  rw [rowValues, List.length_map]
  omega

theorem irilogConfLineHandle_rejected_iff (info : SingleLogConfInfo) (name value : List Char) :
    (irilogConfLineHandle info name value).1 = -1 ↔
      (rowChars name value).all isSwitchChar = false := by
  by_cases switches : rowFlags name = []
  · have unread : rowChars name value = [] := by
      simp [rowChars, switches]
    simp [irilogConfLineHandle_other info switches value, unread]
  · rw [irilogConfLineHandle_row info switches value]
    cases (rowChars name value).all isSwitchChar <;> simp

theorem getInfoFromConfPairs_skip {info start : SingleLogConfInfo}
    {modeName name value : List Char} {before : List ConfPair}
    (unchanged : (irilogConfLineHandle info name value).2 = info)
    (reached : getInfoFromConfPairs ⟨modeName, before⟩ start = info) (after : List ConfPair) :
    getInfoFromConfPairs ⟨modeName, before ++ ⟨name, value⟩ :: after⟩ start =
      getInfoFromConfPairs ⟨modeName, before ++ after⟩ start := by
  simp only [getInfoFromConfPairs, List.foldl_append, List.foldl_cons] at reached ⊢
  rw [reached, unchanged]

/-- Switches are stored while the row is still being checked, so a rejected row
has no effect exactly when it repeats the present settings in front of its first
bad character. -/
theorem rejectedIsSkipped_iff_restates (info : SingleLogConfInfo) (name value : List Char) :
    RejectedIsSkipped info name value ↔ restates info name value = true := by
  rw [RejectedIsSkipped, irilogConfLineHandle_rejected_iff, restates, Bool.or_eq_true,
    decide_eq_true_eq]
  cases good : (rowChars name value).all isSwitchChar with
  | true => simp
  | false =>
      have switches : rowFlags name ≠ [] := by
        intro other
        simp [rowChars, other] at good
      have effect := Flag.assign_eq_self_iff info.irilogSwitch (rowFlags_independent name)
        (length_rowValues_le name value)
      have unchanged : (irilogConfLineHandle info name value).2 = info ↔
          Flag.assign (rowFlags name) (rowValues name value) info.irilogSwitch =
            info.irilogSwitch := by
        rw [irilogConfLineHandle_row info switches value]
        constructor
        · intro same
          exact congrArg SingleLogConfInfo.irilogSwitch same
        · intro same
          rw [same]
      constructor
      · intro skipped
        exact .inr (effect.mp (unchanged.mp (skipped rfl).1))
      · rintro (impossible | repeats) _
        · simp at impossible
        · have same := unchanged.mpr (effect.mpr repeats)
          exact ⟨same, fun _ _ after _ reached => getInfoFromConfPairs_skip same reached after⟩

/-- The row `DEBUG.INFO.ERR.FATAL = 1.x` turns debug on before it is rejected. -/
theorem not_rejectedIsSkipped_debug :
    ¬RejectedIsSkipped (setDefaultSingleLogConfInfo .zero) "DEBUG.INFO.ERR.FATAL".toList
      "1.x.1.1".toList := by
  intro skipped
  exact absurd (skipped (by decide)).1 (by decide)

end Lctools.Log
