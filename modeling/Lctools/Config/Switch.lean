import Lctools.Config.Manager
import Lctools.Conf.Section

/-! # Switching the configuration off

When `get_conf_info_from_file` returns `CONF_CLOSE_ALL`, said about the lines of
the file and nothing else: one line that says off is enough, wherever it stands.
-/

namespace Lctools.Config

open Conf CString

/-! ## The lines of the file -/

/-- A line that says off: `@` is its first character that is no blank, and the
125 characters behind it name the switch and have a first `=` that is followed,
after blanks, by `0`. -/
def SwitchesOff (line : List Char) : Prop :=
  ∃ rest, line.dropWhile isBlank = '@' :: rest ∧
    "CONF_SWITCH".toList <:+: rest.take 125 ∧
    ∃ front blanks behind, rest.take 125 = front ++ '=' :: (blanks ++ '0' :: behind) ∧
      '=' ∉ front ∧ ∀ c ∈ blanks, isBlank c = true

/-- Inside a section the only lines that start with a dash are `-end` lines. -/
def dashesEnd : (lines : List (List Char)) → (inside : Bool) → Bool
  | [], _ => true
  | line :: lines, inside =>
      match line.dropWhile isBlank with
      | [] => dashesEnd lines inside
      | first :: rest =>
          if first = '-' then
            if inside then "-end".toList <+: first :: rest && dashesEnd lines false
            else dashesEnd lines true
          else dashesEnd lines inside

/-- The value that `get_conf_info_from_file` is expected to return for a file. -/
def ReturnsAsSwitched (file : List Char) (result : Except Fault (ℤ × Manager)) : Prop :=
  ∃ code after, result = .ok (code, after) ∧
    ((∃ line ∈ Lines.pieces '\n' file, SwitchesOff line) → code = confCloseAll) ∧
    (¬(∃ line ∈ Lines.pieces '\n' file, SwitchesOff line) → code = 0)

/-! ## One switch line -/

theorem isLevelTrue_eq_zero {c : Char} : isLevelTrue c = 0 ↔ c = '0' := by
  constructor
  · intro zero
    by_contra other
    rw [isLevelTrue, if_neg other] at zero
    split_ifs at zero
    cases zero
  · rintro rfl
    decide

theorem head_behind_equals {bytes : List Char} :
    (((bytes.dropWhile (· ≠ '=')).drop 1).dropWhile isBlank).head? = some '0' ↔
      ∃ front blanks behind, bytes = front ++ '=' :: (blanks ++ '0' :: behind) ∧
        '=' ∉ front ∧ ∀ c ∈ blanks, isBlank c = true := by
  constructor
  · intro head
    have parts : bytes.takeWhile (· ≠ '=') ++ bytes.dropWhile (· ≠ '=') = bytes :=
      List.takeWhile_append_dropWhile
    have stopped := List.head?_dropWhile_not (fun c : Char => decide (c ≠ '=')) bytes
    rcases found : bytes.dropWhile (· ≠ '=') with _ | ⟨first, rest⟩
    · rw [found] at head
      cases head
    have isEquals : first = '=' := by
      rw [found] at stopped
      simpa using stopped
    rw [found, List.drop_one, List.tail_cons] at head
    have restParts : rest.takeWhile isBlank ++ rest.dropWhile isBlank = rest :=
      List.takeWhile_append_dropWhile
    rcases behind : rest.dropWhile isBlank with _ | ⟨next, after⟩
    · simp [behind] at head
    rw [behind, List.head?_cons, Option.some.injEq] at head
    refine ⟨bytes.takeWhile (· ≠ '='), rest.takeWhile isBlank, after, ?_, ?_, ?_⟩
    · rw [← head, ← behind, restParts]
      rw [found, isEquals] at parts
      exact parts.symm
    · intro member
      simpa using List.mem_takeWhile_imp member
    · exact fun c member => List.mem_takeWhile_imp member
  · rintro ⟨front, blanks, behind, rfl, clean, blank⟩
    rw [List.dropWhile_append_of_pos (all_ne_of_not_mem clean)]
    simp [List.dropWhile_append_of_pos blank, isBlank]

theorem saysOff_iff {rest : List Char} (clean : nul ∉ rest) :
    saysOff dialect rest = true ↔
      "CONF_SWITCH".toList <:+: rest.take 125 ∧
      ∃ front blanks behind, rest.take 125 = front ++ '=' :: (blanks ++ '0' :: behind) ∧
        '=' ∉ front ∧ ∀ c ∈ blanks, isBlank c = true := by
  have cleanTaken : nul ∉ rest.take 125 :=
    fun member => clean (List.mem_of_mem_take member)
  have wholeText := strstr_iff (rest.take 125) "CONF_SWITCH".toList
  rw [text_of_no_nul cleanTaken] at wholeText
  rw [← wholeText, ← head_behind_equals, saysOff, switchChar]
  have switchStr : dialect.switchStr = "CONF_SWITCH".toList := rfl
  have level : dialect.level = isLevelTrue := rfl
  rw [switchStr, level]
  generalize strstr (rest.take 125) "CONF_SWITCH".toList = named
  generalize ((((rest.take 125).dropWhile (· ≠ '=')).drop 1).dropWhile isBlank).head? = head
  cases named with
  | false => simp
  | true =>
      cases head with
      | none => simp
      | some c => simp [isLevelTrue_eq_zero]

theorem switchesOff_iff {line rest : List Char} (starts : line.dropWhile isBlank = '@' :: rest)
    (clean : nul ∉ line) : SwitchesOff line ↔ saysOff dialect rest = true := by
  have restClean : nul ∉ rest := by
    intro member
    apply clean
    apply (List.dropWhile_sublist isBlank).subset
    rw [starts]
    exact List.mem_cons_of_mem _ member
  rw [saysOff_iff restClean]
  constructor
  · rintro ⟨other, same, named⟩
    rw [starts] at same
    cases same
    exact named
  · exact fun named => ⟨rest, starts, named⟩

theorem not_switchesOff {line : List Char}
    (other : ∀ rest, line.dropWhile isBlank ≠ '@' :: rest) : ¬SwitchesOff line := by
  rintro ⟨rest, starts, -⟩
  exact other rest starts

/-! ## All lines -/

section Dashes

variable {line rest : List Char} {lines : List (List Char)} {inside : Bool}

theorem dashesEnd_other (other : ∀ rest, line.dropWhile isBlank ≠ '-' :: rest) :
    dashesEnd (line :: lines) inside = dashesEnd lines inside := by
  rw [dashesEnd]
  rcases starts : line.dropWhile isBlank with _ | ⟨first, rest⟩
  · rfl
  · simp only
    rw [if_neg fun same => other rest (by rw [starts, same])]

theorem dashesEnd_opening (starts : line.dropWhile isBlank = '-' :: rest) :
    dashesEnd (line :: lines) false = dashesEnd lines true := by
  rw [dashesEnd, starts]
  rfl

theorem dashesEnd_dash (starts : line.dropWhile isBlank = '-' :: rest) :
    dashesEnd (line :: lines) true =
      (decide ("-end".toList <+: '-' :: rest) && dashesEnd lines false) := by
  rw [dashesEnd, starts]
  rfl

end Dashes

/-- Where only `-end` lines start with a dash inside a section, the scan comes to
every line, so it stops at the first line that says off. -/
theorem turnsOff_iff (lines : List (List Char)) (block : Option (List (List Char))) :
    (∀ line ∈ lines, nul ∉ line) → dashesEnd lines block.isSome = true →
    (turnsOff dialect lines block.isSome = true ↔ ∃ line ∈ lines, SwitchesOff line) := by
  induction lines, block using scan_induction with
  | nil block => simp [turnsOff]
  | unmarked line lines block unmarked induction =>
      intro clean ends
      rw [List.forall_mem_cons] at clean
      rw [dashesEnd_other fun rest => (unmarked rest).2] at ends
      have quiet := not_switchesOff fun rest => (unmarked rest).1
      rw [Option.isSome_map] at induction
      rw [turnsOff_unmarked unmarked, induction clean.2 ends, List.exists_mem_cons_iff]
      simp [quiet]
  | switch line rest lines block starts induction =>
      intro clean ends
      rw [List.forall_mem_cons] at clean
      rw [dashesEnd_other (by simp [starts])] at ends
      rw [Option.isSome_map] at induction
      rw [turnsOff_switch starts, Bool.or_eq_true, induction clean.2 ends,
        List.exists_mem_cons_iff, switchesOff_iff starts clean.1]
  | opening line rest lines starts induction =>
      intro clean ends
      rw [List.forall_mem_cons] at clean
      rw [Option.isSome_none, dashesEnd_opening starts] at ends
      have quiet : ¬SwitchesOff line := not_switchesOff (by simp [starts])
      rw [Option.isSome_none, turnsOff_opening starts]
      exact (induction clean.2 ends).trans (by simp [quiet])
  | closing line rest lines content starts isEnd induction =>
      intro clean ends
      rw [List.forall_mem_cons] at clean
      rw [Option.isSome_some, dashesEnd_dash starts, Bool.and_eq_true] at ends
      have quiet : ¬SwitchesOff line := not_switchesOff (by simp [starts])
      rw [Option.isSome_some, turnsOff_dash starts, if_pos isEnd]
      exact (induction clean.2 ends.2).trans (by simp [quiet])
  | stray line rest lines content starts stray =>
      intro _ ends
      rw [Option.isSome_some, dashesEnd_dash starts, decide_eq_false stray] at ends
      cases ends

/-! ## The return value -/

theorem dialect_closeAll (sections : Sections) : dialect.closeAll sections = sections := rfl

theorem dialect_setSwitch (level : ℤ) (sections : Sections) :
    dialect.setSwitch level sections = sections := rfl

section Flat

variable (previous : Char) {file : List Char} (small : file.length < maxConfFileSize)

include small

theorem parseFileUsing_flat_long
    (long : namesShort dialect (Lines.pieces '\n' file) none = false) :
    parseFileUsing dialect (getStringFlat previous) file ⟨[], 0⟩ =
      .error (.outOfBounds .stringLine 256) := by
  rw [parseFileUsing_small dialect _ small, fileLines_of_small small]
  exact scanLinesUsing_flat_long previous _ dialect_setSwitch _ _ _ long

theorem parseFileUsing_flat_short
    (short : namesShort dialect (Lines.pieces '\n' file) none = true) :
    ∃ exit, parseFileUsing dialect (getStringFlat previous) file ⟨[], 0⟩ =
        .ok (exit, (sectionsRead dialect (Lines.pieces '\n' file) none).foldl
          dialect.insertPairs ⟨[], 0⟩) ∧
      (exit = .closeAll ↔ turnsOff dialect (Lines.pieces '\n' file) false = true) := by
  rcases scanLinesUsing_flat_short previous maxConfFileSize dialect_closeAll dialect_setSwitch
    _ _ ⟨[], 0⟩ short with ⟨exit, scanned⟩
  rw [parseFileUsing_small dialect _ small, fileLines_of_small small]
  exact ⟨exit, scanned, scanLinesUsing_turnsOff _ _ _ scanned⟩

end Flat

/-- A long name line is the only thing that keeps `get_conf_info_from_file` from
returning what the switch lines of the file say, in a manager that is not in use
yet. -/
theorem returnsAsSwitched_iff_names_short (previous : Char) {file : List Char}
    (clean : nul ∉ file) (small : file.length < maxConfFileSize)
    (ends : dashesEnd (Lines.pieces '\n' file) false = true) (manager : Manager) :
    ReturnsAsSwitched file
        (getConfInfoFromFileUsing (getStringFlat previous) (.readable file) manager) ↔
      manager.initFlag ≠ iriConfFinishInit ∧
        namesShort dialect (Lines.pieces '\n' file) none = true := by
  by_cases used : manager.initFlag = iriConfFinishInit
  · rw [getConfInfoFromFileUsing, if_pos used]
    simp only [used, ne_eq, not_true_eq_false, false_and, iff_false]
    rintro ⟨code, after, returned, off, on⟩
    cases returned
    by_cases any : ∃ line ∈ Lines.pieces '\n' file, SwitchesOff line
    · exact absurd (off any) (by decide)
    · exact absurd (on any) (by decide)
  have lineClean : ∀ line ∈ Lines.pieces '\n' file, nul ∉ line := by
    intro line member inside
    exact clean (Lines.mem_of_mem_pieces member inside)
  have stops := turnsOff_iff _ none lineClean ends
  rw [Option.isSome_none] at stops
  rw [getConfInfoFromFileUsing_readable _ used]
  rcases short : namesShort dialect (Lines.pieces '\n' file) none with _ | _
  · rw [parseFileUsing_flat_long previous small short]
    simp [ReturnsAsSwitched]
  · rcases parseFileUsing_flat_short previous small short with ⟨exit, parsed, closes⟩
    rw [stops] at closes
    rw [parsed]
    simp only [used, ne_eq, not_false_eq_true, true_and, iff_true]
    by_cases any : ∃ line ∈ Lines.pieces '\n' file, SwitchesOff line
    · rw [closes.mpr any]
      exact ⟨_, _, rfl, fun _ => rfl, fun none => absurd any none⟩
    · have stays : exit ≠ .closeAll := fun closed => any (closes.mp closed)
      cases exit with
      | closeAll => exact absurd rfl stays
      | finished => exact ⟨_, _, rfl, fun some => absurd some any, fun _ => rfl⟩
      | endError => exact ⟨_, _, rfl, fun some => absurd some any, fun _ => rfl⟩

theorem returnsAsSwitched_behind_section :
    ReturnsAsSwitched "-a # off?\nk=1\n-end\n# @CONF_SWITCH=0\n @ CONF_SWITCH = 0".toList
      (getConfInfoFromFileUsing (getStringFlat '\r')
        (.readable "-a # off?\nk=1\n-end\n# @CONF_SWITCH=0\n @ CONF_SWITCH = 0".toList)
        .cleared) :=
  (returnsAsSwitched_iff_names_short '\r' (by decide) (by decide) (by decide) .cleared).mpr
    ⟨by decide, by decide⟩

/-- A section with a name line of 300 characters and no switch line. -/
def longNameFile : List Char :=
  '-' :: List.replicate 300 'a' ++ "\n-end\n".toList

theorem not_returnsAsSwitched_longName :
    nul ∉ longNameFile ∧ longNameFile.length < maxConfFileSize ∧
      dashesEnd (Lines.pieces '\n' longNameFile) false = true ∧
      ¬ReturnsAsSwitched longNameFile
        (getConfInfoFromFileUsing (getStringFlat nul) (.readable longNameFile) .cleared) := by
  have small : longNameFile.length < maxConfFileSize := by decide +kernel
  refine ⟨by decide +kernel, small, by decide +kernel, ?_⟩
  have long : namesShort dialect (Lines.pieces '\n' longNameFile) none = false := by
    decide +kernel
  have fresh : Manager.cleared.initFlag ≠ iriConfFinishInit := by decide
  rw [getConfInfoFromFileUsing_readable _ fresh, parseFileUsing_flat_long nul small long]
  simp [ReturnsAsSwitched]

end Lctools.Config
