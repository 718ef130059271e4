import Lctools.Conf.CutLine
import Lctools.Config.Manager

/-! # A section that is opened before the last one is closed

`get_conf_info_from_file` leaves its loop at such a line, but with the return
value of a success, so that nothing is cleaned up.
-/

namespace Lctools.Config

open Conf CString

/-- What a failed read is to come to: a negative return value, and no section
that can be looked up. -/
def Reported (result : Except Fault (ℤ × Manager)) : Prop :=
  ∃ code manager, result = .ok (code, manager) ∧ code < 0 ∧
    ∀ name, getConfPairs manager name = .ok none

theorem parseFile_opensTwice {file : List Char} {exit : Exit} {sections : Sections}
    (twice : opensTwice dialect (Lines.pieces '\n' file) false = true)
    (ended : parseFile dialect file ⟨[], 0⟩ = .ok (exit, sections)) : exit ≠ .closeAll := by
  rcases Lines.pieces_take '\n' maxConfFileSize file with ⟨line, rest, parts, cut⟩
  rw [parts] at twice
  intro closed
  have off := (parseFile_closeAll_iff ended).mp closed
  rw [fileTurnsOff, fileLines, turnsOff_of_opensTwice cut _ false twice] at off
  exact absurd off (by decide)

/-- A line that opens a section twice is reported only by a manager that is in
use already, which reads nothing, and only if it held no section before. -/
theorem getConfInfoFromFile_reports_iff (file : List Char) (manager : Manager)
    (twice : opensTwice dialect (Lines.pieces '\n' file) false = true) :
    Reported (getConfInfoFromFile (.readable file) manager) ↔
      manager.initFlag = iriConfFinishInit ∧ ∀ name, getConfPairs manager name = .ok none := by
  by_cases used : manager.initFlag = iriConfFinishInit
  · rw [getConfInfoFromFile, getConfInfoFromFileUsing, if_pos used]
    constructor
    · rintro ⟨code, after, returned, -, unreadable⟩
      cases returned
      exact ⟨used, unreadable⟩
    · rintro ⟨-, unreadable⟩
      exact ⟨repeatInitErr, manager, rfl, by decide, unreadable⟩
  · constructor
    · rintro ⟨code, after, returned, negative, -⟩
      rcases parsed : parseFile dialect file ⟨[], 0⟩ with fault | ⟨exit, sections⟩
      · rw [getConfInfoFromFile_faults used parsed] at returned
        cases returned
      · rw [getConfInfoFromFile_loads used parsed (parseFile_opensTwice twice parsed)] at returned
        cases returned
        exact absurd negative (by decide)
    · rintro ⟨inUse, -⟩
      exact absurd inUse used

theorem getConfInfoFromFile_reports_iff_at_open_b :
    opensTwice dialect (Lines.pieces '\n' "-a\nk=v\n-end\n-b\n-c\n".toList) false = true ∧
      ¬Reported (getConfInfoFromFile (.readable "-a\nk=v\n-end\n-b\n-c\n".toList) .cleared) := by
  have twice : opensTwice dialect (Lines.pieces '\n' "-a\nk=v\n-end\n-b\n-c\n".toList) false =
      true := by
    decide
  refine ⟨twice, ?_⟩
  rw [getConfInfoFromFile_reports_iff _ _ twice]
  rintro ⟨used, -⟩
  exact absurd used (by decide)

/-- Section `b` is open when `-c` comes. The return value is 0, and section `a`
can be looked up. -/
theorem getConfInfoFromFile_hides_end_error :
    ¬Reported (getConfInfoFromFile (.readable "-a\nk=v\n-end\n-b\n-c\n".toList) .cleared) := by
  rintro ⟨code, manager, returned, negative, -⟩
  have result : (getConfInfoFromFile (.readable "-a\nk=v\n-end\n-b\n-c\n".toList) .cleared).map
      (fun outcome => (outcome.1, getConfPairs outcome.2 "a".toList)) =
        .ok (0, .ok (some ⟨"a".toList, [⟨"k".toList, "v".toList⟩]⟩)) := by
    decide
  rw [returned] at result
  have code0 : code = 0 := congrArg Prod.fst (Except.ok.inj result)
  rw [code0] at negative
  exact absurd negative (by decide)

end Lctools.Config
