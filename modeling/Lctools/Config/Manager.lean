import Lctools.Conf.Outcome
import Lctools.Foundation.Ref

/-! # The configuration manager

`utils/config/iridium_conf_core.c`: reading a configuration file into a table of
sections, looking sections up and destroying the table.
-/

namespace Lctools.Config

open Conf CString

/-! ## Data -/

def repeatInitErr : ℤ := -3
def openFileErr : ℤ := -4
def mallocBufErr : ℤ := -6
def confCloseAll : ℤ := -9
def iriConfFinishInit : ℤ := 1

structure Sections where
  table : SectionTable
  modeCount : ℕ
  deriving DecidableEq, Repr

/-- `iri_conf_manager_t`. -/
structure Manager where
  iriConf : Ref SectionTable
  modeCount : ℕ
  initFlag : ℤ
  deriving DecidableEq, Repr

/-- A manager after `memset`. -/
def Manager.cleared : Manager where
  iriConf := .null
  modeCount := 0
  initFlag := 0

inductive Fault where
  /-- An array is accessed outside of its bounds. -/
  | access (fault : Conf.Fault)
  /-- The table of sections is used or freed after it was freed. -/
  | table (fault : RefFault)
  deriving DecidableEq, Repr

/-! ## The program -/

def isLevelTrue (c : Char) : ℤ :=
  if !c.isDigit then -1
  else if c = '1' then 1
  else if c = '0' then 0
  else -1

/-- The parser in `get_conf_info_from_file`; it forgets the value of a switch
that is not off. -/
def dialect : Dialect Sections where
  switchStr := "CONF_SWITCH".toList
  level := isLevelTrue
  insertPairs sections confPairs :=
    { table := insertNewNode sections.table sections.modeCount confPairs
      modeCount := sections.modeCount + 1 }
  closeAll sections := sections
  setSwitch _ sections := sections

/-- `init_manager` followed by what the parser added. -/
def filled (sections : Sections) : Manager where
  iriConf := .live sections.table
  modeCount := sections.modeCount
  initFlag := iriConfFinishInit

/-- `destroy_iri_conf`. The pointer keeps its value. -/
def destroyIriConf (manager : Manager) : Except RefFault Manager :=
  if manager.iriConf.isNull then .ok manager
  else do
    let iriConf ← manager.iriConf.free
    .ok { manager with iriConf := iriConf }

def getConfPairs (manager : Manager) (modeName : List Char) :
    Except RefFault (Option ConfPairs) :=
  if manager.iriConf.isNull then .ok none
  else do
    let table ← manager.iriConf.deref
    .ok (lookupSection table modeName)

/-- `get_conf_info_from_file`: the return value and the manager after it, with
`readToken` in the place of `get_string`. -/
def getConfInfoFromFileUsing
    (readToken : BufferName → List Char → Except Conf.Fault (Option (List Char)))
    (file : ConfFile) (manager : Manager) : Except Fault (ℤ × Manager) :=
  if manager.initFlag = iriConfFinishInit then .ok (repeatInitErr, manager)
  else
    match file with
    | .missing => .ok (openFileErr, filled ⟨[], 0⟩)
    | .noMemory => .ok (mallocBufErr, filled ⟨[], 0⟩)
    | .readable content => do
        let (exit, sections) ←
          (parseFileUsing dialect readToken content ⟨[], 0⟩).mapError .access
        match exit with
        | .closeAll =>
            let manager ← (destroyIriConf (filled sections)).mapError .table
            .ok (confCloseAll, manager)
        | .finished | .endError => .ok (0, filled sections)

def getConfInfoFromFile : ConfFile → Manager → Except Fault (ℤ × Manager) :=
  getConfInfoFromFileUsing getString

theorem foldl_insert_modeCount (sections : List ConfPairs) : ∀ start : Sections,
    (sections.foldl dialect.insertPairs start).modeCount = start.modeCount + sections.length := by
  induction sections with
  | nil => simp
  | cons confPairs sections induction =>
      intro start
      have grown := induction (dialect.insertPairs start confPairs)
      have counted : (dialect.insertPairs start confPairs).modeCount = start.modeCount + 1 := rfl
      rw [counted] at grown
      simpa [Nat.add_assoc, Nat.add_comm 1] using grown

/-! ## Bounds -/

def ArraysInBounds {α : Type} (result : Except Fault α) : Prop :=
  ∀ fault, result ≠ .error (.access fault)

theorem getConfInfoFromFileUsing_readable
    (readToken : BufferName → List Char → Except Conf.Fault (Option (List Char)))
    {manager : Manager} (fresh : manager.initFlag ≠ iriConfFinishInit) (content : List Char) :
    getConfInfoFromFileUsing readToken (.readable content) manager =
      match parseFileUsing dialect readToken content ⟨[], 0⟩ with
      | .error fault => .error (.access fault)
      | .ok (.closeAll, sections) =>
          .ok (confCloseAll, { filled sections with iriConf := .freed })
      | .ok (_, sections) => .ok (0, filled sections) := by
  rw [getConfInfoFromFileUsing, if_neg fresh]
  rcases parseFileUsing dialect readToken content ⟨[], 0⟩ with fault | ⟨exit, sections⟩
  · rfl
  · cases exit with
    | finished => rfl
    | closeAll => rfl
    | endError => rfl

theorem getConfInfoFromFile_readable {manager : Manager}
    (fresh : manager.initFlag ≠ iriConfFinishInit) (content : List Char) :
    getConfInfoFromFile (.readable content) manager =
      match parseFile dialect content ⟨[], 0⟩ with
      | .error fault => .error (.access fault)
      | .ok (.closeAll, sections) =>
          .ok (confCloseAll, { filled sections with iriConf := .freed })
      | .ok (_, sections) => .ok (0, filled sections) :=
  getConfInfoFromFileUsing_readable getString fresh content

theorem getConfInfoFromFile_faults {manager : Manager}
    (fresh : manager.initFlag ≠ iriConfFinishInit) {content : List Char} {fault : Conf.Fault}
    (failed : parseFile dialect content ⟨[], 0⟩ = .error fault) :
    getConfInfoFromFile (.readable content) manager = .error (.access fault) := by
  rw [getConfInfoFromFile_readable fresh, failed]

/-- Unless a switch line says off, the sections read so far are kept and 0 is
returned. -/
theorem getConfInfoFromFile_loads {manager : Manager}
    (fresh : manager.initFlag ≠ iriConfFinishInit) {content : List Char} {exit : Exit}
    {sections : Sections} (parsed : parseFile dialect content ⟨[], 0⟩ = .ok (exit, sections))
    (notClosed : exit ≠ .closeAll) :
    getConfInfoFromFile (.readable content) manager = .ok (0, filled sections) := by
  rw [getConfInfoFromFile_readable fresh, parsed]
  cases exit with
  | closeAll => exact absurd rfl notClosed
  | finished => rfl
  | endError => rfl

/-- Every array access of `get_conf_info_from_file` is in bounds exactly when the
manager is in use already, so that nothing is read, or the file fits. -/
theorem getConfInfoFromFile_inBounds_iff (file : ConfFile) (manager : Manager) :
    ArraysInBounds (getConfInfoFromFile file manager) ↔
      manager.initFlag = iriConfFinishInit ∨ file.fits dialect = true := by
  by_cases used : manager.initFlag = iriConfFinishInit
  · simp [getConfInfoFromFile, getConfInfoFromFileUsing, used, ArraysInBounds]
  cases file with
  | missing => simp [getConfInfoFromFile, getConfInfoFromFileUsing, used, ArraysInBounds,
      ConfFile.fits]
  | noMemory => simp [getConfInfoFromFile, getConfInfoFromFileUsing, used, ArraysInBounds,
      ConfFile.fits]
  | readable content =>
      have parsed := parseFile_inBounds dialect content ⟨[], 0⟩
      rw [ArraysInBounds, getConfInfoFromFile_readable used, ConfFile.fits, ← parsed]
      rcases parseFile dialect content ⟨[], 0⟩ with fault | ⟨exit, sections⟩
      · simp [used, not_inBounds_error]
      · cases exit with
        | finished => simp [inBounds_ok]
        | closeAll => simp [inBounds_ok]
        | endError => simp [inBounds_ok]

/-- The value of `k=` is empty, and `get_string` looks at `dst[-1]`. -/
theorem getConfInfoFromFile_empty_value :
    ¬ArraysInBounds (getConfInfoFromFile (.readable "-a\nk=\n-end\n".toList) .cleared) := by
  intro bounded
  exact bounded (.outOfBounds .pairValue (-1)) (by decide)

end Lctools.Config
