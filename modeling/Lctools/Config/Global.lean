import Lctools.Conf.Section
import Lctools.Config.Manager
import Lctools.Foundation.Numerals
import Lctools.Foundation.Run

/-! # The global configuration

`utils/config/iridium_conf.c`: one manager for the whole process, filled by
`init_global_config`, read by the typed getters and emptied by
`destroy_global_config`.
-/

namespace Lctools.Config

open Conf CString Numerals

/-! ## The program -/

inductive TypeValue where
  | intValue
  | doubleValue
  | charStrValue
  | gint8Value
  | gint16Value
  | gint32Value
  | gint64Value
  | guint8Value
  | guint16Value
  | guint32Value
  | guint64Value
  deriving DecidableEq, Repr

/-- What a typed getter returns. A floating point number is given by the text it
is read from, and by `none` for the initial 0. -/
inductive Value where
  | integer (value : ℤ)
  | double (source : Option (List Char))
  | string (pointer : Option (List Char))
  deriving DecidableEq, Repr

def TypeValue.initial : TypeValue → Value
  | doubleValue => .double none
  | charStrValue => .string none
  | _ => .integer 0

/-- The conversions of `READ_IRIDIUM_CONFIG_AND_LOG`. -/
def TypeValue.convert (source : List Char) : TypeValue → Value
  | intValue => .integer ((sscanfInt source).getD 0)
  | doubleValue => .double (some source)
  | charStrValue => .string (some source)
  | gint8Value => .integer (wrapSigned 8 (atoi source))
  | gint16Value => .integer (wrapSigned 16 (atoi source))
  | gint32Value => .integer ((sscanfInt source).getD 0)
  | gint64Value => .integer (wrapSigned 64 ((sscanfUnsignedLong source).getD 0))
  | guint8Value => .integer (wrapUnsigned 8 (strtoul source))
  | guint16Value => .integer (wrapUnsigned 16 (strtoul source))
  | guint32Value => .integer ((sscanfUnsigned source).getD 0)
  | guint64Value => .integer ((sscanfUnsignedLong source).getD 0)

def getIridiumConfigValue (manager : Manager) (pair key : List Char) :
    Except RefFault (Option (List Char)) := do
  match ← getConfPairs manager pair with
  | none => .ok none
  | some confPairs => .ok (getValue confPairs key)

/-- `READ_IRIDIUM_CONFIG_AND_LOG`, the body of every `get_iri_conf_*`. -/
def readIridiumConfigAndLog (manager : Manager) (pair key : List Char) (type : TypeValue) :
    Except RefFault Value := do
  match ← getIridiumConfigValue manager pair key with
  | none => .ok type.initial
  | some source => .ok (type.convert source)

/-- `init_global_config`, in memory where the byte in front of a string is `previous`. A
table the manager still points to is lost. -/
def initGlobalConfig (previous : Char) (file : ConfFile) (_manager : Manager) :
    Except Fault (ℤ × Manager) :=
  getConfInfoFromFileUsing (getStringFlat previous) file .cleared

def destroyGlobalConfig (manager : Manager) : Except RefFault Manager := do
  let _ ← destroyIriConf manager
  .ok .cleared

/-! ## Runs -/

inductive Use where
  | read (type : TypeValue) (pair key : List Char)
  | destroy
  deriving DecidableEq, Repr

inductive Call where
  | init (file : ConfFile)
  | use (use : Use)
  deriving DecidableEq, Repr

inductive Reply where
  | code (ret : ℤ)
  | value (value : Value)
  | done
  deriving DecidableEq, Repr

def useStep (manager : Manager) : Use → Except RefFault (Reply × Manager)
  | .read type pair key => do
      let value ← readIridiumConfigAndLog manager pair key type
      .ok (.value value, manager)
  | .destroy => do
      let manager ← destroyGlobalConfig manager
      .ok (.done, manager)

def step (previous : Char) (manager : Manager) : Call → Except Fault (Reply × Manager)
  | .init file => do
      let (ret, manager) ← initGlobalConfig previous file manager
      .ok (.code ret, manager)
  | .use use => (useStep manager use).mapError .table

/-- The answer of a configuration that holds nothing. -/
def Use.notFound : Use → Reply
  | .read type _ _ => .value type.initial
  | .destroy => .done

/-- No call of the run uses or frees a destroyed table or leaves an array, and after an
init that failed every read finds nothing and `destroy_global_config` is harmless. -/
structure LifecycleSafe (previous : Char) (calls : List Call) : Prop where
  noFault : ∀ fault, run (step previous) .cleared calls ≠ .error fault
  afterFailure : ∀ (before : List Call) (file : ConfFile) (uses : List Use)
    (after : List Call) (replies : List Reply) (manager failed : Manager) (ret : ℤ),
    calls = before ++ .init file :: (uses.map .use ++ after) →
    run (step previous) .cleared before = .ok (replies, manager) →
    step previous manager (.init file) = .ok (.code ret, failed) → ret ≠ 0 →
    ∃ last, run (step previous) failed (uses.map .use) = .ok (uses.map Use.notFound, last)

/-! ## When runs are safe -/

/-- The files fit the buffers of the parser, and after an init on a file that turns the
configuration off the next call is another init. `off` says that the last init was such
a one. -/
def guarded : (off : Bool) → List Call → Bool
  | _, [] => true
  | _, .init file :: calls => file.fitsFlat dialect && guarded (file.turnsOff dialect) calls
  | off, .use _ :: calls => !off && guarded false calls

section Runs

variable (previous : Char)

/-- What an init does: see `fitsFlat` and `turnsOff` for the two conditions. -/
theorem step_init (manager : Manager) (file : ConfFile) :
    (file.fitsFlat dialect = false ∧
      ∃ fault, step previous manager (.init file) = .error (.access fault)) ∨
    (file.fitsFlat dialect = true ∧ file.turnsOff dialect = true ∧
      ∃ off, step previous manager (.init file) = .ok (.code confCloseAll, off) ∧
        off.iriConf = .freed) ∨
    (file.fitsFlat dialect = true ∧ file.turnsOff dialect = false ∧
      ∃ ret table loaded, step previous manager (.init file) = .ok (.code ret, loaded) ∧
        loaded.iriConf = .live table ∧ (ret ≠ 0 → table = [])) := by
  have fresh : Manager.cleared.initFlag ≠ iriConfFinishInit := by decide
  cases file with
  | missing =>
      refine .inr (.inr ⟨rfl, rfl, openFileErr, [], filled ⟨[], 0⟩, ?_, rfl, fun _ => rfl⟩)
      simp [step, initGlobalConfig, getConfInfoFromFileUsing, fresh, bind, Except.bind]
  | noMemory =>
      refine .inr (.inr ⟨rfl, rfl, mallocBufErr, [], filled ⟨[], 0⟩, ?_, rfl, fun _ => rfl⟩)
      simp [step, initGlobalConfig, getConfInfoFromFileUsing, fresh, bind, Except.bind]
  | readable content =>
      have bounds := parseFileUsing_flat_inBounds previous dialect content ⟨[], 0⟩
      rw [ConfFile.fitsFlat, ConfFile.turnsOff]
      simp only [step, initGlobalConfig, getConfInfoFromFileUsing_readable _ fresh]
      rcases parsed : parseFileUsing dialect (getStringFlat previous) content ⟨[], 0⟩ with
        fault | ⟨exit, sections⟩
      · have misfit : fileFitsUsing dialect nameShort content = false := by
          rw [← Bool.not_eq_true, ← bounds, parsed]
          exact not_inBounds_error fault
        exact .inl ⟨misfit, fault, rfl⟩
      · have fits : fileFitsUsing dialect nameShort content = true := by
          rw [← bounds, parsed]
          exact inBounds_ok _
        have closes := parseFileUsing_closeAll_iff parsed
        cases exit with
        | closeAll => exact .inr (.inl ⟨fits, closes.mp rfl, _, rfl, rfl⟩)
        | finished =>
            have stays : fileTurnsOff dialect content = false := by
              rw [← Bool.not_eq_true, ← closes]
              simp
            exact .inr (.inr ⟨fits, stays, 0, sections.table, _, rfl, rfl, by simp⟩)
        | endError =>
            have stays : fileTurnsOff dialect content = false := by
              rw [← Bool.not_eq_true, ← closes]
              simp
            exact .inr (.inr ⟨fits, stays, 0, sections.table, _, rfl, rfl, by simp⟩)

theorem useStep_freed {manager : Manager} (destroyed : manager.iriConf = .freed) (use : Use) :
    ∃ fault, step previous manager (.use use) = .error (.table fault) := by
  cases use with
  | read type pair key =>
      refine ⟨.useAfterFree, ?_⟩
      simp [step, useStep, readIridiumConfigAndLog, getIridiumConfigValue, getConfPairs,
        destroyed, Ref.isNull, Ref.deref, Except.mapError, bind, Except.bind]
  | destroy =>
      refine ⟨.doubleFree, ?_⟩
      simp [step, useStep, destroyGlobalConfig, destroyIriConf, destroyed, Ref.isNull,
        Ref.free, Except.mapError, bind, Except.bind]

theorem useStep_usable {manager : Manager} (usable : manager.iriConf ≠ .freed) (use : Use) :
    ∃ reply next, step previous manager (.use use) = .ok (reply, next) ∧ next.iriConf ≠ .freed := by
  cases use with
  | read type pair key =>
      rcases pointer : manager.iriConf with _ | table | _
      · refine ⟨.value type.initial, manager, ?_, usable⟩
        simp [step, useStep, readIridiumConfigAndLog, getIridiumConfigValue, getConfPairs,
          pointer, Ref.isNull, Except.mapError, bind, Except.bind]
      · simp only [step, useStep, readIridiumConfigAndLog, getIridiumConfigValue,
          getConfPairs, pointer, Ref.isNull, Ref.deref, bind, Except.bind]
        rcases lookupSection table pair with _ | confPairs
        · exact ⟨_, _, rfl, usable⟩
        · simp only [Bool.false_eq_true, if_false]
          rcases getValue confPairs key with _ | source
          · exact ⟨_, _, rfl, usable⟩
          · exact ⟨_, _, rfl, usable⟩
      · exact absurd pointer usable
  | destroy =>
      rcases pointer : manager.iriConf with _ | table | _
      · refine ⟨.done, .cleared, ?_, by simp [Manager.cleared]⟩
        simp [step, useStep, destroyGlobalConfig, destroyIriConf, pointer, Ref.isNull,
          Except.mapError, bind, Except.bind]
      · refine ⟨.done, .cleared, ?_, by simp [Manager.cleared]⟩
        simp [step, useStep, destroyGlobalConfig, destroyIriConf, pointer, Ref.isNull,
          Ref.free, Except.mapError, bind, Except.bind]
      · exact absurd pointer usable

theorem run_noFault_iff : ∀ (calls : List Call) (manager : Manager) (off : Bool),
    (manager.iriConf = .freed ↔ off = true) →
    ((∀ fault, run (step previous) manager calls ≠ .error fault) ↔ guarded off calls = true)
  | [], manager, off, _ => by
      simp [run, guarded]
  | .init file :: calls, manager, off, _ => by
      rw [guarded]
      rcases step_init previous manager file with ⟨misfit, fault, failed⟩ |
        ⟨fits, off, next, stepped, destroyed⟩ | ⟨fits, stays, ret, table, next, stepped, live, _⟩
      · simp [Run.run_cons_error failed, misfit]
      · have rest := run_noFault_iff calls next true (by simp [destroyed])
        simp only [ne_eq, Run.run_cons_eq_error_iff stepped]
        simpa [fits, off] using rest
      · have rest := run_noFault_iff calls next false (by simp [live])
        simp only [ne_eq, Run.run_cons_eq_error_iff stepped]
        simpa [fits, stays] using rest
  | .use use :: calls, manager, off, tracks => by
      rw [guarded]
      cases off with
      | true =>
          rcases useStep_freed previous (tracks.mpr rfl) use with ⟨fault, failed⟩
          simp [Run.run_cons_error failed]
      | false =>
          have usable : manager.iriConf ≠ .freed := by simpa using tracks
          rcases useStep_usable previous usable use with ⟨reply, next, stepped, stillUsable⟩
          have rest := run_noFault_iff calls next false (by simpa using stillUsable)
          simp only [ne_eq, Run.run_cons_eq_error_iff stepped]
          simpa using rest

private theorem guarded_behind : ∀ (before : List Call) (off : Bool) {file : ConfFile}
    {calls : List Call}, guarded off (before ++ .init file :: calls) = true →
    guarded (file.turnsOff dialect) calls = true
  | [], off, file, calls, holds => by
      rw [List.nil_append, guarded, Bool.and_eq_true] at holds
      exact holds.2
  | .init first :: before, off, file, calls, holds => by
      rw [List.cons_append, guarded, Bool.and_eq_true] at holds
      exact guarded_behind before _ holds.2
  | .use use :: before, off, file, calls, holds => by
      rw [List.cons_append, guarded, Bool.and_eq_true] at holds
      exact guarded_behind before _ holds.2

theorem run_notFound : ∀ (uses : List Use) (manager : Manager),
    manager.iriConf = .null ∨ manager.iriConf = .live [] →
    ∃ last, run (step previous) manager (uses.map .use) = .ok (uses.map Use.notFound, last)
  | [], manager, _ => ⟨manager, rfl⟩
  | .read type pair key :: uses, manager, empty => by
      rcases run_notFound uses manager empty with ⟨last, ran⟩
      refine ⟨last, Run.run_cons_ok manager ?_ ran⟩
      rcases empty with null | live
      · simp [step, useStep, readIridiumConfigAndLog, getIridiumConfigValue, getConfPairs,
          null, Ref.isNull, Use.notFound, Except.mapError, bind, Except.bind]
      · simp [step, useStep, readIridiumConfigAndLog, getIridiumConfigValue, getConfPairs,
          live, Ref.isNull, Ref.deref, lookupSection, HashTable.lookup, Use.notFound,
          Except.mapError, bind, Except.bind]
  | .destroy :: uses, manager, empty => by
      rcases run_notFound uses .cleared (.inl rfl) with ⟨last, ran⟩
      refine ⟨last, Run.run_cons_ok .cleared ?_ ran⟩
      rcases empty with null | live
      · simp [step, useStep, destroyGlobalConfig, destroyIriConf, null, Ref.isNull,
          Use.notFound, Except.mapError, bind, Except.bind]
      · simp [step, useStep, destroyGlobalConfig, destroyIriConf, live, Ref.isNull,
          Ref.free, Use.notFound, Except.mapError, bind, Except.bind]

/-- The lifecycle of the global configuration is safe exactly in the runs whose files fit
the buffers and in which no read and no destroy follows directly on an init that a
switch line turned off: its error exit frees the table but leaves the pointer to it. -/
theorem lifecycleSafe_iff_guarded (calls : List Call) :
    LifecycleSafe previous calls ↔ guarded false calls = true := by
  have noFault := run_noFault_iff previous calls .cleared false (by simp [Manager.cleared])
  constructor
  · intro safe
    exact noFault.mp safe.noFault
  · intro holds
    refine ⟨noFault.mpr holds, ?_⟩
    intro before file uses after replies manager failed ret split ran stepped nonzero
    rcases step_init previous manager file with ⟨_, fault, error⟩ | ⟨_, off, _⟩ |
      ⟨_, _, other, table, next, loaded, live, empty⟩
    · simp [error] at stepped
    · rw [split] at holds
      have behind := guarded_behind before false holds
      cases uses with
      | nil => exact ⟨failed, rfl⟩
      | cons use uses => simp [guarded, off] at behind
    · rw [loaded] at stepped
      cases stepped
      exact run_notFound previous uses failed (.inr (by rw [live, empty nonzero]))

end Runs

/-- A switch line turns the configuration off and the process shuts down. -/
theorem not_lifecycleSafe_off_destroy :
    ¬LifecycleSafe nul [.init (.readable "@CONF_SWITCH=0\n".toList), .use .destroy] := by
  intro safe
  exact safe.noFault (.table .doubleFree) (by decide)

end Lctools.Config
