import Lctools.Foundation.Fallible
import Lctools.Log.NodeView

/-! # The lifecycle of the log library

Which runs of initialisations, writes and shutdowns use the three global pointers
only while they refer to live objects.
-/

namespace Lctools.Log

open Conf CString

/-! ## Safety -/

/-- No call of the run uses or frees one of the global pointers while it is null
or freed, or leaves an array, and after an initialisation that failed every write
returns -1. Only `exit` may keep a call from returning. -/
structure LifecycleSafe (host : Host) (calls : List Call) : Prop where
  noFault : ∀ fault, run step (.start host) calls = .error fault → fault = .stop .exit
  afterFailure : ∀ (before middle after : List Call) (logpath : Option (List Char))
    (init : InitAnswers) (request : Request) (answers : WriteAnswers)
    (replies more : List (Option ℤ)) (state failed last : LogState),
    calls = before ++ .init logpath init :: (middle ++ .write request answers :: after) →
    run step (.start host) before = .ok (replies, state) →
    step state (.init logpath init) = .ok (some (-1), failed) →
    run step failed middle = .ok (more, last) →
    ∃ next, step last (.write request answers) = .ok (some (-1), next)

/-- How far the library is: before its initialisation, after one that failed,
after one that succeeded, and after a shutdown that followed it. -/
inductive Phase where
  | fresh
  | failed
  | ready
  | destroyed
  deriving DecidableEq, Repr

/-- The phase after a call. Only the first initialisation counts, and a write
initialises the library when nothing else did. -/
def Phase.after : Phase → Call → Phase
  | .fresh, .init _ answers => if answers.directory then .ready else .failed
  | .fresh, .write _ answers => if answers.init.directory then .ready else .failed
  | .ready, .destroy => .destroyed
  | phase, _ => phase

/-- What the first initialisation needs to stay inside of its arrays: the directory is
not the empty string, and the configuration, if it gets read, fits its parser. -/
def initFits (logpath : Option (List Char)) (answers : InitAnswers) : Bool :=
  logpath ≠ some [] && (logpath.any (fun path => path.head? = some '/') ||
    !answers.directory || answers.file.fitsFlat dialect)

/-- A message that goes to a file has a name and a path that fit. -/
def messageFits (state : LogState) (request : Request) (now : ℤ) : Bool :=
  debugClosed request now state ||
    match state.infos with
    | .live infos =>
        !request.goesToFile infos state.confLogFileNames || request.nameFits state.globalLogPath
    | _ => true

/-- A call that may be made in a phase: no write after a failed initialisation,
and after the shutdown no second one and no write, unless it is a debug message
that the timer discards. A write that comes first initialises the library. -/
def Phase.allows (phase : Phase) (state : LogState) : Call → Bool
  | .init logpath answers => phase ≠ .fresh || initFits logpath answers
  | .write request answers =>
      match phase with
      | .fresh =>
          initFits none answers.init &&
            match iridiumInitLog none answers.init state with
            | .error _ => true
            | .ok (_, next) => messageFits next request answers.now
      | .failed => false
      | .ready => messageFits state request answers.now
      | .destroyed => debugClosed request answers.now state
  | .destroy => phase ≠ .destroyed

/-- Every call of the run is allowed in its phase. A call that ends the process ends
the run. -/
def guarded : Phase → LogState → List Call → Bool
  | _, _, [] => true
  | phase, state, call :: calls =>
      phase.allows state call &&
        match step state call with
        | .error _ => true
        | .ok (_, next) => guarded (phase.after call) next calls

/-! ## The state in each phase -/

/-- The pointers in each phase. The log is never closed: the switch that would
close it does not reach the library. -/
structure InPhase (phase : Phase) (state : LogState) : Prop where
  initFlag : state.initFlag = if phase = .fresh then noInit else hasInited
  opened : state.closeLogFlag = 0
  timer : phase = .fresh ∨ phase = .failed → state.debugDeadTime = 0
  pointers : match phase with
    | .ready => ∃ infos store, state.infos = .live infos ∧
        state.confLogFileNames = .live infos.names ∧ state.logFileNodes = .live store ∧
        Loaded infos ∧ Complete infos ∧ store.WellFormed
    | .destroyed => state.infos = .freed ∧ state.logFileNodes = .freed
    | _ => state.infos = .null ∧ state.logFileNodes = .null

theorem inPhase_start (host : Host) : InPhase .fresh (.start host) where
  initFlag := rfl
  opened := rfl
  timer := fun _ => rfl
  pointers := ⟨rfl, rfl⟩

theorem initDeadTime_ok {infos : LogConfInfos} (complete : Complete infos)
    (now debugDeadTime : ℤ) : ∃ deadTime, initDeadTime infos now debugDeadTime = .ok deadTime := by
  have followed : ∀ id, id < infosIdStart →
      ∃ info, followCell (infos.sinfo.getD id none) = .ok info := by
    intro id small
    have inside : id < infos.len := Nat.lt_of_lt_of_le small complete.special
    rcases complete.cell inside with ⟨info, cell⟩
    rw [getLogConfInfo, if_neg (Nat.not_le.mpr inside)] at cell
    rw [cell]
    exact ⟨info, rfl⟩
  rcases followed infosIdCtl (by decide) with ⟨ctl, control⟩
  rcases followed infosIdTotalSwitch (by decide) with ⟨total, switch⟩
  rw [initDeadTime, Fallible.bind_ok control]
  split_ifs
  · exact ⟨_, Fallible.bind_ok switch _⟩
  · exact ⟨_, rfl⟩

theorem initPath_cases (logpath : Option (List Char)) :
    (logpath = some [] ∧ initPath logpath = .error .outOfBounds) ∨
    (logpath ≠ some [] ∧ logpath.any (fun path => path.head? = some '/') = true ∧
      initPath logpath = .error (.stop .exit)) ∨
    (logpath ≠ some [] ∧ logpath.any (fun path => path.head? = some '/') = false ∧
      ∃ path, initPath logpath = .ok path) := by
  rcases logpath with _ | _ | ⟨first, rest⟩
  · exact .inr (.inr ⟨by simp, rfl, _, rfl⟩)
  · exact .inl ⟨rfl, rfl⟩
  · right
    by_cases absolute : first = '/'
    · exact .inl ⟨by simp, by simp [absolute], by rw [initPath, if_pos absolute]⟩
    · exact .inr ⟨by simp, by simp [absolute], _, by rw [initPath, if_neg absolute]⟩

/-- Everything that the first initialisation can come to. -/
theorem iridiumInitLog_cases {state : LogState} (flag : state.initFlag = noInit)
    (logpath : Option (List Char)) (answers : InitAnswers) :
    (∃ fault, iridiumInitLog logpath answers state = .error fault ∧
      (initFits logpath answers = true ↔ fault = .stop .exit)) ∨
    (∃ path, answers.directory = false ∧ initFits logpath answers = true ∧
      iridiumInitLog logpath answers state =
        .ok (-1, { state with globalLogPath := path, initFlag := hasInited })) ∨
    (∃ path infos deadTime, answers.directory = true ∧ initFits logpath answers = true ∧
      initPath logpath = .ok path ∧
      getLogConfInfos answers.previous answers.order answers.file = .ok infos ∧
      iridiumInitLog logpath answers state = .ok (0, { state with
        globalLogPath := path
        initFlag := hasInited
        debugDeadTime := deadTime
        infos := .live infos
        confLogFileNames := .live infos.names
        logFileNodes := .live .empty
        world := { state.world with clock := ⟨answers.tmNow, answers.tmNow⟩ } })) := by
  rw [iridiumInitLog]
  simp only [flag, ne_eq, not_true_eq_false, if_false]
  rcases initPath_cases logpath with ⟨empty, failed⟩ | ⟨given, absolute, failed⟩ |
    ⟨given, relative, path, computed⟩
  · exact .inl ⟨.outOfBounds, Fallible.bind_error failed _, by simp [initFits, empty]⟩
  · exact .inl ⟨.stop .exit, Fallible.bind_error failed _, by simp [initFits, given, absolute]⟩
  rw [Fallible.bind_ok computed]
  rcases directory : answers.directory with _ | _
  · exact .inr (.inl ⟨path, rfl, by simp [initFits, given, directory], rfl⟩)
  simp only [Bool.not_true, Bool.false_eq_true, if_false]
  rcases getLogConfInfos_cases answers.previous answers.order answers.file with
    ⟨misfit, fault, failed⟩ | ⟨fits, failed | ⟨infos, loading⟩⟩
  · rw [failed]
    exact .inl ⟨_, rfl, by simp [initFits, relative, directory, misfit]⟩
  · rw [failed]
    exact .inl ⟨_, rfl, by simp [initFits, given, fits]⟩
  -- The control record is there and its switch is on.
  rcases (getLogConfInfos_loaded loading).ctl with ⟨ctl, cell, on⟩
  have followed : followCell (infos.sinfo.getD infosIdCtl none) = .ok ctl := by
    rw [List.getD_eq_getElem?_getD, cell]
    rfl
  rcases initDeadTime_ok (getLogConfInfos_complete loading) answers.now state.debugDeadTime with
    ⟨deadTime, timed⟩
  rw [Fallible.bind_ok (Fallible.mapError_ok loading _), Fallible.bind_ok followed, if_neg on,
    Fallible.bind_ok timed]
  exact .inr (.inr ⟨path, infos, deadTime, trivial, by simp [initFits, given, fits], computed,
    loading, rfl⟩)

theorem iridiumInitLog_repeated {state : LogState} (flag : state.initFlag = hasInited)
    (logpath : Option (List Char)) (answers : InitAnswers) :
    iridiumInitLog logpath answers state = .ok (0, state) := by
  have again : state.initFlag ≠ noInit := by
    rw [flag]
    decide
  rw [iridiumInitLog, if_pos again, ← flag]

/-! ## One call -/

section Step

variable {phase : Phase} {state : LogState}

theorem InPhase.inited (inPhase : InPhase phase state) (later : phase ≠ .fresh) :
    state.initFlag = hasInited := by
  rw [inPhase.initFlag, if_neg later]

theorem iridiumInitLog_inPhase (inPhase : InPhase phase state) {logpath : Option (List Char)}
    {answers : InitAnswers} {ret : ℤ} {next : LogState}
    (done : iridiumInitLog logpath answers state = .ok (ret, next)) :
    InPhase (phase.after (.init logpath answers)) next := by
  by_cases fresh : phase = .fresh
  · subst fresh
    rcases iridiumInitLog_cases inPhase.initFlag logpath answers with ⟨fault, failed, _⟩ |
      ⟨path, directory, _, failed⟩ | ⟨path, infos, deadTime, directory, _, _, loading, loads⟩
    · rw [failed] at done
      cases done
    · rw [failed] at done
      cases done
      rw [Phase.after, directory]
      exact ⟨rfl, inPhase.opened, fun _ => inPhase.timer (.inl rfl), inPhase.pointers⟩
    · rw [loads] at done
      cases done
      rw [Phase.after, directory]
      refine ⟨rfl, inPhase.opened, ?_, infos, .empty, rfl, rfl, rfl,
        getLogConfInfos_loaded loading, getLogConfInfos_complete loading,
        NodeStore.wellFormed_empty⟩
      intro early
      cases early with
      | inl fresh => cases fresh
      | inr failed => cases failed
  · rw [iridiumInitLog_repeated (inPhase.inited fresh)] at done
    cases done
    cases phase with
    | fresh => exact absurd rfl fresh
    | failed => exact inPhase
    | ready => exact inPhase
    | destroyed => exact inPhase

theorem InPhase.effect {infos : LogConfInfos} {store : NodeStore} {request : Request}
    {answers : WriteAnswers} {next : LogState} (inPhase : InPhase .ready state)
    (effect : WriteEffect infos store request answers state next) : InPhase .ready next := by
  rcases inPhase.pointers with ⟨infos, old, live, named, nodes, loaded, complete, valid⟩
  have notEarly := inPhase.timer
  cases effect with
  | nothing => exact inPhase
  | terminal info level =>
      exact ⟨inPhase.initFlag, inPhase.opened, notEarly, infos, old, live, named, nodes,
        loaded, complete, valid⟩
  | file id info logFile level next chosen updates =>
      exact ⟨inPhase.initFlag, inPhase.opened, notEarly, infos, next, live, named, rfl,
        loaded, complete, updates.wellFormed⟩

theorem transparentIridiumWriteLog_inited (inPhase : InPhase phase state)
    (later : phase ≠ .fresh) (request : Request) (answers : WriteAnswers) :
    transparentIridiumWriteLog request answers state =
      if debugClosed request answers.now state then .ok (0, state)
      else writeSelected request answers state := by
  have inited : state.initFlag ≠ noInit := by
    rw [inPhase.inited later]
    decide
  have opened : state.closeLogFlag ≠ 1 := by
    rw [inPhase.opened]
    decide
  simp only [transparentIridiumWriteLog, openIridiumlog, if_neg inited, bind, Except.bind]
  rw [if_neg (Int.lt_irrefl 0), if_neg opened]

theorem write_ready (inPhase : InPhase .ready state) (request : Request)
    (answers : WriteAnswers) :
    (messageFits state request answers.now = true ∧
      ∃ ret next, transparentIridiumWriteLog request answers state = .ok (ret, next) ∧
        InPhase .ready next) ∨
    (messageFits state request answers.now = false ∧
      ∃ fault, transparentIridiumWriteLog request answers state = .error fault ∧
        fault ≠ .stop .exit) := by
  rcases inPhase.pointers with ⟨infos, store, live, named, nodes, loaded, complete, valid⟩
  rw [transparentIridiumWriteLog_inited inPhase (by decide), messageFits, live]
  rcases debugClosed request answers.now state with _ | _
  swap
  · exact .inl ⟨rfl, 0, state, rfl, inPhase⟩
  simp only [Bool.false_or, Bool.false_eq_true, if_false]
  rcases writeSelected_fits complete live named nodes valid request answers with
    ⟨toFile, misfit, failed⟩ | ⟨fits, ret, next, written⟩
  · exact .inr ⟨by simp [toFile, misfit], failed⟩
  · left
    refine ⟨?_, ret, next, written, ?_⟩
    · rcases toFile : request.goesToFile infos state.confLogFileNames with _ | _
      · rfl
      · simp [fits toFile]
    · rcases writeSelected_effect live named nodes valid request answers with
        ⟨fault, failed⟩ | ⟨other, last, computed, effect⟩
      · rw [failed] at written
        cases written
      · rw [computed] at written
        cases written
        exact inPhase.effect effect

/-- A write that comes first is an initialisation and, unless it fails, a write. -/
theorem transparentIridiumWriteLog_first (flag : state.initFlag = noInit) (request : Request)
    (answers : WriteAnswers) :
    transparentIridiumWriteLog request answers state =
      match iridiumInitLog none answers.init state with
      | .error fault => .error fault
      | .ok (ret, next) =>
          if ret < 0 then .ok (-1, next) else transparentIridiumWriteLog request answers next := by
  rcases iridiumInitLog_cases flag none answers.init with ⟨fault, failed, _⟩ |
    ⟨path, _, _, failed⟩ | ⟨path, infos, deadTime, _, _, _, _, done⟩
  · simp [transparentIridiumWriteLog, openIridiumlog, flag, failed, bind, Except.bind]
  · simp [transparentIridiumWriteLog, openIridiumlog, flag, failed, bind, Except.bind]
  · have inited : hasInited ≠ noInit := by decide
    simp [transparentIridiumWriteLog, openIridiumlog, flag, inited, done, bind, Except.bind]

theorem writeSelected_dead (dead : state.infos = .null ∨ state.infos = .freed)
    (request : Request) (answers : WriteAnswers) :
    ∃ fault, writeSelected request answers state = .error (.pointer fault) := by
  cases dead with
  | inl null =>
      refine ⟨⟨.infos, .nullDereference⟩, ?_⟩
      simp [writeSelected, null, followGlobal, Ref.deref, Except.mapError, bind, Except.bind]
  | inr freed =>
      refine ⟨⟨.infos, .useAfterFree⟩, ?_⟩
      simp [writeSelected, freed, followGlobal, Ref.deref, Except.mapError, bind, Except.bind]

theorem destroy_inPhase (inPhase : InPhase phase state) (first : phase ≠ .destroyed) :
    ∃ next, iridiumDestroyLog state = .ok next ∧ InPhase (phase.after .destroy) next := by
  have pointers := inPhase.pointers
  cases phase with
  | destroyed => exact absurd rfl first
  | ready =>
      rcases pointers with ⟨infos, store, live, named, nodes, _⟩
      refine ⟨{ state with
        infos := .freed, logFileNodes := .freed, confLogFileNames := .null }, ?_, ?_⟩
      · simp [iridiumDestroyLog, logConfInfosDestroy, live, nodes, Ref.isNull, followGlobal,
          freeGlobal, Ref.deref, Ref.free, Except.mapError, bind, Except.bind]
      · refine ⟨inPhase.initFlag, inPhase.opened, ?_, rfl, rfl⟩
        intro early
        cases early with
        | inl fresh => cases fresh
        | inr failed => cases failed
  | fresh =>
      refine ⟨{ state with confLogFileNames := .null }, ?_,
        ⟨inPhase.initFlag, inPhase.opened, inPhase.timer, pointers⟩⟩
      simp [iridiumDestroyLog, logConfInfosDestroy, pointers.1, pointers.2, Ref.isNull,
        freeGlobal, Ref.free, Except.mapError, bind, Except.bind]
  | failed =>
      refine ⟨{ state with confLogFileNames := .null }, ?_,
        ⟨inPhase.initFlag, inPhase.opened, inPhase.timer, pointers⟩⟩
      simp [iridiumDestroyLog, logConfInfosDestroy, pointers.1, pointers.2, Ref.isNull,
        freeGlobal, Ref.free, Except.mapError, bind, Except.bind]

theorem destroy_again (inPhase : InPhase .destroyed state) :
    iridiumDestroyLog state = .error (.pointer ⟨.infos, .useAfterFree⟩) := by
  simp [iridiumDestroyLog, logConfInfosDestroy, inPhase.pointers.1, Ref.isNull, followGlobal,
    Ref.deref, Except.mapError, bind, Except.bind]

theorem debugClosed_of_no_timer (off : state.debugDeadTime = 0) (request : Request) (now : ℤ) :
    debugClosed request now state = false := by
  simp [debugClosed, off]

/-- What a call comes to: an allowed one returns into the phase after it or ends the
process, and any other one misuses a pointer or an array. -/
inductive Outcome (phase : Phase) (state : LogState) (call : Call) : Prop
  | returned (allowed : phase.allows state call = true) (reply : Option ℤ) (next : LogState)
      (stepped : step state call = .ok (reply, next)) (lands : InPhase (phase.after call) next)
  | ended (allowed : phase.allows state call = true)
      (stepped : step state call = .error (.stop .exit))
  | misused (refused : phase.allows state call = false) (fault : LogFault)
      (failed : step state call = .error fault) (misuse : fault ≠ .stop .exit)

theorem Outcome.inPhase {call : Call} {reply : Option ℤ} {next : LogState}
    (outcome : Outcome phase state call) (stepped : step state call = .ok (reply, next)) :
    InPhase (phase.after call) next := by
  rcases outcome with ⟨_, reply, after, returned, lands⟩ | ⟨_, ended⟩ | ⟨_, fault, failed, _⟩
  · rw [stepped] at returned
    cases returned
    exact lands
  · rw [stepped] at ended
    cases ended
  · rw [stepped] at failed
    cases failed

theorem init_outcome (inPhase : InPhase phase state) (logpath : Option (List Char))
    (answers : InitAnswers) : Outcome phase state (.init logpath answers) := by
  by_cases fresh : phase = .fresh
  · subst fresh
    have allows : Phase.fresh.allows state (.init logpath answers) = initFits logpath answers := by
      simp [Phase.allows]
    rcases done : iridiumInitLog logpath answers state with fault | ⟨ret, next⟩
    · have failed : step state (.init logpath answers) = .error fault :=
        Fallible.bind_error done _
      rcases iridiumInitLog_cases inPhase.initFlag logpath answers with ⟨other, stopped, exits⟩ |
        ⟨_, _, _, returns⟩ | ⟨_, _, _, _, _, _, _, returns⟩
      · rw [done] at stopped
        cases stopped
        rcases fits : initFits logpath answers with _ | _
        · refine .misused (allows.trans fits) fault failed ?_
          rw [ne_eq, ← exits, fits]
          decide
        · rw [exits.mp fits] at failed
          exact .ended (allows.trans fits) failed
      · rw [done] at returns
        cases returns
      · rw [done] at returns
        cases returns
    · have fits : initFits logpath answers = true := by
        rcases iridiumInitLog_cases inPhase.initFlag logpath answers with ⟨_, stopped, _⟩ |
          ⟨_, _, fits, _⟩ | ⟨_, _, _, _, fits, _⟩
        · rw [done] at stopped
          cases stopped
        · exact fits
        · exact fits
      exact .returned (allows.trans fits) _ _ (Fallible.bind_ok done _)
        (iridiumInitLog_inPhase inPhase done)
  · have done := iridiumInitLog_repeated (inPhase.inited fresh) logpath answers
    exact .returned (by simp [Phase.allows, fresh]) _ _ (Fallible.bind_ok done _)
      (iridiumInitLog_inPhase inPhase done)

theorem write_outcome_fresh (inPhase : InPhase .fresh state) (request : Request)
    (answers : WriteAnswers) : Outcome .fresh state (.write request answers) := by
  have first := transparentIridiumWriteLog_first inPhase.initFlag request answers
  have allows : Phase.fresh.allows state (.write request answers) =
      (initFits none answers.init && match iridiumInitLog none answers.init state with
        | .error _ => true
        | .ok (_, next) => messageFits next request answers.now) := rfl
  rcases iridiumInitLog_cases inPhase.initFlag none answers.init with ⟨fault, stopped, exits⟩ |
    ⟨path, directory, fits, done⟩ | ⟨path, infos, deadTime, directory, fits, _, _, done⟩
  · rw [stopped] at first allows
    have failed : step state (.write request answers) = .error fault :=
      Fallible.bind_error first _
    rcases fits : initFits none answers.init with _ | _
    · refine .misused (by rw [allows, fits]; rfl) fault failed ?_
      rw [ne_eq, ← exits, fits]
      decide
    · rw [exits.mp fits] at failed
      exact .ended (by rw [allows, fits]; rfl) failed
  · have lands := iridiumInitLog_inPhase inPhase done
    rw [Phase.after, directory] at lands
    rw [done] at first allows
    have unread : messageFits { state with globalLogPath := path, initFlag := hasInited } request
        answers.now = true := by
      rw [messageFits, lands.pointers.1, Bool.or_true]
    refine .returned ?_ _ _ (Fallible.bind_ok first _) ?_
    · rw [allows, fits]
      exact unread
    · rw [Phase.after, directory]
      exact lands
  · have lands := iridiumInitLog_inPhase inPhase done
    rw [Phase.after, directory] at lands
    rw [done] at first allows
    simp only [fits, Bool.true_and] at allows
    simp only [Int.lt_irrefl, if_false] at first
    rcases write_ready lands request answers with ⟨fits, ret, next, written, landsAfter⟩ |
      ⟨misfit, fault, failed, misuse⟩
    · rw [written] at first
      refine .returned (allows.trans fits) _ _ (Fallible.bind_ok first _) ?_
      rw [Phase.after, directory]
      exact landsAfter
    · rw [failed] at first
      exact .misused (allows.trans misfit) fault (Fallible.bind_error first _) misuse

theorem step_outcome (inPhase : InPhase phase state) (call : Call) : Outcome phase state call := by
  cases call with
  | init logpath answers => exact init_outcome inPhase logpath answers
  | destroy =>
      by_cases again : phase = .destroyed
      · subst again
        exact .misused (by simp [Phase.allows]) _ (Fallible.bind_error (destroy_again inPhase) _)
          (by simp)
      · rcases destroy_inPhase inPhase again with ⟨next, destroyed, lands⟩
        exact .returned (by simp [Phase.allows, again]) _ _ (Fallible.bind_ok destroyed _) lands
  | write request answers =>
      have dead : ∀ (later : phase ≠ .fresh),
          (state.infos = .null ∨ state.infos = .freed) →
          debugClosed request answers.now state = false →
          ∃ fault, step state (.write request answers) = .error (.pointer fault) := by
        intro later null unmuted
        rcases writeSelected_dead null request answers with ⟨fault, failed⟩
        refine ⟨fault, Fallible.bind_error ?_ _⟩
        rw [transparentIridiumWriteLog_inited inPhase later, unmuted, if_neg Bool.false_ne_true,
          failed]
      cases phase with
      | fresh => exact write_outcome_fresh inPhase request answers
      | ready =>
          rcases write_ready inPhase request answers with ⟨fits, ret, next, written, lands⟩ |
            ⟨misfit, fault, failed, misuse⟩
          · exact .returned fits _ _ (Fallible.bind_ok written _) lands
          · exact .misused misfit fault (Fallible.bind_error failed _) misuse
      | failed =>
          have unmuted := debugClosed_of_no_timer (inPhase.timer (.inr rfl)) request answers.now
          rcases dead (by decide) (.inl inPhase.pointers.1) unmuted with ⟨fault, failed⟩
          exact .misused rfl _ failed (by simp)
      | destroyed =>
          rcases muted : debugClosed request answers.now state with _ | _
          · rcases dead (by decide) (.inr inPhase.pointers.1) muted with ⟨fault, failed⟩
            exact .misused muted _ failed (by simp)
          · have written : transparentIridiumWriteLog request answers state = .ok (0, state) := by
              rw [transparentIridiumWriteLog_inited inPhase (by decide), if_pos muted]
            exact .returned muted _ _ (Fallible.bind_ok written _) inPhase

end Step

/-! ## Runs -/

theorem run_noFault_iff_guarded : ∀ (calls : List Call) (phase : Phase) (state : LogState),
    InPhase phase state →
    ((∀ fault, run step state calls = .error fault → fault = .stop .exit) ↔
      guarded phase state calls = true)
  | [], phase, state, _ => by
      simp [run, guarded]
  | call :: calls, phase, state, inPhase => by
      rw [guarded, Bool.and_eq_true]
      rcases step_outcome inPhase call with ⟨allowed, reply, next, stepped, lands⟩ |
        ⟨allowed, ended⟩ | ⟨refused, fault, failed, misuse⟩
      · simp only [Run.run_cons_eq_error_iff stepped, allowed, stepped, true_and]
        exact run_noFault_iff_guarded calls (phase.after call) next lands
      · simp only [Run.run_cons_error ended, allowed, ended, true_and, iff_true]
        intro fault same
        cases same
        rfl
      · simp only [Run.run_cons_error failed, refused, Bool.false_eq_true, false_and, iff_false]
        intro harmless
        exact misuse (harmless fault rfl)

theorem guarded_behind_run : ∀ (before : List Call) (phase : Phase) (state : LogState)
    {replies : List (Option ℤ)} {last : LogState} {calls : List Call},
    InPhase phase state → run step state before = .ok (replies, last) →
    guarded phase state (before ++ calls) = true →
    InPhase (before.foldl Phase.after phase) last ∧
      guarded (before.foldl Phase.after phase) last calls = true
  | [], phase, state, _, _, calls, inPhase, ran, holds => by
      cases ran
      exact ⟨inPhase, holds⟩
  | call :: before, phase, state, _, _, calls, inPhase, ran, holds => by
      rcases Run.run_cons_inversion ran with ⟨reply, next, rest, stepped, ranRest, _⟩
      rw [List.cons_append, guarded, Bool.and_eq_true, stepped] at holds
      have lands := (step_outcome inPhase call).inPhase stepped
      exact guarded_behind_run before (phase.after call) next lands ranRest holds.2

theorem foldl_after_failed (calls : List Call) : calls.foldl Phase.after .failed = .failed := by
  induction calls with
  | nil => rfl
  | cons call calls induction =>
      cases call with
      | init logpath answers => exact induction
      | write request answers => exact induction
      | destroy => exact induction

theorem after_failed_init {phase : Phase} {state failed : LogState}
    (inPhase : InPhase phase state) {logpath : Option (List Char)} {answers : InitAnswers}
    (stepped : step state (.init logpath answers) = .ok (some (-1), failed)) :
    phase.after (.init logpath answers) = .failed := by
  by_cases fresh : phase = .fresh
  · subst fresh
    rcases iridiumInitLog_cases inPhase.initFlag logpath answers with ⟨fault, error, _⟩ |
      ⟨path, directory, _⟩ | ⟨path, infos, deadTime, _, _, _, _, done⟩
    · simp [step, error, bind, Except.bind] at stepped
    · rw [Phase.after, directory]
      rfl
    · simp [step, done, bind, Except.bind] at stepped
  · simp [step, iridiumInitLog_repeated (inPhase.inited fresh), bind, Except.bind] at stepped

/-- The lifecycle is safe exactly in the runs in which no write follows a failed
initialisation, neither another shutdown nor a write other than a debug message that its
timer discards follows the shutdown, and directories, files and names fit their arrays. -/
theorem lifecycleSafe_iff_phases (host : Host) (calls : List Call) :
    LifecycleSafe host calls ↔ guarded .fresh (.start host) calls = true := by
  have noFault := run_noFault_iff_guarded calls .fresh (.start host) (inPhase_start host)
  constructor
  · intro safe
    exact noFault.mp safe.noFault
  · intro holds
    refine ⟨noFault.mpr holds, ?_⟩
    intro before middle after logpath init request answers replies more state failed last split
      ranBefore stepped ranMiddle
    rw [split] at holds
    rcases guarded_behind_run before .fresh (.start host) (inPhase_start host) ranBefore holds
      with ⟨inPhase, holds⟩
    rw [guarded, Bool.and_eq_true, stepped] at holds
    have phaseFailed := after_failed_init inPhase stepped
    have lands : InPhase .failed failed := by
      rw [← phaseFailed]
      exact (step_outcome inPhase (.init logpath init)).inPhase stepped
    rw [phaseFailed] at holds
    rcases guarded_behind_run middle .failed failed lands ranMiddle holds.2 with ⟨_, guard⟩
    rw [foldl_after_failed, guarded] at guard
    simp [Phase.allows] at guard

theorem sampleProcName_short : "app".toList.length < 64 := by
  decide

/-- The directory can neither be found nor made, and then a message is logged. -/
theorem not_lifecycleSafe_failed_write :
    ¬LifecycleSafe ⟨"app".toList, "box".toList, 1, by decide⟩
      [.init none ⟨false, false, .missing, nul, id, 0, .zero⟩,
        .write ⟨"app.c".toList, "main".toList, 1, some "a".toList, 2, "up".toList⟩
          ⟨⟨false, false, .missing, nul, id, 0, .zero⟩, 0, ⟨.zero, true⟩, ⟨⟨.zero, true⟩, 3⟩, true,
            ⟨⟨.zero, true⟩, 3⟩, fun length => length⟩] := by
  intro safe
  have harmless := safe.noFault (.pointer ⟨.infos, .nullDereference⟩) rfl
  cases harmless

end Lctools.Log
