import Lctools.Log.Appended

/-! # What the terminal switches do to the log file

The terminal has switches of its own. The buffers of a message are filled once for both
outputs, and what ends up in the log file is what was filled.
-/

namespace Lctools.Log

open CString Numerals

/-! ## The property -/

/-- A record without its switches for the terminal. -/
def SingleLogConfInfo.fileSide (info : SingleLogConfInfo) : SingleLogConfInfo :=
  { info with irilogSwitch := { info.irilogSwitch with
      pFile := false, pFunc := false, pLine := false, pDate := false, logTerminal := false } }

/-- Two tables that differ in the switches for the terminal only. -/
structure SameFileSide (first second : LogConfInfos) : Prop where
  len : first.len = second.len
  names : first.names = second.names
  cells : first.sinfo.map (Option.map SingleLogConfInfo.fileSide) =
    second.sinfo.map (Option.map SingleLogConfInfo.fileSide)

def dateField (switch : IrilogSwitch) (reading : Reading) (clock : Clock) : List Char :=
  if switch.fDate then messageDate (getLocaltime reading clock).1 else []

def fileField (request : Request) : List Char :=
  snprintf 1024 ("File:".toList ++ baseName (text request.fileName) ++ [' '])

/-- A call appends the same to the log file whichever of the two tables is used, and the
field of the source file is there exactly if `f_file` is on. -/
structure FileSideKept (first second : LogConfInfos) (switch : IrilogSwitch) (state : LogState)
    (write : Write) : Prop where
  same : appended { state with infos := .live first } write =
    appended { state with infos := .live second } write
  field : ∀ entry ∈ appended { state with infos := .live first } write,
    dateField switch write.answers.reading state.world.clock ++ fileField write.request <+:
      entry.2 ↔ switch.fFile = true

/-! ## The record -/

def fieldsOf (switch : IrilogSwitch) (request : Request) : List Char :=
  (if switch.fFunc then snprintf 1024 ("Func:".toList ++ text request.funcName ++ [' ']) else []) ++
  (if switch.fLine then snprintf 64 ("Line:".toList ++ decimalInt request.line) else [])

theorem fillTexts_fst (switch : IrilogSwitch) (level : Loglevl) (request : Request)
    (reading : Reading) (world : World) :
    ((fillTexts switch level request reading world).1.date =
      if switch.fDate || switch.pDate then messageDate (getLocaltime reading world.clock).1
      else []) ∧
    ((fillTexts switch level request reading world).1.file =
      if switch.pFile then fileField request else []) ∧
    ((fillTexts switch level request reading world).1.func =
      if switch.fFunc || switch.pFunc then
        snprintf 1024 ("Func:".toList ++ text request.funcName ++ [' ']) else []) ∧
    ((fillTexts switch level request reading world).1.line =
      if switch.fLine || switch.pLine then snprintf 64 ("Line:".toList ++ decimalInt request.line)
      else []) ∧
    (fillTexts switch level request reading world).1.message =
      text (snprintf loginfoMaxLen request.message) := by
  rw [fillTexts]
  generalize getLocaltime reading world.clock = read
  rcases read with ⟨tmNow, clock⟩
  cases switch.fDate || switch.pDate with
  | true => simp only [Bool.or_self, fileField, if_true, and_self]
  | false => simp only [Bool.or_self, fileField, Bool.false_eq_true, if_false, and_self]

/-- A buffer that is filled for either output has what the log file asks for. -/
theorem guarded_field (wanted other : Bool) (field : List Char) :
    (if wanted then if wanted || other then field else [] else []) =
      if wanted then field else [] := by
  cases wanted with
  | true => rfl
  | false => rfl

def wholeRecord (info : SingleLogConfInfo) (level : Loglevl) (request : Request)
    (reading : Reading) (clock : Clock) : List Char :=
  dateField info.irilogSwitch reading clock ++
    (if info.irilogSwitch.fFile && info.irilogSwitch.pFile then fileField request else []) ++
    fieldsOf info.irilogSwitch request ++ ['['] ++ level.logInfo ++ [']', ' '] ++
    text (snprintf loginfoMaxLen request.message) ++ ['\n']

theorem recordOf_eq (info : SingleLogConfInfo) (level : Loglevl) (request : Request)
    (reading : Reading) (world : World) :
    recordOf info level request reading world =
      ((wholeRecord info level request reading world.clock).take (loginfoMaxLen - 2)).dropLast ++
        ['\n'] := by
  rcases fillTexts_fst info.irilogSwitch level request reading world with
    ⟨date, file, func, line, message⟩
  have nested : ∀ field : List Char,
      (if info.irilogSwitch.fFile then if info.irilogSwitch.pFile then field else [] else []) =
        if info.irilogSwitch.fFile && info.irilogSwitch.pFile then field else [] := by
    intro field
    cases info.irilogSwitch.fFile with
    | true => rfl
    | false => rfl
  rw [recordOf, fileRecord, date, file, func, line, message, guarded_field, guarded_field,
    guarded_field, nested, snprintf, List.take_take]
  simp only [wholeRecord, dateField, fieldsOf, List.append_assoc]
  rfl

theorem take_cutOff (whole : List Char) {size n : ℕ} (small : n < size) (short : n < whole.length) :
    ((whole.take size).dropLast ++ ['\n']).take n = whole.take n := by
  have length : n ≤ ((whole.take size).dropLast).length := by
    rw [List.length_dropLast, List.length_take]
    omega
  rw [List.take_append_of_le_length length, List.dropLast_eq_take, List.take_take, List.take_take]
  congr 1
  rw [List.length_take]
  omega

theorem messageDate_length (tm : Tm) : (messageDate tm).length ≤ 31 := by
  rw [messageDate, snprintf]
  exact List.length_take_le 31 _

theorem dateField_length (switch : IrilogSwitch) (reading : Reading) (clock : Clock) :
    (dateField switch reading clock).length ≤ 31 := by
  rw [dateField]
  split
  · exact messageDate_length _
  · exact Nat.zero_le 31

theorem fileField_length (request : Request) : (fileField request).length ≤ 1023 := by
  rw [fileField, snprintf]
  exact List.length_take_le 1023 _

theorem fileField_start (request : Request) : (fileField request).take 2 = ['F', 'i'] := rfl

theorem others_start (switch : IrilogSwitch) (level : Loglevl) (request : Request)
    (rest : List Char) :
    (fieldsOf switch request ++ (['['] ++ level.logInfo ++ rest)).take 2 ≠ ['F', 'i'] := by
  rw [fieldsOf]
  cases switch.fFunc with
  | true =>
      intro same
      cases same
  | false =>
      cases switch.fLine with
      | true =>
          intro same
          cases same
      | false =>
          intro same
          cases same

/-- The record has the field of the source file exactly if both switches are on. -/
theorem field_prefix_iff (info : SingleLogConfInfo) (level : Loglevl) (request : Request)
    (reading : Reading) (world : World) :
    dateField info.irilogSwitch reading world.clock ++ fileField request <+:
        recordOf info level request reading world ↔
      info.irilogSwitch.fFile = true ∧ info.irilogSwitch.pFile = true := by
  have dateLength := dateField_length info.irilogSwitch reading world.clock
  have fileLength := fileField_length request
  have large : loginfoMaxLen - 2 = 32766 := rfl
  rw [recordOf_eq, List.prefix_iff_eq_take]
  generalize wholeEqual : wholeRecord info level request reading world.clock = whole
  rw [wholeRecord] at wholeEqual
  rw [← Bool.and_eq_true]
  cases both : info.irilogSwitch.fFile && info.irilogSwitch.pFile with
  | true =>
      rw [both] at wholeEqual
      apply iff_of_true _ rfl
      have longer : (dateField info.irilogSwitch reading world.clock ++ fileField request).length <
          whole.length := by
        rw [← wholeEqual]
        simp only [if_true, List.length_append, List.length_singleton]
        omega
      rw [take_cutOff whole _ longer, ← wholeEqual]
      · simp only [if_true, List.append_assoc]
        rw [← List.append_assoc, List.take_left]
      · rw [List.length_append]
        omega
  | false =>
      rw [both] at wholeEqual
      apply iff_of_false _ Bool.false_ne_true
      intro same
      have start := fileField_start request
      have atLeast : 2 ≤ (fileField request).length := by
        have length := congrArg List.length start
        rw [List.length_take, List.length_cons, List.length_singleton] at length
        omega
      have longer : (dateField info.irilogSwitch reading world.clock).length + 2 < whole.length := by
        rw [← wholeEqual]
        simp only [List.length_append, List.length_cons, List.length_nil]
        omega
      have cut := congrArg
        (List.take ((dateField info.irilogSwitch reading world.clock).length + 2)) same
      rw [List.take_take, List.length_append, Nat.min_eq_left (by omega),
        take_cutOff whole (by omega) longer, ← wholeEqual] at cut
      simp only [Bool.false_eq_true, if_false, List.append_nil, List.append_assoc] at cut
      rw [List.take_length_add_append, List.take_length_add_append, start] at cut
      have others := others_start info.irilogSwitch level request
        ([']', ' '] ++ text (snprintf loginfoMaxLen request.message) ++ ['\n'])
      simp only [List.append_assoc] at others
      exact others (List.append_cancel_left cut).symm

/-- What two records with the same file side agree on. -/
structure FileSwitches (first second : SingleLogConfInfo) : Prop where
  file : first.irilogSwitch.fFile = second.irilogSwitch.fFile
  func : first.irilogSwitch.fFunc = second.irilogSwitch.fFunc
  line : first.irilogSwitch.fLine = second.irilogSwitch.fLine
  date : first.irilogSwitch.fDate = second.irilogSwitch.fDate
  logFile : first.irilogSwitch.logFile = second.irilogSwitch.logFile
  admits : first.irilogSwitch.admits = second.irilogSwitch.admits
  name : first.name = second.name
  isValid : first.isValid = second.isValid

theorem fileSwitches_of_fileSide {first second : SingleLogConfInfo}
    (same : first.fileSide = second.fileSide) : FileSwitches first second where
  file := congrArg (fun info => info.irilogSwitch.fFile) same
  func := congrArg (fun info => info.irilogSwitch.fFunc) same
  line := congrArg (fun info => info.irilogSwitch.fLine) same
  date := congrArg (fun info => info.irilogSwitch.fDate) same
  logFile := congrArg (fun info => info.irilogSwitch.logFile) same
  admits := by
    funext level
    cases level with
    | debug => exact congrArg (fun info => info.irilogSwitch.debug) same
    | info => exact congrArg (fun info => info.irilogSwitch.info) same
    | err => exact congrArg (fun info => info.irilogSwitch.err) same
    | fatal => exact congrArg (fun info => info.irilogSwitch.fatal) same
  name := congrArg (fun info => info.name) same
  isValid := congrArg (fun info => info.isValid) same

theorem recordOf_same {first second : SingleLogConfInfo} (switches : FileSwitches first second)
    (filled : first.irilogSwitch.fFile = true →
      first.irilogSwitch.pFile = true ∧ second.irilogSwitch.pFile = true)
    (level : Loglevl) (request : Request) (reading : Reading) (world : World) :
    recordOf first level request reading world = recordOf second level request reading world := by
  have file : (first.irilogSwitch.fFile && first.irilogSwitch.pFile) =
      (second.irilogSwitch.fFile && second.irilogSwitch.pFile) := by
    rw [← switches.file]
    cases on : first.irilogSwitch.fFile with
    | false => rfl
    | true => rw [(filled on).1, (filled on).2]
  rw [recordOf_eq, recordOf_eq, wholeRecord, wholeRecord, dateField, dateField, fieldsOf, fieldsOf,
    file, switches.date, switches.func, switches.line]

/-! ## Two tables -/

section TwoTables

variable {first second : LogConfInfos} {names : Ref (List (List Char × ℕ))}
  {log : Option (List Char)} {id : ℕ} {info other : SingleLogConfInfo} {logFile : List Char}

theorem SameFileSide.symm (same : SameFileSide first second) : SameFileSide second first :=
  ⟨same.len.symm, same.names.symm, same.cells.symm⟩

theorem SameFileSide.cell (same : SameFileSide first second) {index : ℕ}
    (cell : first.sinfo[index]? = some (some info)) :
    ∃ other, second.sinfo[index]? = some (some other) ∧ info.fileSide = other.fileSide := by
  have cells := congrArg (fun cells => cells[index]?) same.cells
  simp only [List.getElem?_map, cell, Option.map_some] at cells
  cases found : second.sinfo[index]? with
  | none =>
      rw [found] at cells
      cases cells
  | some content =>
      cases content with
      | none =>
          rw [found] at cells
          cases cells
      | some other =>
          rw [found] at cells
          exact ⟨other, rfl, Option.some.inj (Option.some.inj cells)⟩

theorem SameFileSide.getLogConfInfo (same : SameFileSide first second)
    (cell : getLogConfInfo first id = some info) :
    ∃ other, getLogConfInfo second id = some other ∧ info.fileSide = other.fileSide := by
  rw [Log.getLogConfInfo] at cell ⊢
  rw [← same.len]
  split_ifs at cell ⊢
  rw [List.getD_eq_getElem?_getD] at cell ⊢
  cases found : first.sinfo[id]? with
  | none =>
      rw [found] at cell
      cases cell
  | some content =>
      rw [found] at cell
      rw [Option.getD_some] at cell
      rw [cell] at found
      rcases same.cell found with ⟨other, foundOther, agree⟩
      rw [foundOther]
      exact ⟨other, rfl, agree⟩

theorem SameFileSide.loaded (same : SameFileSide first second) (loaded : Loaded first) :
    Loaded second := by
  have length : first.sinfo.length = second.sinfo.length := by
    simpa using congrArg List.length same.cells
  refine ⟨⟨?_, ?_⟩, ?_, ?_⟩
  · rw [← length, ← same.len]
    exact loaded.length
  · rw [← same.len]
    exact loaded.special
  · rcases loaded.ctl with ⟨ctl, cell, on⟩
    rcases same.cell cell with ⟨other, cellOther, agree⟩
    refine ⟨other, cellOther, ?_⟩
    have logSwitch : ctl.logSwitch = other.logSwitch := congrArg (fun info => info.logSwitch) agree
    rw [← logSwitch]
    exact on
  · intro other member
    rcases List.mem_iff_getElem?.mp member with ⟨index, found⟩
    rcases same.symm.cell found with ⟨info, cell, agree⟩
    have fits := loaded.fits info (List.mem_of_getElem? cell)
    have size : other.singleMaxSize = info.singleMaxSize :=
      congrArg (fun info => info.singleMaxSize) agree
    have name : other.name = info.name := congrArg (fun info => info.name) agree
    rw [Fits, size, name]
    exact fits

theorem SameFileSide.chosen (same : SameFileSide first second) (loaded : Loaded first)
    (chosen : Chosen first (.live first.names) log id info logFile)
    (cell : Log.getLogConfInfo second id = some other) :
    Chosen second (.live second.names) log id other logFile := by
  refine ⟨?_, cell, ?_⟩
  · rcases loaded.ctl with ⟨ctl, ctlCell, _⟩
    rcases same.cell ctlCell with ⟨ctl', ctlCell', agree⟩
    have isValid : ctl.isValid = ctl'.isValid := congrArg (fun info => info.isValid) agree
    have selected := chosen.selected
    unfold selectInfoId at selected ⊢
    rw [List.getD_eq_getElem?_getD, ctlCell, same.names] at selected
    rw [List.getD_eq_getElem?_getD, ctlCell']
    simp only [Option.getD_some, derefCell, bind, Except.bind] at selected ⊢
    rw [← isValid]
    exact selected
  · have named := chosen.named
    cases log with
    | some name => exact named
    | none =>
        rw [realLogFile, List.getD_eq_getElem?_getD] at named ⊢
        cases found : first.sinfo[infosIdDefault]? with
        | none =>
            rw [found] at named
            cases named
        | some content =>
            cases content with
            | none =>
                rw [found] at named
                cases named
            | some default =>
                rcases same.cell found with ⟨default', found', agree⟩
                have name : default.name = default'.name := congrArg (fun info => info.name) agree
                rw [found] at named
                rw [found']
                simp only [Option.getD_some, followCell, derefCell, Except.mapError, bind,
                  Except.bind] at named ⊢
                rw [← name]
                exact named

end TwoTables

theorem fileSideKept_record {state : LogState} {first second : LogConfInfos} {write : Write}
    {info other : SingleLogConfInfo} {level : Loglevl} {log : List Char}
    (switches : FileSwitches info other)
    (appends : appended { state with infos := .live first } write =
      [(log, recordOf info level write.request write.answers.reading state.world)])
    (appendsSecond : appended { state with infos := .live second } write =
      [(log, recordOf other level write.request write.answers.reading state.world)]) :
    FileSideKept first second info.irilogSwitch state write ↔
      (info.irilogSwitch.fFile = true →
        info.irilogSwitch.pFile = true ∧ other.irilogSwitch.pFile = true) := by
  have fieldFirst := field_prefix_iff info level write.request write.answers.reading state.world
  have fieldSecond := field_prefix_iff other level write.request write.answers.reading state.world
  constructor
  · intro kept on
    have same := kept.same
    have field := kept.field
    rw [appends] at same field
    rw [appendsSecond] at same
    have present := (field _ (List.mem_singleton_self _)).mpr on
    have sameRecord : recordOf info level write.request write.answers.reading state.world =
        recordOf other level write.request write.answers.reading state.world :=
      (Prod.mk.inj (List.cons.inj same).1).2
    have sameDate : dateField info.irilogSwitch write.answers.reading state.world.clock =
        dateField other.irilogSwitch write.answers.reading state.world.clock := by
      rw [dateField, dateField, switches.date]
    rw [← sameRecord, ← sameDate] at fieldSecond
    exact ⟨(fieldFirst.mp present).2, (fieldSecond.mp present).2⟩
  · intro filled
    constructor
    · rw [appends, appendsSecond, recordOf_same switches filled]
    · intro entry member
      rw [appends, List.mem_singleton] at member
      rw [member]
      constructor
      · intro present
        exact (fieldFirst.mp present).1
      · intro on
        exact fieldFirst.mpr ⟨on, (filled on).1⟩

theorem recordDue_iff {info other : SingleLogConfInfo} {logFile : List Char} {store : NodeStore}
    {state : LogState} {write : Write} (switches : FileSwitches info other) (infos : LogConfInfos) :
    RecordDue other logFile store { state with infos := .live infos } write ↔
      RecordDue info logFile store state write := by
  constructor
  · intro due
    exact ⟨due.unmuted, by rw [switches.admits]; exact due.admitted, due.fits, due.opened⟩
  · intro due
    exact ⟨due.unmuted, by rw [← switches.admits]; exact due.admitted, due.fits, due.opened⟩

/-- What a call appends to the log file does not depend on the terminal exactly if
`p_file` is on in both tables whenever `f_file` is and a record is due. -/
theorem fileSideKept_iff {state : LogState} {first second : LogConfInfos} {store : NodeStore}
    {write : Write} {id : ℕ} {info other : SingleLogConfInfo} {logFile : List Char}
    (usable : Usable state first store) (same : SameFileSide first second)
    (chosen : Chosen first (.live first.names) write.request.logFile id info logFile)
    (cell : getLogConfInfo second id = some other) (toFile : info.irilogSwitch.logFile = true) :
    FileSideKept first second info.irilogSwitch state write ↔
      (RecordDue info logFile store state write → info.irilogSwitch.fFile = true →
        info.irilogSwitch.pFile = true ∧ other.irilogSwitch.pFile = true) := by
  have usableFirst : Usable { state with infos := .live first } first store :=
    ⟨usable.inited, usable.opened, rfl, usable.named, usable.nodes, usable.loaded, usable.valid⟩
  have usableSecond : Usable { state with infos := .live second } second store :=
    ⟨usable.inited, usable.opened, rfl, by rw [← same.names]; exact usable.named, usable.nodes,
      same.loaded usable.loaded, usable.valid⟩
  have chosenSecond := same.chosen usable.loaded chosen cell
  have switches : FileSwitches info other := by
    rcases same.getLogConfInfo chosen.cell with ⟨other', cell', agree⟩
    rw [cell] at cell'
    cases cell'
    exact fileSwitches_of_fileSide agree
  have toFileSecond : other.irilogSwitch.logFile = true := by
    rw [← switches.logFile]
    exact toFile
  have dueFirst := @recordDue_iff info info logFile store state write (fileSwitches_of_fileSide rfl)
    first
  have dueSecond := @recordDue_iff info other logFile store state write switches second
  by_cases due : RecordDue info logFile store state write
  · rcases appended_due usableFirst chosen toFile (dueFirst.mpr due) with
      ⟨level, appends, levelOf⟩
    rcases appended_due usableSecond chosenSecond toFileSecond (dueSecond.mpr due) with
      ⟨level', appendsSecond, levelOf'⟩
    rw [levelOf] at levelOf'
    cases levelOf'
    rw [fileSideKept_record switches appends appendsSecond, imp_iff_right due]
  · have nothing := appended_not_due usableFirst chosen toFile (mt dueFirst.mp due)
    have nothingSecond := appended_not_due usableSecond chosenSecond toFileSecond
      (mt dueSecond.mp due)
    apply iff_of_true
    · constructor
      · rw [nothing, nothingSecond]
      · rw [nothing]
        nofun
    · intro wrong
      exact absurd wrong due

/-- The table without a configuration file: the source file goes to log files and not to
the terminal. -/
def defaultInfos : LogConfInfos := copyIsValid logConfInfosInit

/-- The same table with `p_file` on. -/
def shownInfos : LogConfInfos :=
  modifyInfo defaultInfos infosIdDefault fun info =>
    { info with irilogSwitch := { info.irilogSwitch with pFile := true } }

/-- The same again with the terminal, its date and its function names on. -/
def echoedInfos : LogConfInfos :=
  modifyInfo shownInfos infosIdDefault fun info =>
    { info with irilogSwitch :=
      { info.irilogSwitch with logTerminal := true, pDate := true, pFunc := true } }

def withoutFile : InitAnswers := ⟨true, true, .missing, nul, id, 0, .zero⟩

/-- The library after its initialisation, with one of the tables. -/
def initedState (infos : LogConfInfos) : LogState :=
  { LogState.start ⟨"app".toList, "box".toList, 1, sampleProcName_short⟩ with
    initFlag := hasInited
    globalLogPath := irilogPath
    infos := .live infos
    confLogFileNames := .live infos.names
    logFileNodes := .live .empty }

/-- With `p_file` on in both tables the other switches of the terminal do not matter. -/
theorem fileSideKept_shown :
    shownInfos ≠ echoedInfos ∧
      FileSideKept shownInfos echoedInfos { (setDefaultSingleLogConfInfo .zero).irilogSwitch with
        pFile := true } (initedState shownInfos) ⟨sampleRequest, sampleAnswers withoutFile⟩ := by
  have loaded : Loaded shownInfos :=
    SameFileSide.loaded (show SameFileSide defaultInfos shownInfos from ⟨rfl, rfl, rfl⟩)
      (getLogConfInfos_loaded (show getLogConfInfos nul id .missing = .ok defaultInfos from rfl))
  have usable : Usable (initedState shownInfos) shownInfos .empty :=
    ⟨rfl, rfl, rfl, rfl, rfl, loaded, NodeStore.wellFormed_empty⟩
  refine ⟨by decide, (@fileSideKept_iff (initedState shownInfos) shownInfos echoedInfos .empty
    ⟨sampleRequest, sampleAnswers withoutFile⟩ infosIdDefault _ _ "a".toList usable ⟨rfl, rfl, rfl⟩
    ⟨rfl, rfl, rfl⟩ rfl rfl).mpr ?_⟩
  intro _ _
  exact ⟨rfl, rfl⟩

/-- With `p_file` off the source file is missing from the log file, with `p_file` on it
is there. -/
theorem not_fileSideKept_default :
    iridiumInitLog none withoutFile (.start ⟨"app".toList, "box".toList, 1, by decide⟩) =
        .ok (0, initedState defaultInfos) ∧
      SameFileSide defaultInfos shownInfos ∧
      ¬ FileSideKept defaultInfos shownInfos (setDefaultSingleLogConfInfo .zero).irilogSwitch
        (initedState defaultInfos) ⟨sampleRequest, sampleAnswers withoutFile⟩ := by
  refine ⟨rfl, ⟨rfl, rfl, rfl⟩, ?_⟩
  intro kept
  have same := kept.same
  cases same

end Lctools.Log
