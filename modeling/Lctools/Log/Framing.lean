import Lctools.Foundation.Lines
import Lctools.Log.Terminal

/-! # One line for each message

The record that `transparent_iridium_write_log` hands to `write` is one line, also
when the message is cut off, so that a log file can be taken apart again. In front of
the message stand the fields that the settings ask for, except that the name of the
source file waits for a switch of the terminal.
-/

namespace Lctools.Log

open CString Numerals

/-! ## The record -/

/-- The most that stands in front of the newline of a record. -/
def lineMaxLen : ℕ := 32765

/-- The fields that the settings of a log ask for in front of a message. -/
def headerOf (switch : IrilogSwitch) (level : Loglevl) (request : Request) (reading : Reading)
    (clock : Clock) : List Char :=
  dateField switch reading clock ++ (if switch.fFile then fileField request else []) ++
    fieldsOf switch request ++ ['['] ++ level.logInfo ++ [']', ' ']

/-- What stands in front of a message in the log file. -/
def header (switch : IrilogSwitch) (level : Loglevl) (texts : Texts) : List Char :=
  (if switch.fDate then texts.date else []) ++ (if switch.fFile then texts.file else []) ++
    (if switch.fFunc then texts.func else []) ++ (if switch.fLine then texts.line else []) ++
    ['['] ++ level.logInfo ++ [']', ' ']

/-- The same with the buffers as they are filled for a message. -/
def filledHeader (info : SingleLogConfInfo) (level : Loglevl) (request : Request)
    (reading : Reading) (world : World) : List Char :=
  header info.irilogSwitch level (fillTexts info.irilogSwitch level request reading world).1

def framed (header message : List Char) : List Char :=
  if (header ++ message).length ≤ lineMaxLen then header ++ message ++ ['\n']
  else (header ++ message).take lineMaxLen ++ ['\n']

theorem framed_eq (header message : List Char) :
    framed header message = (header ++ message).take lineMaxLen ++ ['\n'] := by
  rw [framed]
  split
  · next short => rw [List.take_of_length_le short]
  · rfl

/-- Two buffers cut the text off, and the second index write makes the last
character that is left a newline. -/
theorem fileRecord_eq (switch : IrilogSwitch) (level : Loglevl) (texts : Texts) :
    fileRecord switch level texts = framed (header switch level texts) texts.message := by
  have cut : ∀ line : List Char,
      (((line ++ ['\n']).take (loginfoMaxLen - 1)).take (loginfoMaxLen - 2)).dropLast =
        line.take lineMaxLen := by
    intro line
    rw [List.take_take, List.dropLast_eq_take, List.take_take, List.length_take]
    simp only [List.length_append, List.length_singleton, loginfoMaxLen, lineMaxLen]
    by_cases short : line.length ≤ 32765
    · rw [List.take_append_of_le_length (by omega), List.take_of_length_le (by omega),
        List.take_of_length_le short]
    · rw [List.take_append_of_le_length (by omega)]
      congr 1
      omega
  rw [framed_eq, fileRecord]
  simp only [snprintf]
  rw [cut]
  rfl

theorem recordOf_framed (info : SingleLogConfInfo) (level : Loglevl) (request : Request)
    (reading : Reading) (world : World) :
    recordOf info level request reading world =
      framed (filledHeader info level request reading world) (text request.message) := by
  have message : (fillTexts info.irilogSwitch level request reading world).1.message =
      (text request.message).take (loginfoMaxLen - 1) := by
    rw [text, List.take_takeWhile]
    rfl
  rw [recordOf, fileRecord_eq, message, framed_eq, framed_eq, filledHeader]
  congr 1
  rw [List.take_append, List.take_append, List.take_take]
  congr 2
  simp only [lineMaxLen, loginfoMaxLen]
  omega

/-- The filled header lacks the source file when the terminal does not show it. -/
theorem filledHeader_eq (info : SingleLogConfInfo) (level : Loglevl) (request : Request)
    (reading : Reading) (world : World)
    (shown : info.irilogSwitch.fFile = true → info.irilogSwitch.pFile = true) :
    filledHeader info level request reading world =
      headerOf info.irilogSwitch level request reading world.clock := by
  rcases fillTexts_fst info.irilogSwitch level request reading world with
    ⟨date, file, func, line, _⟩
  have fileField : ∀ field : List Char,
      (if info.irilogSwitch.fFile then if info.irilogSwitch.pFile then field else [] else []) =
        if info.irilogSwitch.fFile then field else [] := by
    intro field
    cases on : info.irilogSwitch.fFile with
    | true => rw [shown on, if_pos rfl]
    | false => rfl
  rw [filledHeader, header, date, file, func, line, guarded_field, guarded_field, guarded_field,
    fileField, headerOf, dateField, fieldsOf]
  simp only [List.append_assoc]

/-- A record has the header that the settings ask for exactly if the source file, when it
is asked for, is also shown on the terminal. -/
theorem recordOf_framed_iff (info : SingleLogConfInfo) (level : Loglevl) (request : Request)
    (reading : Reading) (world : World) :
    recordOf info level request reading world =
        framed (headerOf info.irilogSwitch level request reading world.clock)
          (text request.message) ↔
      (info.irilogSwitch.fFile = true → info.irilogSwitch.pFile = true) := by
  constructor
  · intro same on
    refine ((field_prefix_iff info level request reading world).mp ?_).2
    have dateLength := dateField_length info.irilogSwitch reading world.clock
    have fileLength := fileField_length request
    have short : (dateField info.irilogSwitch reading world.clock ++
        fileField request).length ≤ lineMaxLen := by
      rw [List.length_append, lineMaxLen]
      omega
    rw [same, framed_eq, headerOf, on, if_pos rfl, List.append_assoc _ (fieldsOf _ _),
      List.append_assoc _ (_ ++ _), List.append_assoc _ (_ ++ _), List.append_assoc _ (_ ++ _),
      List.take_append, List.take_of_length_le short, List.append_assoc]
    exact List.prefix_append _ _
  · intro shown
    rw [recordOf_framed, filledHeader_eq info level request reading world shown]

/-! ## Lines without a newline of their own -/

theorem newline_not_mem_take {line : List Char} (clean : '\n' ∉ line) (size : ℕ) :
    '\n' ∉ line.take size :=
  fun member => clean (List.mem_of_mem_take member)

theorem newline_not_mem_padded (width value : ℕ) : '\n' ∉ padded width value := by
  intro member
  exact absurd (isDigit_of_mem_padded member) (by decide)

theorem newline_not_mem_decimalInt (value : ℤ) : '\n' ∉ decimalInt value := by
  have digits : ∀ number : ℕ, '\n' ∉ decimal number := by
    intro number member
    exact absurd (isDigit_of_mem_decimal member) (by decide)
  cases value with
  | ofNat number => exact digits number
  | negSucc number =>
      rw [decimalInt, List.mem_cons, not_or]
      exact ⟨by decide, digits (number + 1)⟩

theorem newline_not_mem_messageDate (tm : Tm) : '\n' ∉ messageDate tm := by
  have month : '\n' ∉ monthArray.getD (if tm.mon < 12 then tm.mon else 12) [] := by
    have all : ∀ index < 13, '\n' ∉ monthArray.getD index [] := by decide
    apply all
    split <;> omega
  rw [List.getD_eq_getElem?_getD] at month
  apply newline_not_mem_take
  simp [month, newline_not_mem_padded]

/-- The texts of a message that come from its caller, without a newline. The
macro `iridium_write_log` passes `__FILE__` and `__func__` as the first two. -/
structure OneLine (request : Request) : Prop where
  fileName : '\n' ∉ text request.fileName
  funcName : '\n' ∉ text request.funcName
  message : '\n' ∉ text request.message

theorem newline_not_mem_fileField {request : Request} (oneLine : OneLine request) :
    '\n' ∉ fileField request := by
  have base : '\n' ∉ baseName (text request.fileName) := by
    intro member
    rw [baseName, List.mem_reverse] at member
    exact oneLine.fileName (List.mem_reverse.mp ((List.takeWhile_sublist _).subset member))
  apply newline_not_mem_take
  simp [base]

theorem newline_not_mem_filledHeader (info : SingleLogConfInfo) (level : Loglevl)
    {request : Request} (oneLine : OneLine request) (reading : Reading) (world : World) :
    '\n' ∉ filledHeader info level request reading world := by
  rcases fillTexts_fst info.irilogSwitch level request reading world with
    ⟨date, file, func, line, _⟩
  have optional : ∀ (wanted : Bool) {field : List Char}, '\n' ∉ field →
      '\n' ∉ if wanted then field else [] := by
    intro wanted field clean
    cases wanted with
    | true => exact clean
    | false => exact List.not_mem_nil
  have funcField : '\n' ∉ snprintf 1024 ("Func:".toList ++ text request.funcName ++ [' ']) := by
    apply newline_not_mem_take
    simp [oneLine.funcName]
  have lineField : '\n' ∉ snprintf 64 ("Line:".toList ++ decimalInt request.line) := by
    apply newline_not_mem_take
    simp [newline_not_mem_decimalInt]
  have levelName : '\n' ∉ level.logInfo := by
    cases level <;> decide
  rw [filledHeader, header, date, file, func, line]
  simp only [List.mem_append, not_or]
  exact ⟨⟨⟨⟨⟨⟨optional _ (optional _ (newline_not_mem_messageDate _)),
    optional _ (optional _ (newline_not_mem_fileField oneLine))⟩,
    optional _ (optional _ funcField)⟩, optional _ (optional _ lineField)⟩, by decide⟩,
    levelName⟩, by decide⟩

/-! ## What a file gets -/

/-- The part of a record that an event brings into a file. -/
def Event.bytesTo (path : List Char) : Event → Option (List Char)
  | .wrote _ target record written =>
      if target = path ∧ 0 ≤ written then some (record.take written.toNat) else none
  | _ => none

/-- What the events bring into a file, the oldest first. -/
def delivered (path : List Char) (events : List Event) : List (List Char) :=
  (events.filterMap (Event.bytesTo path)).reverse

/-- The content of a file, to which `write` appends. -/
def fileContent (path : List Char) (state : LogState) : List Char :=
  (delivered path state.world.events).flatten

/-- The messages of a run that get into a file, in order. -/
def sentTo (path : List Char) : LogState → List Write → List Request
  | _, [] => []
  | state, write :: writes =>
      match writeStep state write with
      | .error _ => []
      | .ok (_, next) =>
          (delivered path (next.world.events.take
            (next.world.events.length - state.world.events.length))).map
              (fun _ => write.request) ++ sentTo path next writes

theorem delivered_append (path : List Char) (new old : List Event) :
    delivered path (new ++ old) = delivered path old ++ delivered path new := by
  rw [delivered, List.filterMap_append, List.reverse_append]
  rfl

/-- The new events bring nothing into any file. -/
def BringsNothing (world next : World) : Prop :=
  ∃ new, next.events = new ++ world.events ∧ ∀ path, delivered path new = []

/-- The new events bring at most this record into a file. -/
def BringsOne (record : List Char) (world next : World) : Prop :=
  ∃ new, next.events = new ++ world.events ∧
    ∀ path, delivered path new = [] ∨ delivered path new = [record]

section Brings

variable {world middle next : World} {record : List Char}

theorem BringsNothing.refl (world : World) : BringsNothing world world :=
  ⟨[], rfl, fun _ => rfl⟩

theorem BringsNothing.add {event : Event} (nothing : BringsNothing world next)
    (quiet : ∀ path, event.bytesTo path = none) : BringsNothing world (next.add event) := by
  rcases nothing with ⟨new, events, none⟩
  refine ⟨event :: new, by rw [World.add_events, events]; rfl, ?_⟩
  intro path
  rw [delivered, List.filterMap_cons_none (quiet path)]
  exact none path

theorem BringsNothing.withClock (nothing : BringsNothing world next) (clock : Clock) :
    BringsNothing world { next with clock := clock } :=
  nothing

theorem BringsNothing.trans (first : BringsNothing world middle)
    (second : BringsNothing middle next) : BringsNothing world next := by
  rcases first with ⟨new, events, none⟩
  rcases second with ⟨newer, newerEvents, newerNone⟩
  refine ⟨newer ++ new, by rw [newerEvents, events, List.append_assoc], ?_⟩
  intro path
  rw [delivered_append, none, newerNone, List.append_nil]

theorem BringsNothing.bringsOne (nothing : BringsNothing world next) :
    BringsOne record world next := by
  rcases nothing with ⟨new, events, none⟩
  exact ⟨new, events, fun path => .inl (none path)⟩

theorem BringsOne.before (first : BringsNothing world middle)
    (second : BringsOne record middle next) : BringsOne record world next := by
  rcases first with ⟨new, events, none⟩
  rcases second with ⟨newer, newerEvents, one⟩
  refine ⟨newer ++ new, by rw [newerEvents, events, List.append_assoc], ?_⟩
  intro path
  rw [delivered_append, none, List.nil_append]
  exact one path

theorem BringsOne.behind (first : BringsOne record world middle)
    (second : BringsNothing middle next) : BringsOne record world next := by
  rcases first with ⟨new, events, one⟩
  rcases second with ⟨newer, newerEvents, none⟩
  refine ⟨newer ++ new, by rw [newerEvents, events, List.append_assoc], ?_⟩
  intro path
  rw [delivered_append, none, List.append_nil]
  exact one path

end Brings

/-! ## What one call brings -/

section Calls

variable (globalLogPath : List Char) (info : SingleLogConfInfo) (node : LogFileNode)
  (world : World)

theorem createLogFileFd_bringsNothing (opening : Opening) :
    BringsNothing world (createLogFileFd globalLogPath opening node world).2 := by
  have closed : BringsNothing world
      (if 0 < node.fd then world.add (.closed node.fd) else world) := by
    split
    · exact (BringsNothing.refl world).add fun _ => rfl
    · exact .refl world
  rw [createLogFileFd]
  exact (closed.withClock _).add fun _ => rfl

theorem acquireNode_bringsNothing (opening : Opening) (logFile : List Char) (id : ℕ)
    (found : Option LogFileNode) :
    BringsNothing world (acquireNode globalLogPath opening logFile info id found world).2 := by
  cases found with
  | none => exact createLogFileFd_bringsNothing ..
  | some node =>
      rw [acquireNode]
      split
      · exact createLogFileFd_bringsNothing ..
      · exact .refl world

theorem processLock_bringsNothing {event : Event} (quiet : ∀ path, event.bytesTo path = none) :
    BringsNothing world (processLock info event world) := by
  rw [processLock]
  split
  · exact (BringsNothing.refl world).add quiet
  · exact .refl world

theorem rotate_bringsNothing (answers : WriteAnswers) :
    BringsNothing world (rotate globalLogPath info answers node world).2 := by
  have asked : BringsNothing world (world.add (.fstat node.name answers.fstatOk)) :=
    (BringsNothing.refl world).add fun _ => rfl
  have changed := asked.trans (createLogFileFd_bringsNothing globalLogPath node
    (world.add (.fstat node.name answers.fstatOk)) answers.rotation)
  rw [rotate]
  split
  · simp only
    split
    · exact changed
    · exact asked
  · exact .refl world

theorem writeRecord_bringsOne (record : List Char) {answers : WriteAnswers}
    (whole : ∀ length, answers.write length < 0 ∨ answers.write length = length) :
    BringsOne record world (writeRecord record answers node world).2 := by
  generalize writtenEqual : (if 0 < node.fd then answers.write record.length else -1) = written
  have amount : written < 0 ∨ written = record.length := by
    rw [← writtenEqual]
    split
    · exact whole _
    · exact .inl (by decide)
  refine ⟨[.wrote node.name node.path record written], ?_, ?_⟩
  · rw [writeRecord, writtenEqual]
    split <;> rfl
  · intro path
    by_cases target : node.path = path ∧ 0 ≤ written
    · right
      have full : record.take written.toNat = record := by
        apply List.take_of_length_le
        omega
      simp [delivered, Event.bytesTo, target, full]
    · left
      simp [delivered, Event.bytesTo, target]

theorem writeNode_bringsOne (logFile : List Char) (id : ℕ) (record : List Char)
    {answers : WriteAnswers}
    (whole : ∀ length, answers.write length < 0 ∨ answers.write length = length)
    (found : Option LogFileNode) :
    BringsOne record world
      (writeNode globalLogPath logFile info id record answers found world).2 := by
  have acquired := acquireNode_bringsNothing globalLogPath info world answers.opening logFile id
    found
  rw [writeNode]
  generalize acquireNode globalLogPath answers.opening logFile info id found world = result
    at acquired
  rcases result with ⟨node, next⟩
  simp only
  split
  · exact acquired.bringsOne
  · have locked := @processLock_bringsNothing info next (.locked node.fd) fun _ => rfl
    have rotated := rotate_bringsNothing globalLogPath info node
      (processLock info (.locked node.fd) next) answers
    have wrote := (writeRecord_bringsOne (rotate globalLogPath info answers node
      (processLock info (.locked node.fd) next)).1 _ record whole).before
      (acquired.trans (locked.trans rotated))
    exact wrote.behind (processLock_bringsNothing info _ fun _ => rfl)

theorem announce_bringsNothing (level : Loglevl) (request : Request) (reading : Reading) :
    BringsNothing world (announce info level request reading world) := by
  rcases announce_events world info level request reading with same | ⟨record, printed⟩
  · exact ⟨[], same, fun _ => rfl⟩
  · exact ⟨[.printed record], printed, fun _ => rfl⟩

end Calls

/-- The line of a message, with a header as it is filled for some settings. -/
def LineOf (request : Request) (line : List Char) : Prop :=
  ∃ info level reading world,
    line = (filledHeader info level request reading world ++ text request.message).take lineMaxLen

section Runs

variable {state next : LogState} {infos : LogConfInfos} {store : NodeStore} {write : Write}

theorem writeStep_bringsOne {ret : ℤ} (usable : Usable state infos store)
    (whole : ∀ length, write.answers.write length < 0 ∨ write.answers.write length = length)
    (written : writeStep state write = .ok (ret, next)) :
    (∃ last, Usable next infos last) ∧ ∃ line, LineOf write.request line ∧
      BringsOne (line ++ ['\n']) state.world next.world := by
  have record : ∀ info level, ∃ line, LineOf write.request line ∧
      recordOf info level write.request write.answers.reading state.world = line ++ ['\n'] := by
    intro info level
    refine ⟨_, ⟨info, level, write.answers.reading, state.world, rfl⟩, ?_⟩
    rw [recordOf_framed, framed_eq]
  cases writeStep_effect usable written with
  | nothing =>
      rcases record .zero .debug with ⟨line, lineOf, _⟩
      exact ⟨⟨store, usable⟩, line, lineOf, (BringsNothing.refl _).bringsOne⟩
  | terminal info level =>
      rcases record info level with ⟨line, lineOf, _⟩
      exact ⟨⟨store, usable.withWorld _⟩, line, lineOf,
        (announce_bringsNothing info _ level ..).bringsOne⟩
  | file id info name level last chosen updates =>
      rcases record info level with ⟨line, lineOf, same⟩
      refine ⟨⟨last, usable.withNodes updates.wellFormed _⟩, line, lineOf, ?_⟩
      rw [same]
      exact (writeNode_bringsOne _ info _ name id _ whole _).before
        (announce_bringsNothing info _ level ..)

/-- What a run brings into a file are the lines of the messages sent to it. -/
theorem run_delivered (path : List Char) : ∀ {writes : List Write} {state last : LogState}
    {store : NodeStore} {replies : List ℤ}, Usable state infos store →
    (∀ write ∈ writes, ∀ length,
      write.answers.write length < 0 ∨ write.answers.write length = length) →
    run writeStep state writes = .ok (replies, last) →
    ∃ lines, delivered path last.world.events =
        delivered path state.world.events ++ lines.map (· ++ ['\n']) ∧
      List.Forall₂ LineOf (sentTo path state writes) lines
  | [], state, last, store, replies, usable, _, ran => by
      cases ran
      exact ⟨[], by simp, .nil⟩
  | write :: writes, state, last, store, replies, usable, whole, ran => by
      rcases Run.run_cons_inversion ran with ⟨reply, next, rest, stepped, ranRest, _⟩
      rcases writeStep_bringsOne usable (whole write (List.mem_cons_self ..)) stepped with
        ⟨⟨nextStore, nextUsable⟩, line, lineOf, new, events, one⟩
      rcases run_delivered path nextUsable
        (fun other member => whole other (List.mem_cons_of_mem _ member)) ranRest with
        ⟨lines, later, sent⟩
      have fresh : next.world.events.take
          (next.world.events.length - state.world.events.length) = new := by
        rw [events, List.length_append, Nat.add_sub_cancel, List.take_left]
      rw [later, events, delivered_append, sentTo, stepped]
      simp only [fresh]
      rcases one path with nothing | brought
      · exact ⟨lines, by simp [nothing], by simpa [nothing] using sent⟩
      · exact ⟨line :: lines, by simp [brought], by simpa [brought] using ⟨lineOf, sent⟩⟩

/-- What a call hands to `write` is framed with the header that the settings of its log ask
for. -/
def FramedIn (infos : LogConfInfos) (state : LogState) (write : Write) : Prop :=
  ∀ entry ∈ appended state write, ∃ id info logFile level,
    Chosen infos (.live infos.names) write.request.logFile id info logFile ∧
    Loglevl.ofInt write.request.level = some level ∧
    entry.2 = framed
      (headerOf info.irilogSwitch level write.request write.answers.reading state.world.clock)
      (text write.request.message)

/-- A call that is due to write a record asks for the source file only with settings that
also show it on the terminal. -/
def FileShown (infos : LogConfInfos) (state : LogState) (write : Write) : Prop :=
  ∀ id info logFile store, state.logFileNodes = .live store →
    Chosen infos (.live infos.names) write.request.logFile id info logFile →
    info.irilogSwitch.logFile = true → RecordDue info logFile store state write →
    info.irilogSwitch.fFile = true → info.irilogSwitch.pFile = true

theorem framedIn_iff_fileShown (usable : Usable state infos store) :
    FramedIn infos state write ↔ FileShown infos state write := by
  constructor
  · intro framedIn id info logFile store' live chosen toFile due
    rw [usable.nodes] at live
    cases live
    rcases appended_due usable chosen toFile due with ⟨level, appends, levelOf⟩
    rcases framedIn _ (by rw [appends]; exact List.mem_singleton_self _) with
      ⟨_, _, _, other, chosen', levelOf', same⟩
    rcases chosen.unique chosen' with ⟨rfl, rfl, rfl⟩
    rw [levelOf] at levelOf'
    cases levelOf'
    exact (recordOf_framed_iff info level write.request _ _).mp same
  · intro shown entry member
    have returned : ∃ ret next, writeStep state write = .ok (ret, next) := by
      rcases stepped : writeStep state write with fault | ⟨ret, next⟩
      · rw [appended, stepped] at member
        cases member
      · exact ⟨ret, next, rfl⟩
    rcases returned with ⟨ret, next, written⟩
    cases writeStep_effect usable written with
    | nothing =>
        rw [@appended_of_ok _ _ _ _ [] written rfl] at member
        cases member
    | terminal info level =>
        rw [@appended_of_ok _ _ _ _ [] written (announce_wrotes ..)] at member
        cases member
    | file id info name _ last chosen updates =>
        rw [usable.named] at chosen
        cases toFile : info.irilogSwitch.logFile with
        | false =>
            rw [appended_terminal usable chosen toFile] at member
            cases member
        | true =>
            by_cases due : RecordDue info name store state write
            · rcases appended_due usable chosen toFile due with ⟨level, appends, levelOf⟩
              rw [appends, List.mem_singleton] at member
              refine ⟨id, info, name, level, chosen, levelOf, ?_⟩
              rw [member]
              exact (recordOf_framed_iff info level write.request _ _).mpr
                (shown id info name store usable.nodes chosen toFile due)
            · rw [appended_not_due usable chosen toFile due] at member
              cases member

theorem usable_writeStep {ret : ℤ} (usable : Usable state infos store)
    (written : writeStep state write = .ok (ret, next)) : ∃ last, Usable next infos last := by
  cases writeStep_effect usable written with
  | nothing => exact ⟨store, usable⟩
  | terminal info level => exact ⟨store, usable.withWorld _⟩
  | file id info name level last chosen updates =>
      exact ⟨last, usable.withNodes updates.wellFormed _⟩

theorem mem_sentTo {path : List Char} {request : Request} : ∀ {writes : List Write}
    {state : LogState}, request ∈ sentTo path state writes →
    ∃ write ∈ writes, write.request = request
  | [], _, member => by cases member
  | write :: writes, state, member => by
      rw [sentTo] at member
      rcases stepped : writeStep state write with fault | ⟨reply, next⟩
      · rw [stepped] at member
        cases member
      · rw [stepped] at member
        rcases List.mem_append.mp member with own | later
        · rcases List.mem_map.mp own with ⟨_, _, same⟩
          exact ⟨write, List.mem_cons_self .., same⟩
        · rcases mem_sentTo later with ⟨other, inside, same⟩
          exact ⟨other, List.mem_cons_of_mem _ inside, same⟩

theorem newline_not_mem_lines {requests : List Request} {lines : List (List Char)}
    (sent : List.Forall₂ LineOf requests lines)
    (oneLine : ∀ request ∈ requests, OneLine request) : ∀ line ∈ lines, '\n' ∉ line := by
  induction sent with
  | nil => nofun
  | cons lineOf sent induction =>
      rw [List.forall_mem_cons] at oneLine ⊢
      refine ⟨?_, induction oneLine.2⟩
      rcases lineOf with ⟨info, level, reading, world, rfl⟩
      apply newline_not_mem_take
      rw [List.mem_append, not_or]
      exact ⟨newline_not_mem_filledHeader info level oneLine.1 reading world, oneLine.1.message⟩

end Runs

/-- Along a run of writes every record is the header that the settings ask for and the
message as one line, cut off at 32765 characters, exactly if the run never asks for the
source file in a log file without showing it on the terminal. In any case a file that gets
whole records of messages without a newline splits into one line for each of them. -/
theorem records_framed_iff {host : Host} {logpath : Option (List Char)}
    {init : InitAnswers} {start : LogState}
    (inited : iridiumInitLog logpath init (.start host) = .ok (0, start)) {infos : LogConfInfos}
    (loaded : start.infos = .live infos) (writes : List Write) :
    (Run.Along writeStep (FramedIn infos) start writes ↔
      Run.Along writeStep (FileShown infos) start writes) ∧
    ∀ replies state, run writeStep start writes = .ok (replies, state) →
      (∀ write ∈ writes, OneLine write.request) →
      (∀ write ∈ writes, ∀ length,
        write.answers.write length < 0 ∨ write.answers.write length = length) →
      ∀ path, ∃ lines, Lines.split '\n' (fileContent path state) = (lines, []) ∧
        List.Forall₂ LineOf (sentTo path start writes) lines := by
  rcases usable_of_init inited with ⟨_, usable, world⟩
  rw [usable.live] at loaded
  cases loaded
  constructor
  · have keeps : ∀ state write ret next, (∃ store, Usable state infos store) →
        writeStep state write = .ok (ret, next) → ∃ store, Usable next infos store := by
      rintro state write ret next ⟨store, usable⟩ written
      exact usable_writeStep usable written
    have agree : ∀ state write, (∃ store, Usable state infos store) →
        (FramedIn infos state write ↔ FileShown infos state write) := by
      rintro state write ⟨store, usable⟩
      exact framedIn_iff_fileShown usable
    exact Run.along_congr keeps agree writes start ⟨_, usable⟩
  · intro replies state ran oneLine whole path
    rcases run_delivered path usable whole ran with ⟨lines, content, sent⟩
    refine ⟨lines, ?_, sent⟩
    have clean := newline_not_mem_lines sent (by
      intro request member
      rcases mem_sentTo member with ⟨write, inside, rfl⟩
      exact oneLine write inside)
    have joined : fileContent path state = Lines.join '\n' lines ++ [] := by
      rw [fileContent, content, world]
      simp [delivered, Lines.join, List.flatMap_def]
    rw [joined]
    exact Lines.split_join clean List.not_mem_nil

def framingHost : Host := ⟨"app".toList, "box".toList, 1, sampleProcName_short⟩

/-- Settings that ask for the source file on both sides. -/
def bothSidesFile : List Char :=
  "-a\nDEBUG.INFO.ERR.FATAL=0.1.1.1\nLOG_FILE.FILE.FUNC.LINE.DATE=1.1.0.0.0\n".toList ++
    "LOG_TERMINAL.FILE.FUNC.LINE.DATE=0.1.0.0.0\n-end\n".toList

def bothSides : InitAnswers :=
  { withoutFile with file := .readable bothSidesFile }

def bothSidesInfo : SingleLogConfInfo :=
  { SingleLogConfInfo.zero with
    name := "a".toList
    irilogSwitch := { IrilogSwitch.zero with
      pFile := true, fFile := true, logFile := true, info := true, err := true, fatal := true } }

def bothSidesInfos : LogConfInfos where
  len := 4
  allocatedLen := 50
  sinfo := defaultInfos.sinfo ++ [some bothSidesInfo]
  names := [(defaultLogFileName, infosIdDefault), ("a".toList, infosIdStart)]

set_option maxRecDepth 8000 in
theorem bothSides_ok :
    iridiumInitLog none bothSides (.start framingHost) = .ok (0, initedState bothSidesInfos) :=
  rfl

/-- Two messages to the log `a`, whose settings show the source file on both sides, are two
framed lines of its file. -/
theorem records_framed_twice :
    ∃ state lines, iridiumInitLog none bothSides (.start framingHost) =
        .ok (0, initedState bothSidesInfos) ∧
      Run.Along writeStep (FramedIn bothSidesInfos) (initedState bothSidesInfos)
        (List.replicate 2 ⟨sampleRequest, sampleAnswers bothSides⟩) ∧
      run writeStep (initedState bothSidesInfos)
        (List.replicate 2 ⟨sampleRequest, sampleAnswers bothSides⟩) = .ok ([0, 0], state) ∧
      Lines.split '\n' (fileContent (irilogPath ++ newFileName framingHost "a".toList
        (dateText .zero)) state) = (lines, []) ∧
      List.Forall₂ LineOf [sampleRequest, sampleRequest] lines := by
  have framing := @records_framed_iff framingHost none bothSides (initedState bothSidesInfos)
    bothSides_ok bothSidesInfos rfl (List.replicate 2 ⟨sampleRequest, sampleAnswers bothSides⟩)
  rcases framing.2 [0, 0] _ rfl
    (by
      intro write member
      rw [List.eq_of_mem_replicate member]
      exact ⟨by decide, by decide, by decide⟩)
    (by
      intro write member
      rw [List.eq_of_mem_replicate member]
      exact fun length => .inr rfl)
    (irilogPath ++ newFileName framingHost "a".toList (dateText .zero)) with ⟨lines, split, sent⟩
  refine ⟨_, lines, bothSides_ok, framing.1.mpr ?_, rfl, split, sent⟩
  have known : Chosen bothSidesInfos (.live bothSidesInfos.names) sampleRequest.logFile
      infosIdStart bothSidesInfo "a".toList :=
    ⟨rfl, rfl, rfl⟩
  have shown : ∀ state,
      FileShown bothSidesInfos state ⟨sampleRequest, sampleAnswers bothSides⟩ := by
    intro state id info logFile store _ chosen _ _ _
    rw [(chosen.unique known).2.1]
    rfl
  exact ⟨shown _, fun _ next _ => ⟨shown next, fun _ _ _ => trivial⟩⟩

/-- Without a configuration file the settings ask for the source file in the log file only,
and a record comes without it. -/
theorem not_framed_default :
    iridiumInitLog none withoutFile (.start framingHost) = .ok (0, initedState defaultInfos) ∧
      ¬ Run.Along writeStep (FramedIn defaultInfos) (initedState defaultInfos)
        [⟨sampleRequest, sampleAnswers withoutFile⟩] := by
  refine ⟨rfl, ?_⟩
  intro along
  have loaded : Loaded defaultInfos :=
    getLogConfInfos_loaded (show getLogConfInfos nul id .missing = .ok defaultInfos from rfl)
  have usable : Usable (initedState defaultInfos) defaultInfos .empty :=
    ⟨rfl, rfl, rfl, rfl, rfl, loaded, NodeStore.wellFormed_empty⟩
  have due : RecordDue { setDefaultSingleLogConfInfo .zero with name := defaultLogFileName }
      "a".toList .empty (initedState defaultInfos) ⟨sampleRequest, sampleAnswers withoutFile⟩ :=
    ⟨rfl, ⟨.info, rfl, rfl⟩, by decide, by decide⟩
  have shown := (framedIn_iff_fileShown usable).mp along.1 infosIdDefault _ "a".toList .empty rfl
    ⟨rfl, rfl, rfl⟩ rfl due rfl
  cases shown

end Lctools.Log
