import Lctools.Log.Clock
import Lctools.Muduo.LogStream
import Mathlib.Data.List.DropRight

/-! # `muduo/clog/muduo_clog.cc`

The C functions that write one record each through a `Logger` of `muduo/base/Logging.cc`,
and the text that the destructor of the `Logger` passes to `g_output`.
-/

namespace Lctools.Muduo

open CString Numerals

/-! ## The logger -/

inductive LogLevel where
  | trace
  | debug
  | info
  | warn
  | error
  | fatal
  deriving DecidableEq, Repr

def LogLevel.value : LogLevel → ℕ
  | .trace => 0
  | .debug => 1
  | .info => 2
  | .warn => 3
  | .error => 4
  | .fatal => 5

def logLevelName : LogLevel → List Char
  | .trace => "TRACE ".toList
  | .debug => "DEBUG ".toList
  | .info => "INFO  ".toList
  | .warn => "WARN  ".toList
  | .error => "ERROR ".toList
  | .fatal => "FATAL ".toList

/-- What a record is written with: `g_logLevel`, whether `g_logTimeZone` is valid, the local
time of the last second that differed, and the thread. -/
structure Context where
  logLevel : LogLevel
  zoned : Bool
  tm : Log.Tm
  microseconds : ℕ
  tid : ℕ

/-- `t_time`, printed with `%4d%02d%02d %02d:%02d:%02d`; a year after 1900 needs no blanks. -/
def timeText (tm : Log.Tm) : List Char :=
  snprintf 32 (decimal (tm.year + 1900) ++ padded 2 (tm.mon + 1) ++ padded 2 tm.mday ++ [' '] ++
    padded 2 tm.hour ++ [':'] ++ padded 2 tm.min ++ [':'] ++ padded 2 tm.sec)

def formatTime (context : Context) : List Piece :=
  let us := ['.'] ++ padded 6 context.microseconds
  [.string ((timeText context.tm).take 17),
    if context.zoned then .string ((us ++ " ".toList).take 8)
    else .string ((us ++ "Z ".toList).take 9)]

/-- `t_tidString`, printed with `%5d `. -/
def tidString (tid : ℕ) : List Char :=
  List.replicate (5 - (decimal tid).length) ' ' ++ decimal tid ++ [' ']

/-- `Logger::Impl::Impl` with no saved error number. -/
def impl (context : Context) (level : LogLevel) : List Piece :=
  formatTime context ++ [.string (tidString context.tid), .string (logLevelName level)]

/-- `operator<<(const char* str)`. -/
def cString : (str : Option (List Char)) → Piece
  | some str => .string str
  | none => .string "(null)".toList

/-- The constructor of `Logger` with a function name. -/
def implFunc (context : Context) (level : LogLevel) (func : Option (List Char)) : List Piece :=
  impl context level ++ [cString func, .string [' ']]

/-- `SourceFile`: the name behind the last slash. -/
def sourceFile (filename : List Char) : List Char :=
  (text filename).rtakeWhile (· ≠ '/')

def newline : Piece := .string ['\n']

/-- What `finish` writes before the newline. -/
def place (file : List Char) (line : Int32) : List Piece :=
  [.string " - ".toList, .string (sourceFile file), .string [':'], .int line]

def kSmallBuffer : ℕ := 4000

def emptyBuffer : FixedBuffer kSmallBuffer := ⟨[], by decide⟩

/-! ## The functions -/

def loginfoMaxLen : ℕ := 1024 * 32

def vaArgsBuf (formatted : List Char) : Piece :=
  .string (snprintf loginfoMaxLen formatted)

/-- A `Logger` that `<< vaArgsBuf` was used on, up to the end of its life. -/
def passed (header : List Piece) (cFile : List Char) (line : Int32) (formatted : List Char) :
    List Char :=
  (emptyBuffer.putAll (header ++ vaArgsBuf formatted :: (place cFile line ++ [newline]))).data

section Functions

variable (context : Context) (cFile : List Char) (func : Option (List Char)) (line : Int32)
  (formatted : List Char)

def muduoClogTrace : Option (List Char) :=
  if context.logLevel.value ≤ LogLevel.trace.value then
    some (passed (implFunc context .trace func) cFile line formatted)
  else none

def muduoClogDebug : Option (List Char) :=
  if context.logLevel.value ≤ LogLevel.debug.value then
    some (passed (implFunc context .debug func) cFile line formatted)
  else none

def muduoClogInfo : Option (List Char) :=
  if context.logLevel.value ≤ LogLevel.info.value then
    some (passed (impl context .info) cFile line formatted)
  else none

def muduoClogWarn : Option (List Char) :=
  some (passed (impl context .warn) cFile line formatted)

def muduoClogError : Option (List Char) :=
  some (passed (impl context .error) cFile line formatted)

end Functions

/-! ## Calls -/

inductive ClogFunction where
  | trace (func : Option (List Char))
  | debug (func : Option (List Char))
  | info
  | warn
  | error
  deriving DecidableEq, Repr

structure Call where
  function : ClogFunction
  cFile : List Char
  line : Int32
  formatted : List Char

namespace Call

/-- The text passed to the output, if there is one. -/
def output (context : Context) (call : Call) : Option (List Char) :=
  match call.function with
  | .trace func => muduoClogTrace context call.cFile func call.line call.formatted
  | .debug func => muduoClogDebug context call.cFile func call.line call.formatted
  | .info => muduoClogInfo context call.cFile call.line call.formatted
  | .warn => muduoClogWarn context call.cFile call.line call.formatted
  | .error => muduoClogError context call.cFile call.line call.formatted

/-- The record is written at the level in force. -/
def Enabled (context : Context) (call : Call) : Prop :=
  match call.function with
  | .trace _ => context.logLevel.value ≤ LogLevel.trace.value
  | .debug _ => context.logLevel.value ≤ LogLevel.debug.value
  | .info => context.logLevel.value ≤ LogLevel.info.value
  | .warn => True
  | .error => True

def header (context : Context) (call : Call) : List Piece :=
  match call.function with
  | .trace func => implFunc context .trace func
  | .debug func => implFunc context .debug func
  | .info => impl context .info
  | .warn => impl context .warn
  | .error => impl context .error

/-- What is written behind the message, but for the newline. -/
def trailer (call : Call) : List Piece :=
  place call.cFile call.line

/-- The text has the whole message and ends its line. -/
def Complete (context : Context) (call : Call) : Prop :=
  ∀ out, call.output context = some out →
    call.formatted <:+: out ∧ out.getLast? = some '\n'

/-- The message is written behind the header, or is a part of the text around it. -/
def MessageFits (context : Context) (call : Call) : Prop :=
  (fitting kSmallBuffer 0 (call.header context)).length + call.formatted.length < kSmallBuffer ∨
    call.formatted <:+: fitting kSmallBuffer 0 (call.header context ++ (call.trailer ++ [newline]))

/-- Header and message, as far as they are written. -/
def opening (context : Context) (call : Call) : List Char :=
  fitting kSmallBuffer 0 (call.header context ++ [vaArgsBuf call.formatted])

end Call

/-- Where ` - ` ends if it begins at `start`. -/
def dashEnd (start : ℕ) : ℕ :=
  if start + 3 < kSmallBuffer then start + 3 else start

/-- Where the name of the file ends, with ` - ` in front of it. -/
def nameEnd (start length : ℕ) : ℕ :=
  if dashEnd start + length < kSmallBuffer then dashEnd start + length else dashEnd start

/-- The name ends early enough for a colon and a newline, or a newline is the last byte that
there is room for. -/
def Call.NewlineFits (context : Context) (call : Call) : Prop :=
  let start := (call.opening context).length
  let name := sourceFile call.cFile
  nameEnd start name.length < kSmallBuffer - 2 ∨
    (dashEnd start + name.length = kSmallBuffer - 1 ∧ name.getLast? = some '\n') ∨
    (start = kSmallBuffer - 1 ∧ (call.opening context).getLast? = some '\n')

/-! ## What is passed -/

theorem sourceFile_clean (filename : List Char) : nul ∉ sourceFile filename := fun member =>
  nul_not_mem_text filename ((List.rtakeWhile_suffix _ _).mem member)

section Behind

variable {size used : ℕ} {pieces : List Piece}

theorem fitting_string {bytes : List Char} (clean : nul ∉ bytes) :
    fitting size used (.string bytes :: pieces) =
      if used + bytes.length < size then bytes ++ fitting size (used + bytes.length) pieces
      else fitting size used pieces := by
  rw [fitting, Piece.string]
  simp only [text_of_no_nul clean, ← Nat.add_assoc, Nat.succ_le_iff]

variable (file : List Char) (line : Int32) {start : ℕ}

/-- ` - ` and the name of the file. -/
def nameText (file : List Char) (start : ℕ) : List Char :=
  fitting kSmallBuffer start [.string " - ".toList, .string (sourceFile file)]

theorem nameText_eq (start : ℕ) :
    nameText file start =
      (if start + 3 < kSmallBuffer then " - ".toList else []) ++
        if dashEnd start + (sourceFile file).length < kSmallBuffer then sourceFile file else [] := by
  have dash : " - ".toList.length = 3 := rfl
  rw [nameText, fitting_string (by decide), fitting_string (sourceFile_clean file),
    fitting_string (sourceFile_clean file), dashEnd, dash]
  split_ifs
  all_goals simp [fitting]

theorem length_nameText (start : ℕ) :
    start + (nameText file start).length = nameEnd start (sourceFile file).length := by
  have dash : " - ".toList.length = 3 := rfl
  rw [nameText_eq, List.length_append, nameEnd]
  by_cases dashed : start + 3 < kSmallBuffer
  · have ends : dashEnd start = start + 3 := if_pos dashed
    rw [if_pos dashed, ends, dash]
    split
    · omega
    · rfl
  · have ends : dashEnd start = start := if_neg dashed
    rw [if_neg dashed, ends]
    split
    · simp
    · simp

theorem le_dashEnd (start : ℕ) : start ≤ dashEnd start := by
  unfold dashEnd
  split
  · omega
  · exact le_rfl

theorem getLast_dash {front : List Char} (full : dashEnd front.length = kSmallBuffer - 1) :
    (front ++ if front.length + 3 < kSmallBuffer then " - ".toList else []).getLast? = some '\n' ↔
      front.length = kSmallBuffer - 1 ∧ front.getLast? = some '\n' := by
  rw [dashEnd] at full
  by_cases dashed : front.length + 3 < kSmallBuffer
  · rw [if_pos dashed] at full ⊢
    have early : front.length ≠ kSmallBuffer - 1 := by omega
    simp [List.getLast?_append, early]
  · rw [if_neg dashed] at full ⊢
    rw [List.append_nil]
    simp only [full, true_and]

theorem getLast_nameText {front : List Char}
    (full : nameEnd front.length (sourceFile file).length = kSmallBuffer - 1) :
    (front ++ nameText file front.length).getLast? = some '\n' ↔
      (dashEnd front.length + (sourceFile file).length = kSmallBuffer - 1 ∧
          (sourceFile file).getLast? = some '\n') ∨
        (front.length = kSmallBuffer - 1 ∧ front.getLast? = some '\n') := by
  have behind := le_dashEnd front.length
  rw [nameText_eq, ← List.append_assoc]
  rw [nameEnd] at full
  by_cases named : dashEnd front.length + (sourceFile file).length < kSmallBuffer
  · rw [if_pos named] at full ⊢
    cases name : sourceFile file with
    | nil =>
        rw [name] at full
        rw [List.append_nil, getLast_dash full]
        simp
    | cons first rest =>
        have early : front.length ≠ kSmallBuffer - 1 := by
          rw [name, List.length_cons] at full
          omega
        rw [← name, List.getLast?_append_of_ne_nil _ (by simp [name])]
        simp [full, early]
  · rw [if_neg named] at full ⊢
    have size : kSmallBuffer = 4000 := rfl
    have beyond : dashEnd front.length + (sourceFile file).length ≠ kSmallBuffer - 1 := by omega
    rw [List.append_nil, getLast_dash full]
    simp [beyond]

/-- The colon, the number of the line and the newline. -/
def lineText (line : Int32) (start : ℕ) : List Char :=
  fitting kSmallBuffer start [.string [':'], .int line, newline]

theorem fitting_newline (used : ℕ) :
    fitting kSmallBuffer used [newline] = if used + 1 < kSmallBuffer then ['\n'] else [] := by
  rw [newline, fitting_string (by decide)]
  rfl

/-- A number is shorter than the room that is asked for, so that the newline follows it. -/
theorem lineText_ends (early : start < kSmallBuffer - 2) :
    (lineText line start).getLast? = some '\n' := by
  have short : (Piece.int line).text.length ≤ 11 := convert_length line
  have asked : (Piece.int line).room = 32 := rfl
  have colon : start + [':'].length < kSmallBuffer := by
    rw [List.length_singleton]
    omega
  rw [lineText, fitting_string (by decide), if_pos colon, List.length_singleton, fitting,
    fitting_newline, fitting_newline, List.getLast?_append]
  have room : start + 1 + 1 < kSmallBuffer := by omega
  rw [if_pos room]
  split
  · next number =>
      have after : start + 1 + (Piece.int line).text.length + 1 < kSmallBuffer := by omega
      rw [if_pos after, List.getLast?_append]
      rfl
  · rfl

theorem lineText_colon : lineText line (kSmallBuffer - 2) = [':'] := by
  rw [lineText, fitting_string (by decide), if_pos (by decide), fitting, if_neg, fitting_newline,
    if_neg (by decide), List.append_nil]
  exact of_decide_eq_false rfl

theorem lineText_full : lineText line (kSmallBuffer - 1) = [] := by
  rw [lineText, fitting_string (by decide), if_neg (by decide), fitting, if_neg, fitting_newline,
    if_neg (by decide)]
  exact of_decide_eq_false rfl

end Behind

section Passed

variable (header : List Piece) (cFile : List Char) (line : Int32) (formatted : List Char)

theorem passed_eq_fitting : passed header cFile line formatted =
    fitting kSmallBuffer 0 (header ++ vaArgsBuf formatted :: (place cFile line ++ [newline])) := by
  rw [passed, FixedBuffer.data_putAll]
  rfl

theorem length_passed_lt : (passed header cFile line formatted).length < kSmallBuffer :=
  FixedBuffer.inside _

section Opened

variable {front : List Char}
  (opened : fitting kSmallBuffer 0 (header ++ [vaArgsBuf formatted]) = front)

include opened

theorem passed_eq : passed header cFile line formatted =
    front ++ nameText cFile front.length ++
      lineText line (nameEnd front.length (sourceFile cFile).length) := by
  have pieces : header ++ vaArgsBuf formatted :: (place cFile line ++ [newline]) =
      (header ++ [vaArgsBuf formatted]) ++
        ([.string " - ".toList, .string (sourceFile cFile)] ++
          [.string [':'], .int line, newline]) := by
    simp [place]
  rw [passed_eq_fitting, pieces, fitting_append 0 (header ++ [vaArgsBuf formatted]), opened,
    Nat.zero_add, fitting_append, ← nameText, length_nameText, ← lineText, List.append_assoc]

theorem nameEnd_lt : nameEnd front.length (sourceFile cFile).length < kSmallBuffer := by
  have inside : front.length < kSmallBuffer := by
    have room := length_fitting_lt (show 0 < kSmallBuffer by decide)
      (header ++ [vaArgsBuf formatted])
    rwa [opened, Nat.zero_add] at room
  have room := length_fitting_lt inside [.string " - ".toList, .string (sourceFile cFile)]
  rwa [← nameText, length_nameText] at room

theorem passed_ends_iff :
    (passed header cFile line formatted).getLast? = some '\n' ↔
      nameEnd front.length (sourceFile cFile).length < kSmallBuffer - 2 ∨
        (dashEnd front.length + (sourceFile cFile).length = kSmallBuffer - 1 ∧
          (sourceFile cFile).getLast? = some '\n') ∨
        (front.length = kSmallBuffer - 1 ∧ front.getLast? = some '\n') := by
  have inside := nameEnd_lt header cFile formatted opened
  rw [passed_eq header cFile line formatted opened, List.getLast?_append]
  by_cases early : nameEnd front.length (sourceFile cFile).length < kSmallBuffer - 2
  · rw [lineText_ends line early]
    exact iff_of_true rfl (.inl early)
  · by_cases two : nameEnd front.length (sourceFile cFile).length = kSmallBuffer - 2
    · -- the last byte is the colon, and neither name nor message goes as far as that
      have size : kSmallBuffer = 4000 := rfl
      have dash := le_dashEnd front.length
      have name : dashEnd front.length + (sourceFile cFile).length ≠ kSmallBuffer - 1 ∧
          front.length ≠ kSmallBuffer - 1 := by
        rw [nameEnd] at two
        split at two
        · omega
        · omega
      rw [two, lineText_colon]
      simp [name.1, name.2]
    · have full : nameEnd front.length (sourceFile cFile).length = kSmallBuffer - 1 := by omega
      rw [full, lineText_full, List.getLast?_nil, Option.none_or, getLast_nameText cFile full]
      have late : ¬kSmallBuffer - 1 < kSmallBuffer - 2 := by decide
      simp only [late, false_or]

end Opened

theorem passed_contains_iff (short : formatted.length < loginfoMaxLen) :
    formatted <:+: passed header cFile line formatted ↔
      nul ∉ formatted ∧
        ((fitting kSmallBuffer 0 header).length + formatted.length < kSmallBuffer ∨
          formatted <:+: fitting kSmallBuffer 0 (header ++ (place cFile line ++ [newline]))) := by
  rw [passed_eq_fitting]
  by_cases clean : nul ∉ formatted
  · have whole : vaArgsBuf formatted = .string formatted := by
      rw [vaArgsBuf, snprintf, List.take_of_length_le (by omega)]
    simp only [clean, not_false_eq_true, true_and]
    rw [whole, fitting_append, fitting_string clean, Nat.zero_add]
    by_cases room : (fitting kSmallBuffer 0 header).length + formatted.length < kSmallBuffer
    · rw [if_pos room]
      exact iff_of_true ⟨_, _, List.append_assoc ..⟩ (.inl room)
    · rw [if_neg room, fitting_append 0 header, Nat.zero_add]
      simp only [room, false_or]
  · constructor
    · intro contained
      exact absurd (contained.subset (not_not.mp clean)) (nul_not_mem_fitting _ _)
    · intro holds
      exact absurd holds.1 clean

end Passed

theorem Call.output_eq_some_iff (context : Context) (call : Call) (out : List Char) :
    call.output context = some out ↔
      call.Enabled context ∧
        passed (call.header context) call.cFile call.line call.formatted = out := by
  rcases call with ⟨function, cFile, line, formatted⟩
  cases function with
  | trace func => simp [output, muduoClogTrace, Enabled, header]
  | debug func => simp [output, muduoClogDebug, Enabled, header]
  | info => simp [output, muduoClogInfo, Enabled, header]
  | warn => simp [output, muduoClogWarn, Enabled, header]
  | error => simp [output, muduoClogError, Enabled, header]

/-- A record is complete exactly if it is not written at all, or if header and message fit
and the pieces behind them leave room for the newline. -/
theorem clog_complete_iff (context : Context) (call : Call)
    (short : call.formatted.length < loginfoMaxLen) :
    call.Complete context ↔
      ¬call.Enabled context ∨
        nul ∉ call.formatted ∧ call.MessageFits context ∧ call.NewlineFits context := by
  have contains := passed_contains_iff (call.header context) call.cFile call.line call.formatted
    short
  have opened : fitting kSmallBuffer 0 (call.header context ++ [vaArgsBuf call.formatted]) =
      call.opening context := rfl
  have ends := passed_ends_iff (call.header context) call.cFile call.line call.formatted opened
  simp only [Call.Complete, call.output_eq_some_iff]
  by_cases enabled : call.Enabled context
  · simp only [enabled, true_and, forall_eq', not_true_eq_false, false_or]
    rw [contains, ends, and_assoc]
    rfl
  · simp [enabled]

/-- 25 May 2018, at half past eight. -/
def sampleTm : Log.Tm where
  year := 118
  mon := 4
  mday := 25
  hour := 8
  min := 30
  sec := 0
  yearBounded := Nat.le_of_ble_eq_true rfl
  monBounded := Nat.le_of_ble_eq_true rfl
  mdayBounded := Nat.le_of_ble_eq_true rfl
  hourBounded := Nat.le_of_ble_eq_true rfl
  minBounded := Nat.le_of_ble_eq_true rfl
  secBounded := Nat.le_of_ble_eq_true rfl

def sampleContext : Context where
  logLevel := .info
  zoned := false
  tm := sampleTm
  microseconds := 7
  tid := 4321

/-- A call of `muduo_clog_info` with this message. -/
def infoCall (formatted : List Char) : Call where
  function := .info
  cFile := "src/main.c".toList
  line := 42
  formatted := formatted

theorem clog_complete_hello : (infoCall "hello".toList).Complete sampleContext := by
  apply (clog_complete_iff sampleContext (infoCall "hello".toList) (by decide)).mpr
  refine .inr ⟨by decide, .inl ?_, .inl ?_⟩
  · decide +kernel
  · decide +kernel

/-- A message of 4000 characters is dropped, and one that ends at byte 3999 of its record
takes the place of the newline. -/
theorem clog_not_complete :
    ¬(infoCall (List.replicate 4000 'x')).Complete sampleContext ∧
      ¬(infoCall (List.replicate 3961 'x')).Complete sampleContext := by
  constructor
  · intro complete
    have contained : (List.replicate 4000 'x').length ≤ (passed (impl sampleContext .info)
        "src/main.c".toList 42 (List.replicate 4000 'x')).length :=
      (complete _ rfl).1.length_le
    have inside := length_passed_lt (impl sampleContext .info) "src/main.c".toList 42
      (List.replicate 4000 'x')
    rw [List.length_replicate] at contained
    rw [kSmallBuffer] at inside
    omega
  · intro complete
    have last : (passed (impl sampleContext .info) "src/main.c".toList 42
        (List.replicate 3961 'x')).getLast? ≠ some '\n' := by
      decide +kernel
    exact last (complete _ rfl).2

end Lctools.Muduo
