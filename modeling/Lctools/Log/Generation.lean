import Lctools.Log.Repeated

/-! # The files of a log

A change of the file should go over to a file that the log was not written to
before. The name of a file has the time in it, in whole seconds of the local time, so
this depends on the clock: a second can come again, when many messages are written
within it or when the local time is set back.
-/

namespace Lctools.Log

open CString

/-! ## Generations of files -/

/-- A record of a log got into the file with this path. -/
def Event.fills (log path : List Char) : Event → Prop
  | .wrote name target _ written => name = log ∧ target = path ∧ 0 ≤ written
  | _ => False

/-- A log goes over to the file with this path, or a record of it got there. -/
def Event.enters (log path : List Char) : Event → Prop
  | .opened name target fd => name = log ∧ target = path ∧ 0 < fd
  | .wrote name target _ written => name = log ∧ target = path ∧ 0 ≤ written
  | _ => False

/-- Every file that a log goes over to, and every file that it is written to
afterwards, got no record of the log before this change. -/
def Separate (log : List Char) (events : List Event) : Prop :=
  ∀ newer older, events = newer ++ .fstat log true :: older →
    ∀ path, (∃ event ∈ newer, event.enters log path) →
      ∀ event ∈ older, ¬event.fills log path

/-- No record got into the file before the last change of the file. -/
def Unfilled (log path : List Char) (events : List Event) : Prop :=
  ∀ newer older, events = newer ++ .fstat log true :: older →
    ∀ event ∈ older, ¬event.fills log path

def Filled (log path : List Char) (events : List Event) : Prop :=
  ∃ event ∈ events, event.fills log path

/-! ## Files that are used again -/

/-- `get_log_file_node` opens a file. -/
def NeedsFile : Option LogFileNode → Prop
  | none => True
  | some node => node.fd < 0

/-- A file is opened for the node of a log, and the second in its name is the one of a file
with records from before the last change; or the file is changed in the second of a file
with records. -/
def SecondAgain (globalLogPath log : List Char) (info : SingleLogConfInfo)
    (answers : WriteAnswers) (found : Option LogFileNode) (world : World) : Prop :=
  NeedsFile found ∧ ¬Unfilled log (pathAt globalLogPath world.host log
      (getLocaltime answers.opening.reading world.clock).1) world.events ∨
    ChangesFile info answers found ∧ Filled log (pathAt globalLogPath world.host log
      (getLocaltime answers.rotation.reading world.clock).1) world.events

/-- The clock after the date of a message was read, if it was. -/
def messageClock (info : SingleLogConfInfo) (reading : Reading) (clock : Clock) : Clock :=
  if info.irilogSwitch.fDate || info.irilogSwitch.pDate then (getLocaltime reading clock).2
  else clock

/-- The call writes a record to the log in a second of an older file. -/
def WritesAgain (log : List Char) (state : LogState) (write : Write) : Prop :=
  ∃ infos store id info, Usable state infos store ∧
    Chosen infos (.live infos.names) write.request.logFile id info log ∧
    info.irilogSwitch.logFile = true ∧ RecordDue info log store state write ∧
    SecondAgain state.globalLogPath log info write.answers (store.find log)
      { state.world with clock := messageClock info write.answers.reading state.world.clock }

/-! ## Adding events -/

/-- The event neither changes the file of a log nor goes over to one. -/
def Event.Aside (log : List Char) (event : Event) : Prop :=
  event ≠ .fstat log true ∧ ∀ path, ¬event.enters log path

/-- Only events that do not concern the files of the log were added. -/
def Extends (log : List Char) (before after : List Event) : Prop :=
  ∃ newer, after = newer ++ before ∧ ∀ event ∈ newer, event.Aside log

/-- The log went over to the file after its last change. -/
def WentTo (log path : List Char) (events : List Event) : Prop :=
  ∀ newer older, events = newer ++ .fstat log true :: older →
    ∃ event ∈ newer, event.enters log path

section Events

variable {log path : List Char} {events before after last : List Event} {event : Event}

theorem Event.enters_of_fills (fills : event.fills log path) : event.enters log path := by
  cases event with
  | wrote name target record written => exact fills
  | opened name target fd => cases fills
  | closed fd => cases fills
  | locked fd => cases fills
  | unlocked fd => cases fills
  | fstat name succeeded => cases fills
  | printed record => cases fills

theorem cons_eq_append_change {newer older : List Event} (other : event ≠ .fstat log true)
    (split : event :: events = newer ++ .fstat log true :: older) :
    ∃ rest, newer = event :: rest ∧ events = rest ++ .fstat log true :: older := by
  cases newer with
  | nil =>
      rw [List.nil_append, List.cons.injEq] at split
      exact absurd split.1 other
  | cons first newer =>
      rw [List.cons_append, List.cons.injEq] at split
      exact ⟨newer, by rw [split.1], split.2⟩

theorem unfilled_cons (other : event ≠ .fstat log true) :
    Unfilled log path (event :: events) ↔ Unfilled log path events := by
  constructor
  · intro unfilled newer older split
    exact unfilled (event :: newer) older (by rw [split, List.cons_append])
  · intro unfilled newer older split
    rcases cons_eq_append_change other split with ⟨rest, _, later⟩
    exact unfilled rest older later

theorem separate_cons :
    Separate log (event :: events) ↔
      Separate log events ∧ ∀ path, event.enters log path → Unfilled log path events := by
  constructor
  · intro separate
    constructor
    · intro newer older split path reached
      rcases reached with ⟨other, member, enters⟩
      exact separate (event :: newer) older (by rw [split, List.cons_append]) path
        ⟨other, List.mem_cons_of_mem _ member, enters⟩
    · intro path enters newer older split
      exact separate (event :: newer) older (by rw [split, List.cons_append]) path
        ⟨event, List.mem_cons_self .., enters⟩
  · rintro ⟨separate, unfilled⟩ newer older split path ⟨other, member, enters⟩
    cases newer with
    | nil => cases member
    | cons first newer =>
        rw [List.cons_append, List.cons.injEq] at split
        rw [← split.1] at member
        cases List.mem_cons.mp member with
        | inl same =>
            rw [same] at enters
            exact unfilled path enters newer older split.2
        | inr later => exact separate newer older split.2 path ⟨other, later, enters⟩

theorem separate_cons_aside (aside : event.Aside log) :
    Separate log (event :: events) ↔ Separate log events := by
  rw [separate_cons]
  exact and_iff_left fun path enters => absurd enters (aside.2 path)

theorem unfilled_of_unchanged (unchanged : ∀ event ∈ events, event ≠ .fstat log true) :
    Unfilled log path events := by
  intro newer older split
  have member : Event.fstat log true ∈ events := by
    rw [split]
    simp
  exact absurd rfl (unchanged _ member)

theorem WentTo.cons (entered : WentTo log path events) (other : event ≠ .fstat log true) :
    WentTo log path (event :: events) := by
  intro newer older split
  rcases cons_eq_append_change other split with ⟨rest, rfl, later⟩
  rcases entered rest older later with ⟨reached, member, enters⟩
  exact ⟨reached, List.mem_cons_of_mem _ member, enters⟩

theorem WentTo.unfilled (entered : WentTo log path events) (separate : Separate log events) :
    Unfilled log path events := by
  intro newer older split
  exact separate newer older split path (entered newer older split)

theorem Extends.refl : Extends log events events := ⟨[], rfl, nofun⟩

theorem Extends.cons (aside : event.Aside log) (added : Extends log before after) :
    Extends log before (event :: after) := by
  rcases added with ⟨newer, rfl, all⟩
  refine ⟨event :: newer, rfl, ?_⟩
  rw [List.forall_mem_cons]
  exact ⟨aside, all⟩

theorem Extends.trans (first : Extends log before after) (second : Extends log after last) :
    Extends log before last := by
  rcases first with ⟨newer, rfl, all⟩
  rcases second with ⟨newest, rfl, allNewest⟩
  refine ⟨newest ++ newer, (List.append_assoc ..).symm, ?_⟩
  rw [List.forall_mem_append]
  exact ⟨allNewest, all⟩

theorem Extends.keeps (added : Extends log before after) :
    (Separate log after ↔ Separate log before) ∧
      (∀ path, Unfilled log path after ↔ Unfilled log path before) ∧
      (∀ path, Filled log path after ↔ Filled log path before) ∧
      (∀ path, WentTo log path before → WentTo log path after) := by
  rcases added with ⟨newer, rfl, all⟩
  induction newer with
  | nil => exact ⟨Iff.rfl, fun _ => Iff.rfl, fun _ => Iff.rfl, fun _ => id⟩
  | cons event newer induction =>
      rw [List.forall_mem_cons] at all
      rcases induction all.2 with ⟨separate, unfilled, filled, entered⟩
      rw [List.cons_append]
      refine ⟨(separate_cons_aside all.1).trans separate, ?_, ?_, ?_⟩
      · intro path
        exact (unfilled_cons all.1.1).trans (unfilled path)
      · intro path
        rw [← filled path, Filled, List.exists_mem_cons_iff]
        exact or_iff_right fun fills => all.1.2 path (Event.enters_of_fills fills)
      · intro path earlier
        exact (entered path earlier).cons all.1.1

end Events

/-! ## The node of a log -/

/-- The node of a log and the file that it has open. -/
structure InFile (log : List Char) (node : LogFileNode) (events : List Event) : Prop where
  name : node.name = log
  unused : node.fd ≤ 0 → node.times = 0
  entered : 0 < node.fd → WentTo log node.path events

/-- A log without a node was never changed. -/
def FileOf (log : List Char) : Option LogFileNode → List Event → Prop
  | none, events => ∀ event ∈ events, event ≠ .fstat log true
  | some node, events => InFile log node events

/-- What is known of the events after a part of a call. With `again` the log went over to
an older file. -/
structure FileEffect (log : List Char) (again : Prop) (before : List Event)
    (node : LogFileNode) (after : List Event) : Prop where
  inFile : InFile log node after
  others : ∀ other, other ≠ log → Extends other before after
  separate : Separate log after ↔ Separate log before ∧ ¬again

section Parts

variable {globalLogPath log : List Char} {info : SingleLogConfInfo} {id : ℕ}
  {answers : WriteAnswers} {node next : LogFileNode} {world : World}
  {before after last : List Event} {again later : Prop}

theorem InFile.extends (inFile : InFile log node before) (added : Extends log before after) :
    InFile log node after where
  name := inFile.name
  unused := inFile.unused
  entered := fun opened => added.keeps.2.2.2 node.path (inFile.entered opened)

theorem FileOf.extends {found : Option LogFileNode} (file : FileOf log found before)
    (added : Extends log before after) : FileOf log found after := by
  cases found with
  | none =>
      rcases added with ⟨newer, rfl, all⟩
      intro event member
      cases List.mem_append.mp member with
      | inl new => exact (all event new).1
      | inr old => exact file event old
  | some node => exact InFile.extends file added

theorem FileEffect.trans (first : FileEffect log again before node after)
    (second : FileEffect log later after next last) :
    FileEffect log (again ∨ later) before next last := by
  refine ⟨second.inFile, ?_, ?_⟩
  · intro other different
    exact (first.others other different).trans (second.others other different)
  · rw [second.separate, first.separate, and_assoc, not_or]

theorem FileEffect.aside (effect : FileEffect log again before node after)
    (added : ∀ log, Extends log after last) : FileEffect log again before node last := by
  refine ⟨effect.inFile.extends (added log), ?_, ?_⟩
  · intro other different
    exact (effect.others other different).trans (added other)
  · rw [(added log).keeps.1, effect.separate]

end Parts

/-! ## Whole calls -/

structure FilesKept (infos : LogConfInfos) (state : LogState) (store : NodeStore) : Prop where
  usable : Usable state infos store
  files : ∀ log, FileOf log (store.find log) state.world.events

section Calls

variable {infos : LogConfInfos} {state next : LogState} {store last : NodeStore} {write : Write}
  {ret : ℤ} {log : List Char}

theorem FilesKept.extends {world : World} (kept : FilesKept infos state store)
    (added : ∀ log, Extends log state.world.events world.events) :
    FilesKept infos { state with world := world } store :=
  ⟨kept.usable.withWorld _, fun log => (kept.files log).extends (added log)⟩

theorem FilesKept.writeNode {again : Prop} {node : LogFileNode} {world : World}
    (kept : FilesKept infos state store)
    (effect : FileEffect log again state.world.events node world.events)
    (updates : store.Updates log node last) :
    FilesKept infos { state with logFileNodes := .live last, world := world } last := by
  refine ⟨kept.usable.withNodes updates.wellFormed world, ?_⟩
  intro other
  by_cases same : other = log
  · rw [same, updates.found]
    exact effect.inFile
  · rw [updates.others other same]
    exact (kept.files other).extends (effect.others other same)

end Calls

/-! ## Runs -/

section Sample

variable {infos : LogConfInfos}
  (chosen : Chosen infos (.live infos.names) (some "a".toList) 3 lockedInfo "a".toList)

include chosen

theorem MessagesIn.stays {count : ℕ} (few : count ≤ writeTimes) {state : LogState}
    (counted : MessagesIn infos count state) : ¬WritesAgain "a".toList state lockedWrite := by
  rcases counted.node with ⟨store, usable, found⟩
  rintro ⟨infos', store', id, info, usable', chosen', _, _, again⟩
  rcases usable.unique usable' with ⟨rfl, rfl⟩
  rcases chosen.unique chosen' with ⟨rfl, rfl, _⟩
  rw [found] at again
  cases count with
  | zero =>
      rcases again with ⟨_, older⟩ | ⟨changes, _⟩
      · apply older
        apply unfilled_of_unchanged
        rw [counted.world]
        exact nofun
      · exact changes
  | succ count =>
      rcases again with ⟨closed, _⟩ | ⟨changes, _⟩
      · exact absurd (show (3 : ℤ) < 0 from closed) (by decide)
      · exact absurd changes.1 (Nat.not_lt.mpr few)

end Sample

end Lctools.Log
