import Lctools.Foundation.CString
import Lctools.Foundation.Numerals

/-! # `utils/single_instance` and `utils/daemon`

A process that is to run once locks a file for as long as it lives. The locks of `fcntl` belong to
a process: they end with it, and a child does not get them.
-/

namespace Lctools.Process

open CString Numerals

/-! ## The system -/

/-- The processes that are alive, each with the files for which `already_running` has returned in
its program; the process that has locked a file; and the texts of the files. -/
structure World where
  programs : ℕ → Option (List (List Char))
  owner : List Char → Option ℕ
  content : List Char → List Char

def World.start : World :=
  ⟨fun _ => none, fun _ => none, fun _ => []⟩

namespace World

variable (world : World)

/-- Closing a file, or the end of the process, ends its locks. -/
def release (pid : ℕ) : World :=
  { world with owner := fun file => if world.owner file = some pid then none else world.owner file }

def exit (pid : ℕ) : World :=
  { world.release pid with
    programs := fun other => if other = pid then none else world.programs other }

/-- A child goes on in the same program, without the locks. -/
def fork (pid child : ℕ) : World :=
  { world with
    programs := fun other => if other = child then world.programs pid else world.programs other }

/-- `lock_reg(fd, F_SETLK, F_WRLCK, 0, SEEK_SET, 0)`, if no other process has the lock. -/
def lockReg (pid : ℕ) (file : List Char) : Option World :=
  match world.owner file with
  | some other => if other = pid then some world else none
  | none => some { world with
      owner := fun path => if path = file then some pid else world.owner path }

end World

/-! ## The program -/

def lockFile : List Char := "/var/run/default_proc.pid".toList

/-- The file for a name, `"/var/run/%s.pid"` in a buffer of 64 bytes. -/
def lockFileName (name : List Char) : List Char :=
  snprintf 64 ("/var/run/".toList ++ name ++ ".pid".toList)

/-- The text of the file, `"%ld\n"` in a buffer of 32 bytes. -/
def pidText (pid : ℕ) : List Char :=
  snprintf 32 (decimal pid ++ ['\n'])

/-- Names of up to 50 characters have different files. The file of a longer name is cut. -/
theorem lockFileName_inj {first second : List Char} (shortFirst : first.length ≤ 50)
    (shortSecond : second.length ≤ 50) (same : lockFileName first = lockFileName second) :
    first = second := by
  have whole : ∀ name : List Char, name.length ≤ 50 →
      lockFileName name = "/var/run/".toList ++ name ++ ".pid".toList := by
    intro name short
    apply List.take_of_length_le
    simp
    omega
  rw [whole first shortFirst, whole second shortSecond] at same
  exact List.append_cancel_left (List.append_cancel_right same)

/-- What `already_running` and `already_running_with_name` do with their file; `opens` says whether
it could be opened. Without the lock the process ends. -/
def runOnce (pid : ℕ) (file : List Char) (opens : Bool) (world : World) : World :=
  match world.programs pid with
  | none => world
  | some files =>
      if !opens then world.exit pid
      else
        match world.lockReg pid file with
        | none => world.exit pid
        | some world =>
            { world with
              programs := fun other => if other = pid then some (file :: files)
                else world.programs other
              content := fun path => if path = file then pidText pid else world.content path }

def alreadyRunning (pid : ℕ) (opens : Bool) (world : World) : World :=
  runOnce pid lockFile opens world

def alreadyRunningWithName (pid : ℕ) (name : List Char) (opens : Bool) (world : World) : World :=
  runOnce pid (lockFileName name) opens world

/-- What `daemonize` meets: the children of the two calls of `fork`, if they succeed, and whether
`/dev/null` gets the descriptors 0, 1 and 2. -/
structure Forks where
  first : Option ℕ
  second : Option ℕ
  attached : Bool
  deriving DecidableEq, Repr

/-- One of the two calls of `fork`, after which the parent ends. There is nothing for a call that
fails; the number of a process that is alive is not given again. -/
def forkAndExit (pid : ℕ) (child : Option ℕ) (world : World) : Option (ℕ × World) :=
  match child with
  | some child =>
      if (world.programs child).isSome then none
      else some (child, (world.fork pid child).exit pid)
  | none => none

/-- `daemonize`, which closes all files in the last child. -/
def daemonize (pid : ℕ) (forks : Forks) (world : World) : World :=
  if (world.programs pid).isSome then
    match forkAndExit pid forks.first world with
    | none => world
    | some (child, world) =>
        match forkAndExit child forks.second world with
        | none => world
        | some (grandchild, world) =>
            let world := world.release grandchild
            if forks.attached then world else world.exit grandchild
  else world

inductive Event where
  | start (pid : ℕ)
  | alreadyRunning (pid : ℕ) (opens : Bool)
  | alreadyRunningWithName (pid : ℕ) (name : List Char) (opens : Bool)
  | daemonize (pid : ℕ) (forks : Forks)
  | exit (pid : ℕ)

def step (world : World) : Event → World
  | .start pid =>
      if (world.programs pid).isSome then world
      else { world with
        programs := fun other => if other = pid then some [] else world.programs other }
  | .alreadyRunning pid opens => alreadyRunning pid opens world
  | .alreadyRunningWithName pid name opens => alreadyRunningWithName pid name opens world
  | .daemonize pid forks => daemonize pid forks world
  | .exit pid => world.exit pid

def runAll (world : World) (events : List Event) : World :=
  events.foldl step world

/-! ## One instance -/

/-- A process that is alive has come past `already_running` for the file. -/
def Instance (world : World) (file : List Char) (pid : ℕ) : Prop :=
  ∃ files, world.programs pid = some files ∧ file ∈ files

/-- The instances are the processes that have the lock, and are named in its file. -/
structure Locked (world : World) : Prop where
  owner_iff : ∀ file pid, world.owner file = some pid ↔ Instance world file pid
  content : ∀ file pid, world.owner file = some pid → world.content file = pidText pid

/-- A process does not become a daemon after it has locked a file. -/
def Event.Careful (world : World) : Event → Prop
  | .daemonize pid _ => ∀ files, world.programs pid = some files → files = []
  | _ => True

/-- Every event of the list is careful when it happens. -/
def Careful : World → List Event → Prop
  | _, [] => True
  | world, event :: events => event.Careful world ∧ Careful (step world event) events

theorem Locked.start : Locked .start where
  owner_iff := by
    intro file pid
    constructor
    · nofun
    · rintro ⟨files, none, _⟩
      cases none
  content := nofun

section Locked

variable {world : World} {pid : ℕ}

theorem instance_exit {file : List Char} {other : ℕ} :
    Instance (world.exit pid) file other ↔ other ≠ pid ∧ Instance world file other := by
  unfold Instance World.exit
  by_cases same : other = pid
  · simp [same]
  · simp [same]

theorem owner_exit {file : List Char} {other : ℕ} :
    (world.exit pid).owner file = some other ↔ other ≠ pid ∧ world.owner file = some other := by
  change (if world.owner file = some pid then none else world.owner file) = some other ↔ _
  split_ifs with owned
  · rw [owned]
    simp [eq_comm]
  · constructor
    · intro owns
      refine ⟨?_, owns⟩
      intro same
      exact owned (by rw [owns, same])
    · exact And.right

theorem Locked.exit (locked : Locked world) (pid : ℕ) : Locked (world.exit pid) where
  owner_iff := by
    intro file other
    rw [owner_exit, instance_exit, locked.owner_iff]
  content := by
    intro file other owns
    exact locked.content file other (owner_exit.mp owns).2

theorem Locked.release (locked : Locked world) (empty : world.programs pid = some []) :
    Locked (world.release pid) := by
  have same : world.release pid = world := by
    have owner : (fun file => if world.owner file = some pid then none else world.owner file) =
        world.owner := by
      funext file
      rw [if_neg]
      intro owns
      rcases (locked.owner_iff file pid).mp owns with ⟨files, alive, member⟩
      rw [empty] at alive
      cases alive
      cases member
    rw [World.release, owner]
  rwa [same]

theorem Locked.fork (locked : Locked world) {child : ℕ} (fresh : world.programs child = none)
    (empty : world.programs pid = some []) : Locked (world.fork pid child) where
  owner_iff := by
    intro file other
    change world.owner file = some other ↔ _
    rw [locked.owner_iff]
    unfold Instance World.fork
    by_cases same : other = child
    · simp [same, fresh, empty]
    · simp [same]
  content := locked.content

theorem Locked.forkAndExit (locked : Locked world) (empty : world.programs pid = some [])
    {forked : Option ℕ} {child : ℕ} {next : World}
    (forks : Process.forkAndExit pid forked world = some (child, next)) :
    Locked next ∧ next.programs child = some [] := by
  cases forked with
  | none => cases forks
  | some number =>
      rw [Process.forkAndExit] at forks
      split_ifs at forks with alive
      cases forks
      have fresh : world.programs child = none := Option.not_isSome_iff_eq_none.mp alive
      have other : child ≠ pid := by
        intro same
        rw [same, empty] at fresh
        cases fresh
      refine ⟨(locked.fork fresh empty).exit pid, ?_⟩
      simp [World.exit, World.fork, other, empty]

theorem Locked.daemonize (locked : Locked world) (forks : Forks)
    (careful : ∀ files, world.programs pid = some files → files = []) :
    Locked (daemonize pid forks world) := by
  rw [Process.daemonize]
  by_cases alive : (world.programs pid).isSome
  · rw [if_pos alive]
    rcases Option.isSome_iff_exists.mp alive with ⟨files, program⟩
    rw [careful files program] at program
    split
    · exact locked
    · next child first forked =>
        rcases locked.forkAndExit program forked with ⟨stillLocked, childProgram⟩
        split
        · exact stillLocked
        · next grandchild second forkedAgain =>
            rcases stillLocked.forkAndExit childProgram forkedAgain with ⟨lastLocked, lastProgram⟩
            have released := lastLocked.release lastProgram
            change Locked (if forks.attached then second.release grandchild
              else (second.release grandchild).exit grandchild)
            split
            · exact released
            · exact released.exit grandchild
  · rw [if_neg alive]
    exact locked

/-- The world after `already_running` has got the lock. -/
def World.locks (world : World) (pid : ℕ) (file : List Char) (files : List (List Char)) :
    World where
  programs := fun other => if other = pid then some (file :: files) else world.programs other
  owner := fun path => if path = file then some pid else world.owner path
  content := fun path => if path = file then pidText pid else world.content path

def World.Free (world : World) (pid : ℕ) (file : List Char) : Prop :=
  ∀ other, world.owner file = some other → other = pid

theorem lockReg_of_free {file : List Char} (free : world.Free pid file) :
    world.lockReg pid file = some { world with
      owner := fun path => if path = file then some pid else world.owner path } := by
  unfold World.lockReg
  cases owned : world.owner file with
  | none => rfl
  | some other =>
      have own := free other owned
      rw [own] at owned
      have unchanged : (fun path => if path = file then some pid else world.owner path) =
          world.owner := by
        funext path
        split_ifs with same
        · rw [same, owned]
        · rfl
      simp only [own, if_true, unchanged]

theorem lockReg_of_not_free {file : List Char} (busy : ¬world.Free pid file) :
    world.lockReg pid file = none := by
  unfold World.lockReg
  cases owned : world.owner file with
  | none => exact absurd (by simp [World.Free, owned]) busy
  | some other =>
      refine if_neg ?_
      intro own
      exact busy (by simp [World.Free, owned, own])

theorem runOnce_cases {files : List (List Char)} (alive : world.programs pid = some files)
    (file : List Char) (opens : Bool) :
    (opens = true ∧ world.Free pid file) ∧
        runOnce pid file opens world = world.locks pid file files ∨
      ¬(opens = true ∧ world.Free pid file) ∧ runOnce pid file opens world = world.exit pid := by
  cases opens with
  | false =>
      refine .inr ⟨by simp, ?_⟩
      rw [runOnce, alive]
      rfl
  | true =>
      by_cases free : world.Free pid file
      · refine .inl ⟨⟨rfl, free⟩, ?_⟩
        rw [runOnce, alive, lockReg_of_free free]
        rfl
      · refine .inr ⟨fun both => free both.2, ?_⟩
        rw [runOnce, alive, lockReg_of_not_free free]
        rfl

theorem instance_locks {files : List (List Char)} (alive : world.programs pid = some files)
    (file path : List Char) (other : ℕ) :
    Instance (world.locks pid file files) path other ↔
      other = pid ∧ path = file ∨ Instance world path other := by
  unfold Instance World.locks
  by_cases same : other = pid
  · simp [same, alive]
  · simp [same]

theorem Locked.locks (locked : Locked world) {files : List (List Char)} {file : List Char}
    (alive : world.programs pid = some files)
    (free : world.Free pid file) : Locked (world.locks pid file files) where
  owner_iff := by
    intro path other
    rw [instance_locks alive, ← locked.owner_iff]
    change (if path = file then some pid else world.owner path) = some other ↔ _
    split_ifs with same
    · constructor
      · intro own
        cases own
        exact .inl ⟨rfl, same⟩
      · rintro (⟨own, _⟩ | owns)
        · rw [own]
        · rw [same] at owns
          rw [free other owns]
    · constructor
      · exact .inr
      · rintro (⟨_, path⟩ | owns)
        · exact absurd path same
        · exact owns
  content := by
    intro path other owns
    change (if path = file then some pid else world.owner path) = some other at owns
    change (if path = file then pidText pid else world.content path) = _
    split_ifs at owns ⊢ with same
    · cases owns
      rfl
    · exact locked.content path other owns

theorem Locked.runOnce (locked : Locked world) (pid : ℕ) (file : List Char) (opens : Bool) :
    Locked (runOnce pid file opens world) := by
  cases alive : world.programs pid with
  | none =>
      rw [Process.runOnce, alive]
      exact locked
  | some files =>
      rcases runOnce_cases alive file opens with ⟨⟨_, free⟩, locks⟩ | ⟨_, ended⟩
      · rw [locks]
        exact locked.locks alive free
      · rw [ended]
        exact locked.exit pid

theorem Locked.begin (locked : Locked world) (fresh : world.programs pid = none) :
    Locked { world with
      programs := fun other => if other = pid then some [] else world.programs other } where
  owner_iff := by
    intro file other
    change world.owner file = some other ↔ _
    rw [locked.owner_iff]
    unfold Instance
    by_cases same : other = pid
    · simp [same, fresh]
    · simp [same]
  content := locked.content

theorem Locked.step (locked : Locked world) (event : Event) (careful : event.Careful world) :
    Locked (step world event) := by
  cases event with
  | start pid =>
      rw [Process.step]
      split_ifs with alive
      · exact locked
      · exact locked.begin (Option.not_isSome_iff_eq_none.mp alive)
  | alreadyRunning pid opens => exact locked.runOnce pid lockFile opens
  | alreadyRunningWithName pid name opens => exact locked.runOnce pid (lockFileName name) opens
  | daemonize pid forks => exact locked.daemonize forks careful
  | exit pid => exact locked.exit pid

theorem Locked.runAll (events : List Event) (locked : Locked world)
    (careful : Careful world events) : Locked (runAll world events) := by
  induction events generalizing world with
  | nil => exact locked
  | cons event events inductionHypothesis =>
      exact inductionHypothesis (locked.step event careful.1) careful.2

theorem Locked.unique (locked : Locked world) {file : List Char} {first second : ℕ}
    (isFirst : Instance world file first) (isSecond : Instance world file second) :
    first = second := by
  have owned := (locked.owner_iff file first).mpr isFirst
  rw [(locked.owner_iff file second).mpr isSecond] at owned
  exact (Option.some.inj owned).symm

theorem Locked.free_iff (locked : Locked world) (pid : ℕ) (file : List Char) :
    world.Free pid file ↔ ∀ other, Instance world file other → other = pid := by
  unfold World.Free
  simp only [locked.owner_iff]

theorem Locked.runOnce_iff (locked : Locked world) {files : List (List Char)}
    (alive : world.programs pid = some files) (file : List Char) (opens : Bool) :
    (Instance (Process.runOnce pid file opens world) file pid ↔
        opens = true ∧ ∀ other, Instance world file other → other = pid) ∧
      ((Process.runOnce pid file opens world).programs pid = none ↔
        ¬(opens = true ∧ ∀ other, Instance world file other → other = pid)) ∧
      ∀ other ≠ pid,
        (Process.runOnce pid file opens world).programs other = world.programs other := by
  rw [← locked.free_iff]
  rcases runOnce_cases alive file opens with ⟨free, locks⟩ | ⟨busy, ended⟩
  · rw [locks, instance_locks alive]
    refine ⟨by simp [free], ?_, ?_⟩
    · simp [World.locks, free]
    · intro other different
      exact if_neg different
  · rw [ended, instance_exit]
    refine ⟨by simp [busy], ?_, ?_⟩
    · simp [World.exit, busy]
    · intro other different
      exact if_neg different

end Locked

/-- Whatever the processes do, as long as none becomes a daemon after it has locked its file: a file
has one instance at most, and names it. A process that calls `already_running` goes on, as the
instance, if its file can be opened and there is no other instance, and ends if not. -/
theorem one_instance (events : List Event) (careful : Careful .start events) (file : List Char) :
    let world := runAll .start events
    (∀ first second, Instance world file first → Instance world file second → first = second) ∧
      (∀ pid, Instance world file pid → world.content file = pidText pid) ∧
      ∀ pid opens, (world.programs pid).isSome →
        let after := runOnce pid file opens world
        (Instance after file pid ↔
            opens = true ∧ ∀ other, Instance world file other → other = pid) ∧
          (after.programs pid = none ↔
            ¬(opens = true ∧ ∀ other, Instance world file other → other = pid)) ∧
          ∀ other ≠ pid, after.programs other = world.programs other := by
  intro world
  have locked : Locked world := Locked.start.runAll events careful
  refine ⟨fun first second => locked.unique, ?_, ?_⟩
  · intro pid running
    exact locked.content file pid ((locked.owner_iff file pid).mpr running)
  · intro pid opens isAlive
    rcases Option.isSome_iff_exists.mp isAlive with ⟨files, alive⟩
    exact locked.runOnce_iff alive file opens

/-- Of three processes one becomes a daemon before its call of `already_running`; the others end. -/
theorem one_instance_sample :
    let events : List Event := [.start 7, .start 8, .daemonize 8 ⟨some 9, some 10, true⟩,
      .alreadyRunningWithName 10 ['s'] true, .alreadyRunningWithName 7 ['s'] true, .start 11]
    Careful .start events ∧
      Instance (runAll .start events) (lockFileName ['s']) 10 ∧
      (runAll .start events).content (lockFileName ['s']) = ['1', '0', '\n'] ∧
      (runOnce 11 (lockFileName ['s']) true (runAll .start events)).programs 11 = none := by
  intro events
  have careful : Careful .start events := by
    refine ⟨trivial, trivial, ?_, trivial, trivial, trivial, trivial⟩
    intro files program
    cases program
    rfl
  rcases one_instance events careful (lockFileName ['s']) with ⟨_, named, calls⟩
  have running : Instance (runAll .start events) (lockFileName ['s']) 10 := by
    refine ⟨[lockFileName ['s']], by decide +kernel, by simp⟩
  refine ⟨careful, running, ?_, ?_⟩
  · rw [named 10 running]
    decide
  · refine ((calls 11 true (by decide +kernel)).2.1).mpr ?_
    rintro ⟨_, onlyThis⟩
    exact absurd (onlyThis 10 running) (by decide)

theorem forkAndExit_fresh {world : World} {child : ℕ} (pid : ℕ)
    (fresh : world.programs child = none) :
    forkAndExit pid (some child) world = some (child, (world.fork pid child).exit pid) := by
  rw [forkAndExit, if_neg]
  rw [fresh]
  nofun

/-- The daemon that `daemonize` leaves runs the program of the process, which has ended with its
locks. The other processes go on. -/
theorem daemonize_spec {world : World} {pid child grandchild : ℕ} {files : List (List Char)}
    (alive : world.programs pid = some files) (freshChild : world.programs child = none)
    (freshGrandchild : world.programs grandchild = none) (different : child ≠ grandchild) :
    let daemon := daemonize pid ⟨some child, some grandchild, true⟩ world
    daemon.programs grandchild = some files ∧
      (∀ file, world.owner file = some pid → daemon.owner file = none) ∧
      ∀ other, other ≠ pid → (world.programs other).isSome →
        daemon.programs other = world.programs other := by
  have childNew : child ≠ pid := by
    intro same
    rw [same, alive] at freshChild
    cases freshChild
  have grandchildNew : grandchild ≠ pid := by
    intro same
    rw [same, alive] at freshGrandchild
    cases freshGrandchild
  have freshAfter : ((world.fork pid child).exit pid).programs grandchild = none := by
    simp [World.exit, World.fork, different.symm, freshGrandchild]
  have daemonized : daemonize pid ⟨some child, some grandchild, true⟩ world =
      ((((world.fork pid child).exit pid).fork child grandchild).exit child).release
        grandchild := by
    rw [daemonize, alive]
    simp only [Option.isSome_some, if_true, forkAndExit_fresh pid freshChild,
      forkAndExit_fresh child freshAfter]
  rw [daemonized]
  refine ⟨?_, ?_, ?_⟩
  · simp [World.release, World.exit, World.fork, different.symm, childNew, alive]
  · intro file owned
    simp [World.release, World.exit, World.fork, owned]
  · intro other notParent isAlive
    have notChild : other ≠ child := by
      intro same
      rw [same, freshChild] at isAlive
      cases isAlive
    have notGrandchild : other ≠ grandchild := by
      intro same
      rw [same, freshGrandchild] at isAlive
      cases isAlive
    simp [World.release, World.exit, World.fork, notParent, notChild, notGrandchild]

/-- The lock does not outlive `daemonize`: when an instance becomes a daemon, the daemon is an
instance without the lock, and the next process that calls `already_running` is another. -/
theorem daemonize_loses_lock (events : List Event) (careful : Careful .start events)
    (file : List Char) (pid child grandchild next : ℕ)
    (running : Instance (runAll .start events) file pid)
    (freshChild : (runAll .start events).programs child = none)
    (freshGrandchild : (runAll .start events).programs grandchild = none)
    (different : child ≠ grandchild)
    (alive : ((runAll .start events).programs next).isSome) (other : next ≠ pid) :
    let daemon := daemonize pid ⟨some child, some grandchild, true⟩ (runAll .start events)
    let after := runOnce next file true daemon
    grandchild ≠ next ∧ daemon.owner file = none ∧ Instance daemon file grandchild ∧
      Instance after file grandchild ∧ Instance after file next ∧
      after.content file = pidText next := by
  intro daemon after
  have locked : Locked (runAll .start events) := Locked.start.runAll events careful
  have owned := (locked.owner_iff file pid).mpr running
  rcases running with ⟨files, program, member⟩
  rcases daemonize_spec program freshChild freshGrandchild different with
    ⟨inherits, unlocked, others⟩
  have noOwner : daemon.owner file = none := unlocked file owned
  have daemonRuns : Instance daemon file grandchild := ⟨files, inherits, member⟩
  have apart : grandchild ≠ next := by
    intro same
    rw [← same, freshGrandchild] at alive
    cases alive
  rcases Option.isSome_iff_exists.mp alive with ⟨own, ownProgram⟩
  have stillAlive : daemon.programs next = some own := by
    rw [others next other alive, ownProgram]
  have free : daemon.Free next file := by
    intro owner owns
    rw [noOwner] at owns
    cases owns
  rcases runOnce_cases stillAlive file true with ⟨_, locks⟩ | ⟨busy, _⟩
  · have afterward : after = daemon.locks next file own := locks
    refine ⟨apart, noOwner, daemonRuns, ?_, ?_, ?_⟩
    · rw [afterward, instance_locks stillAlive]
      exact .inr daemonRuns
    · rw [afterward, instance_locks stillAlive]
      exact .inl ⟨rfl, rfl⟩
    · rw [afterward]
      exact if_pos rfl
  · exact absurd ⟨rfl, free⟩ busy

/-- The order of the calls in a program that locks its file first. -/
theorem daemonize_loses_lock_sample :
    let events : List Event := [.start 7, .alreadyRunning 7 true, .start 8]
    let daemon := daemonize 7 ⟨some 9, some 10, true⟩ (runAll .start events)
    Instance (runOnce 8 lockFile true daemon) lockFile 10 ∧
      Instance (runOnce 8 lockFile true daemon) lockFile 8 := by
  intro events
  have careful : Careful .start events := ⟨trivial, trivial, trivial, trivial⟩
  have both := daemonize_loses_lock events careful lockFile 7 9 10 8
    ⟨[lockFile], by decide +kernel, by simp⟩ (by decide +kernel) (by decide +kernel) (by decide)
    (by decide +kernel) (by decide)
  exact ⟨both.2.2.2.1, both.2.2.2.2.1⟩

end Lctools.Process
