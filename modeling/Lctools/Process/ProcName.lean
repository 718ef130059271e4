import Lctools.Foundation.CString
import Lctools.Foundation.Numerals

/-! # `utils/get_proc_name`, and its copy in `log/iridiumSysLog`

The path of the running program is cut behind its last slash.
-/

namespace Lctools.Process

open CString Numerals

/-! ## The program -/

def pathMax : ℕ := 4096

/-- The position `strrchr(bytes, c)` points to. -/
def strrchr (bytes : List Char) (c : Char) : Option ℕ :=
  match (text bytes).reverse.dropWhile (· ≠ c) with
  | [] => none
  | _ :: before => some before.length

/-- The `len` bytes that `strncpy(dst, bytes, len)` writes. -/
def strncpy (bytes : List Char) (len : ℕ) : List Char :=
  (text bytes).take len ++ List.replicate (len - (text bytes).length) nul

/-- `strrchr` goes past the end of the array. -/
inductive ProcNameFault where
  | unterminated
  deriving DecidableEq, Repr

/-- The value of the function, and the arrays that `real_dir` and `proc_name` point to. -/
structure ProcName where
  value : ℤ
  realDir : List Char
  procName : List Char
  deriving DecidableEq, Repr

/-- The array that `real_dir` points to: that of the caller, or a new one. -/
def dirArray (procDir : Option (List Char)) : List Char :=
  procDir.getD (List.replicate pathMax nul)

/-- The array after `readlink`, which writes the path without a zero byte behind it. -/
def linked (procDir : Option (List Char)) (path : List Char) : List Char :=
  path.take pathMax ++ (dirArray procDir).drop (path.take pathMax).length

/-- The two copies of `get_proc_path_name`, with an array of `len` bytes for the name. `readlink`
gives the path of the program, or fails; `difference` is the value of `path_end - real_dir` at the
end. -/
def pathName (difference : ℕ → ℤ) (procDir : Option (List Char)) (len : ℕ)
    (readlink : Option (List Char)) : Except ProcNameFault ProcName :=
  let cleared := List.replicate len nul
  match readlink with
  | none => .ok ⟨0, dirArray procDir, cleared⟩
  | some path =>
      if path = [] then .ok ⟨0, dirArray procDir, cleared⟩
      else
        let realDir := linked procDir path
        if nul ∉ realDir then .error .unterminated
        else
          match strrchr realDir '/' with
          | none => .ok ⟨0, realDir, cleared⟩
          | some slash =>
              let pathEnd := slash + 1
              .ok ⟨difference pathEnd, realDir.set pathEnd nul, strncpy (realDir.drop pathEnd) len⟩

def getProcPathName (procDir : Option (List Char)) (len : ℕ) (readlink : Option (List Char)) :
    Except ProcNameFault ProcName :=
  pathName (fun pathEnd => pathEnd) procDir len readlink

/-- The copy of the log has set `real_dir` to `NULL` before, if it made the array at `address`. -/
def getProcPathNameLog (address : ℕ) (procDir : Option (List Char)) (len : ℕ)
    (readlink : Option (List Char)) : Except ProcNameFault ProcName :=
  pathName (fun pathEnd => if procDir = none then wrapSigned 32 (address + pathEnd) else pathEnd)
    procDir len readlink

/-! ## The name -/

/-- The arrays hold the two parts of a path as strings. -/
structure Split (directory name : List Char) (result : ProcName) : Prop where
  directory : text result.realDir = directory ++ ['/']
  name : text result.procName = name
  terminated : nul ∈ result.procName

theorem strrchr_eq {bytes front back : List Char} {mark : Char}
    (whole : text bytes = front ++ mark :: back) (last : mark ∉ back) :
    strrchr bytes mark = some front.length := by
  have backwards : (text bytes).reverse = back.reverse ++ mark :: front.reverse := by
    rw [whole]
    simp
  have stops := dropWhile_mark (mt List.mem_reverse.mp last) front.reverse
  rw [← backwards] at stops
  rw [strrchr, stops]
  simp only [List.length_reverse]

theorem text_of_nul {front : List Char} (clean : nul ∉ front) (back : List Char) :
    text (front ++ nul :: back) = front :=
  takeWhile_mark clean back

theorem pathName_eq {difference : ℕ → ℤ} {procDir : Option (List Char)}
    {path front back rest : List Char} (len : ℕ) (some : path ≠ []) (cleanFront : nul ∉ front)
    (cleanBack : nul ∉ back) (last : '/' ∉ back)
    (array : linked procDir path = front ++ '/' :: (back ++ nul :: rest)) :
    ∃ tail, pathName difference procDir len (.some path) =
      .ok ⟨difference (front.length + 1), front ++ '/' :: nul :: tail,
        back.take len ++ List.replicate (len - back.length) nul⟩ := by
  have clean : nul ∉ front ++ '/' :: back := by
    simp only [List.mem_append, List.mem_cons, not_or]
    exact ⟨cleanFront, by decide, cleanBack⟩
  have regroup : front ++ '/' :: (back ++ nul :: rest) = (front ++ '/' :: back) ++ nul :: rest := by
    simp
  have found : strrchr (front ++ '/' :: (back ++ nul :: rest)) '/' = .some front.length := by
    rw [regroup]
    exact strrchr_eq (text_of_nul clean rest) last
  have behind : (front ++ '/' :: (back ++ nul :: rest)).drop (front.length + 1) =
      back ++ nul :: rest := by
    rw [List.drop_append]
    simp
  have copied : strncpy (back ++ nul :: rest) len =
      back.take len ++ List.replicate (len - back.length) nul := by
    rw [strncpy, text_of_nul cleanBack]
  have cut : ∃ tail, (front ++ '/' :: (back ++ nul :: rest)).set (front.length + 1) nul =
      front ++ '/' :: nul :: tail := by
    cases back with
    | nil =>
        refine ⟨rest, ?_⟩
        rw [List.set_append_right _ _ (by omega)]
        simp
    | cons head tail =>
        refine ⟨tail ++ nul :: rest, ?_⟩
        rw [List.set_append_right _ _ (by omega)]
        simp
  rcases cut with ⟨tail, cut⟩
  refine ⟨tail, ?_⟩
  rw [pathName]
  simp only [if_neg some, array, found, behind, copied, cut]
  rw [if_neg]
  simp

theorem text_front {front : List Char} (clean : nul ∉ front) (tail : List Char) :
    text (front ++ '/' :: nul :: tail) = front ++ ['/'] := by
  have cleanAll : nul ∉ front ++ ['/'] := by
    simp only [List.mem_append, List.mem_singleton, not_or]
    exact ⟨clean, by decide⟩
  have cut := text_of_nul cleanAll tail
  rwa [List.append_assoc] at cut

theorem split_copied_iff {front back : List Char} (value : ℤ) (len : ℕ) (tail : List Char)
    (cleanFront : nul ∉ front) (cleanBack : nul ∉ back) (name : List Char) :
    Split front name ⟨value, front ++ '/' :: nul :: tail,
        back.take len ++ List.replicate (len - back.length) nul⟩ ↔
      back = name ∧ back.length < len := by
  have directory := text_front cleanFront tail
  by_cases fits : back.length < len
  · have copied : back.take len ++ List.replicate (len - back.length) nul =
        back ++ nul :: List.replicate (len - back.length - 1) nul := by
      rw [List.take_of_length_le (Nat.le_of_lt fits), ← List.replicate_succ]
      congr 2
      omega
    rw [copied]
    constructor
    · intro split
      have same := split.name
      rw [text_of_nul cleanBack] at same
      exact ⟨same, fits⟩
    · rintro ⟨same, _⟩
      refine ⟨directory, ?_, by simp⟩
      rw [text_of_nul cleanBack, same]
  · constructor
    · intro split
      have terminated := split.terminated
      rw [Nat.sub_eq_zero_of_le (Nat.le_of_not_lt fits), List.replicate_zero,
        List.append_nil] at terminated
      exact absurd (List.mem_of_mem_take terminated) cleanBack
    · rintro ⟨_, less⟩
      exact absurd less fits

theorem last_occurrence {bytes : List Char} {mark : Char} (member : mark ∈ bytes) :
    ∃ front back, bytes = front ++ mark :: back ∧ mark ∉ back := by
  rcases List.eq_append_cons_of_mem (List.mem_reverse.mpr member) with ⟨back, front, whole, last⟩
  refine ⟨front.reverse, back.reverse, ?_, mt List.mem_reverse.mp last⟩
  rw [← List.reverse_reverse bytes, whole]
  simp

/-- What stands in the array behind the path becomes part of it. -/
theorem not_split_of_stale {difference : ℕ → ℤ} {procDir : Option (List Char)}
    {directory name : List Char} {head : Char} {more : List Char} (len : ℕ)
    (clean : nul ∉ directory ++ '/' :: name) (last : '/' ∉ name)
    (solid : head ≠ nul)
    (array : linked procDir (directory ++ '/' :: name) =
      directory ++ '/' :: (name ++ head :: more))
    {result : ProcName}
    (called : pathName difference procDir len (some (directory ++ '/' :: name)) = .ok result) :
    ¬Split directory name result := by
  intro split
  have some : directory ++ '/' :: name ≠ [] := by simp
  simp only [List.mem_append, List.mem_cons, not_or] at clean
  rcases clean with ⟨cleanDirectory, _, cleanName⟩
  by_cases ends : nul ∈ head :: more
  · rcases List.eq_append_cons_of_mem ends with ⟨stale, rest, whole, cleanStale⟩
    rw [whole] at array
    by_cases slash : '/' ∈ stale
    · -- the last slash is not that of the path
      rcases last_occurrence slash with ⟨front, back, parts, lastBack⟩
      rw [parts] at array cleanStale
      simp only [List.mem_append, List.mem_cons, not_or] at cleanStale
      have cleanFront : nul ∉ directory ++ '/' :: (name ++ front) := by
        simp only [List.mem_append, List.mem_cons, not_or]
        exact ⟨cleanDirectory, by decide, cleanName, cleanStale.1⟩
      have regrouped : directory ++ '/' :: (name ++ (front ++ '/' :: back ++ nul :: rest)) =
          (directory ++ '/' :: (name ++ front)) ++ '/' :: (back ++ nul :: rest) := by
        simp
      rcases pathName_eq len some cleanFront cleanStale.2.2 lastBack
          (array.trans regrouped) with ⟨tail, other⟩
      rw [other] at called
      cases called
      have longer := congrArg List.length split.directory
      rw [text_front cleanFront] at longer
      simp only [List.length_append, List.length_cons] at longer
      omega
    · have cleanBack : nul ∉ name ++ stale := by
        simp only [List.mem_append, not_or]
        exact ⟨cleanName, cleanStale⟩
      have lastBack : '/' ∉ name ++ stale := by
        simp only [List.mem_append, not_or]
        exact ⟨last, slash⟩
      rw [← List.append_assoc name] at array
      rcases pathName_eq len some cleanDirectory cleanBack lastBack array with ⟨tail, other⟩
      rw [other] at called
      cases called
      have same := ((split_copied_iff _ len tail cleanDirectory cleanBack name).mp split).1
      have empty : stale = [] := by simpa using same
      rw [empty, List.nil_append] at whole
      cases whole
      exact solid rfl
  · have unterminated : nul ∉ directory ++ '/' :: (name ++ head :: more) := by
      simp only [List.mem_append, List.mem_cons, not_or] at ends ⊢
      exact ⟨cleanDirectory, by decide, cleanName, ends⟩
    rw [pathName] at called
    simp only [if_neg some, array, if_pos unterminated] at called
    cases called

theorem linked_eq {procDir : Option (List Char)} {path : List Char} (short : path.length < pathMax)
    (array : ∀ old, procDir = some old → old.length = pathMax) :
    ∃ head more, linked procDir path = path ++ head :: more ∧
      ((∀ old, procDir = some old → old[path.length]? = some nul) ↔ head = nul) := by
  have size : (dirArray procDir).length = pathMax := by
    cases procDir with
    | none => exact List.length_replicate
    | some old => exact array old rfl
  obtain ⟨head, more, behind⟩ : ∃ head more, (dirArray procDir).drop path.length = head :: more :=
    List.exists_cons_of_ne_nil (by simpa [List.drop_eq_nil_iff, size] using short)
  have headAt : (dirArray procDir)[path.length]? = some head := by
    rw [← List.head?_drop, behind]
    rfl
  refine ⟨head, more, ?_, ?_⟩
  · rw [linked, List.take_of_length_le (Nat.le_of_lt short), behind]
  · cases procDir with
    | none =>
        rw [dirArray, Option.getD_none, List.getElem?_replicate, if_pos short] at headAt
        cases headAt
        exact ⟨fun _ => rfl, fun _ _ same => by cases same⟩
    | some caller =>
        rw [dirArray, Option.getD_some] at headAt
        constructor
        · intro zeros
          have zero := zeros caller rfl
          rw [headAt] at zero
          exact Option.some.inj zero
        · intro zero other same
          cases same
          rw [headAt, zero]

theorem pathName_split_iff (difference : ℕ → ℤ) {procDir : Option (List Char)}
    {directory name : List Char} (len : ℕ) (clean : nul ∉ directory ++ '/' :: name)
    (last : '/' ∉ name) (short : (directory ++ '/' :: name).length < pathMax)
    (array : ∀ old, procDir = some old → old.length = pathMax) :
    (∃ result, pathName difference procDir len (some (directory ++ '/' :: name)) = .ok result ∧
        Split directory name result ∧ result.value = directory.length + 1) ↔
      (name.length < len ∧
        ∀ old, procDir = some old → old[(directory ++ '/' :: name).length]? = some nul) ∧
        difference (directory.length + 1) = directory.length + 1 := by
  rcases linked_eq short array with ⟨head, more, realDir, zeroIff⟩
  rw [List.append_assoc, List.cons_append] at realDir
  rw [zeroIff]
  by_cases zero : head = nul
  · rw [zero] at realDir
    have cleanParts := clean
    simp only [List.mem_append, List.mem_cons, not_or] at cleanParts
    rcases @pathName_eq difference _ _ _ _ _ len (by simp) cleanParts.1 cleanParts.2.2 last
        realDir with ⟨tail, called⟩
    have split := split_copied_iff (difference (directory.length + 1)) len tail cleanParts.1
      cleanParts.2.2 name
    simp only [called, Except.ok.injEq, exists_eq_left', split, zero, true_and, and_true]
  · constructor
    · rintro ⟨result, called, split, _⟩
      exact absurd split (not_split_of_stale len clean last zero realDir called)
    · rintro ⟨⟨_, isZero⟩, _⟩
      exact absurd isZero zero

/-- The path of a program is split as it should be exactly if the name leaves room for a zero byte,
and the array for the directory, if there is one, has a zero byte where the path ends: `readlink`
does not put one there. -/
theorem getProcPathName_split_iff {procDir : Option (List Char)} {directory name : List Char}
    (len : ℕ) (clean : nul ∉ directory ++ '/' :: name) (last : '/' ∉ name)
    (short : (directory ++ '/' :: name).length < pathMax)
    (array : ∀ old, procDir = some old → old.length = pathMax) :
    (∃ result, getProcPathName procDir len (some (directory ++ '/' :: name)) = .ok result ∧
        Split directory name result ∧ result.value = directory.length + 1) ↔
      name.length < len ∧
        ∀ old, procDir = some old → old[(directory ++ '/' :: name).length]? = some nul := by
  have both := pathName_split_iff (fun pathEnd => pathEnd) len clean last short array
  simp only [Nat.cast_add, Nat.cast_one, and_true] at both
  exact both

/-- The program `/bin/sh` with an array of four bytes for its name, and a used one for its
directory. -/
theorem getProcPathName_split_iff_sample :
    let path := ['/', 'b', 'i', 'n', '/', 's', 'h']
    let used := List.replicate 8 'x' ++ List.replicate (pathMax - 8) nul
    (∃ result, getProcPathName none 4 (some path) = .ok result ∧
        Split ['/', 'b', 'i', 'n'] ['s', 'h'] result ∧ result.value = 5) ∧
      ¬∃ result, getProcPathName (some used) 4 (some path) = .ok result ∧
        Split ['/', 'b', 'i', 'n'] ['s', 'h'] result ∧ result.value = 5 := by
  intro path used
  have clean : nul ∉ ['/', 'b', 'i', 'n'] ++ '/' :: ['s', 'h'] := by decide
  have last : '/' ∉ ['s', 'h'] := by decide
  have short : (['/', 'b', 'i', 'n'] ++ '/' :: ['s', 'h']).length < pathMax := by decide
  constructor
  · refine (getProcPathName_split_iff 4 clean last short ?_).mpr ⟨by decide, ?_⟩
    · intro old same
      cases same
    · intro old same
      cases same
  · intro split
    have size : ∀ old, some used = some old → old.length = pathMax := by
      intro old same
      cases same
      rw [List.length_append, List.length_replicate, List.length_replicate]
      decide
    have zero := ((getProcPathName_split_iff 4 clean last short size).mp split).2 used rfl
    rw [List.getElem?_append_left (by decide)] at zero
    exact absurd zero (by decide)

theorem wrapSigned_add_iff (address : ℕ) {number : ℕ} (small : number < 2 ^ 31) :
    wrapSigned 32 (address + number) = number ↔ 2 ^ 32 ∣ address := by
  have congruent := wrapSigned_modEq 32 (address + number)
  constructor
  · intro same
    rw [same] at congruent
    have divides := congruent.dvd
    rw [Int.add_sub_cancel] at divides
    exact_mod_cast divides
  · intro divides
    apply signedRange_unique (wrapSigned_mem 31 _) ⟨by omega, by exact_mod_cast small⟩
    refine congruent.trans (Int.ModEq.symm (Int.modEq_iff_dvd.mpr ?_))
    rw [Int.add_sub_cancel]
    exact_mod_cast divides

/-- The log gives no array for the directory, and the function then returns the lower half of an
address. -/
theorem getProcPathNameLog_split_iff {directory name : List Char} (address len : ℕ)
    (clean : nul ∉ directory ++ '/' :: name) (last : '/' ∉ name)
    (short : (directory ++ '/' :: name).length < pathMax) :
    (∃ result, getProcPathNameLog address none len (some (directory ++ '/' :: name)) = .ok result ∧
        Split directory name result ∧ result.value = directory.length + 1) ↔
      name.length < len ∧ 2 ^ 32 ∣ address := by
  have noArray : ∀ old : List Char, none = some old → old.length = pathMax := by
    intro old same
    cases same
  have both := pathName_split_iff
    (fun pathEnd => if (none : Option (List Char)) = none then wrapSigned 32 (address + pathEnd)
      else pathEnd) len clean last short noArray
  have small : directory.length + 1 < 2 ^ 31 := by
    simp only [List.length_append, List.length_cons, pathMax] at short
    omega
  have value := wrapSigned_add_iff address small
  simp only [Nat.cast_add, Nat.cast_one] at value
  simp only [if_true, Nat.cast_add, Nat.cast_one, value] at both
  simp only [getProcPathNameLog, if_true, both, reduceCtorEq, false_implies, implies_true, and_true]

end Lctools.Process
